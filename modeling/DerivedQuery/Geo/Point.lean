import DerivedQuery.Value.Basic

/-!
This module contains points, and how documents store them.
-/

namespace DerivedQuery

/--
A point of the plane, or a longitude and a latitude in degrees.
-/
structure Point where
  x : Float
  y : Float
deriving Repr

namespace Point

def same (a b : Point) : Bool :=
  a.x == b.x && a.y == b.y

def isFinite (p : Point) : Bool :=
  p.x.isFinite && p.y.isFinite

def toValue (p : Point) : Value :=
  .array [.double p.x, .double p.y]

def ofNumbers? (x y : Value) : Option Point := do
  return ⟨← x.number?, ← y.number?⟩

def ofNamed? (d : Document) : Option Point := do
  ofNumbers? (← d.get? "x") (← d.get? "y")

mutual

/--
The point that a value stores: a pair of numbers, the fields `x` and `y`, or the same under
`coordinates`.
-/
def ofValue? : Value → Option Point
  | .array [x, y] => ofNumbers? x y
  | .document d =>
    match ofCoordinates? d with
    | some found => found
    | none => ofNamed? d
  | _ => none

/--
What the first field `coordinates` stores, if there is one.
-/
def ofCoordinates? : List (String × Value) → Option (Option Point)
  | [] => none
  | (key, value) :: fields =>
    if key = "coordinates" then some (ofValue? value) else ofCoordinates? fields

end

end Point
end DerivedQuery
