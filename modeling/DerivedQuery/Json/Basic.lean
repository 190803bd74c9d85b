/-!
This module contains JSON trees. The fields of an object are sorted by name and no name occurs
twice, which every operation here keeps.
-/

namespace DerivedQuery

/--
A JSON value. Whole numbers of at most 64 bits are kept exactly, all others are doubles.
-/
inductive Json where
  | null
  | bool (b : Bool)
  | int (n : Int)
  | float (x : Float)
  | string (s : String)
  | array (items : List Json)
  | object (fields : List (String × Json))
deriving Inhabited

namespace Json

/--
Set a field of an object. An earlier value of the field is dropped.
-/
def insertField (name : String) (value : Json) : List (String × Json) → List (String × Json)
  | [] => [(name, value)]
  | (other, old) :: fields =>
    if name < other then (name, value) :: (other, old) :: fields
    else if name = other then (name, value) :: fields
    else (other, old) :: insertField name value fields

/--
The object with the given fields, the last of equal names winning.
-/
def ofFields (fields : List (String × Json)) : Json :=
  .object (fields.foldl (fun sorted (name, value) => insertField name value sorted) [])

def findField? (name : String) : List (String × Json) → Option Json
  | [] => none
  | (other, value) :: fields => if name = other then some value else findField? name fields

def field? (name : String) : Json → Option Json
  | .object fields => findField? name fields
  | _ => none

def float? : Json → Option Float
  | .int n => some (Float.ofInt n)
  | .float x => some x
  | _ => none

def string? : Json → Option String
  | .string s => some s
  | _ => none

def ofOption (f : α → Json) : Option α → Json
  | none => .null
  | some a => f a

def ofNat (n : Nat) : Json :=
  .int n

def strings (items : List String) : Json :=
  .array (items.map .string)

end Json
end DerivedQuery
