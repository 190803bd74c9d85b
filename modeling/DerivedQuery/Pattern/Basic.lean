import DerivedQuery.Pattern.CharClass

/-!
This module contains patterns and their meaning. A pattern carries a set of places in a text to the
places that a match which begins at one of them can end at. The set is a list of marks, one for each
place, so that all matches are followed at once.
-/

namespace DerivedQuery

inductive Look where
  | textStart
  | textEnd
  /-- The start of a line; `returns` says whether a carriage return also ends a line. -/
  | lineStart (returns : Bool)
  | lineEnd (returns : Bool)
  /-- The edge of a word; `unicode` says whether words are those of all scripts. -/
  | boundary (unicode : Bool)
  | notBoundary (unicode : Bool)
  | wordStart (unicode : Bool)
  | wordEnd (unicode : Bool)
  | wordStartHalf (unicode : Bool)
  | wordEndHalf (unicode : Bool)
deriving DecidableEq, Repr

inductive Pattern where
  | empty
  | one (c : CharClass)
  | look (l : Look)
  | seq (a b : Pattern)
  | alt (a b : Pattern)
  | repeated (a : Pattern) (least : Nat) (most : Option Nat)

/--
A place in a text by the characters before and after it.
-/
structure Spot where
  before : Option Char
  after : Option Char
deriving DecidableEq, Repr

namespace Spot

def ofCharsAfter (before : Option Char) : List Char → List Spot
  | [] => [⟨before, none⟩]
  | c :: cs => ⟨before, some c⟩ :: ofCharsAfter (some c) cs

def ofChars (s : List Char) : List Spot :=
  ofCharsAfter none s

end Spot

namespace Look

def isWordChar (unicode : Bool) : Option Char → Bool
  | none => false
  | some c => if unicode then Text.isWord c else c.isAlphanum || c == '_'

def holds (l : Look) (spot : Spot) : Bool :=
  match l with
  | .textStart => spot.before.isNone
  | .textEnd => spot.after.isNone
  | .lineStart false => spot.before.isNone || spot.before == some '\n'
  | .lineStart true =>
    spot.before.isNone || spot.before == some '\n' ||
      (spot.before == some '\r' && spot.after != some '\n')
  | .lineEnd false => spot.after.isNone || spot.after == some '\n'
  | .lineEnd true =>
    spot.after.isNone || spot.after == some '\r' ||
      (spot.after == some '\n' && spot.before != some '\r')
  | .boundary unicode => isWordChar unicode spot.before != isWordChar unicode spot.after
  | .notBoundary unicode => isWordChar unicode spot.before == isWordChar unicode spot.after
  | .wordStart unicode => !isWordChar unicode spot.before && isWordChar unicode spot.after
  | .wordEnd unicode => isWordChar unicode spot.before && !isWordChar unicode spot.after
  | .wordStartHalf unicode => !isWordChar unicode spot.before
  | .wordEndHalf unicode => !isWordChar unicode spot.after

end Look

namespace Pattern

/--
Move the marks one place on, over the characters that pass the test.
-/
def advance (test : Char → Bool) (carry : Bool) : List Spot → List Bool → List Bool
  | spot :: spots, mark :: marks => carry :: advance test (mark && spot.after.any test) spots marks
  | _, _ => []

def keep (test : Spot → Bool) (spots : List Spot) (marks : List Bool) : List Bool :=
  List.zipWith (fun spot mark => mark && test spot) spots marks

def join (a b : List Bool) : List Bool :=
  List.zipWith (· || ·) a b

def iterate (step : List Bool → List Bool) : Nat → List Bool → List Bool
  | 0, marks => marks
  | n + 1, marks => iterate step n (step marks)

/--
Add what `step` reaches, up to `n` times or until nothing is added.
-/
def close (step : List Bool → List Bool) : Nat → List Bool → List Bool
  | 0, marks => marks
  | n + 1, marks =>
    let more := join marks (step marks)
    if more = marks then marks else close step n more

def run (spots : List Spot) : Pattern → List Bool → List Bool
  | .empty, marks => marks
  | .one c, marks => advance c.contains false spots marks
  | .look l, marks => keep l.holds spots marks
  | .seq a b, marks => run spots b (run spots a marks)
  | .alt a b, marks => join (run spots a marks) (run spots b marks)
  | .repeated a least most, marks =>
    let reached := iterate (run spots a) least marks
    close (run spots a) (most.elim spots.length (· - least)) reached

def findIn (p : Pattern) (s : List Char) : Bool :=
  let spots := Spot.ofChars s
  (run spots p (spots.map fun _ => true)).any id

def concat (ps : List Pattern) : Pattern :=
  ps.foldr .seq .empty

/--
An estimate of the room that a pattern takes once its repetitions are spelled out.
-/
def cost : Pattern → Nat
  | .empty => 32
  | .one c => c.cost
  | .look _ => 32
  | .seq a b => a.cost + b.cost
  | .alt a b => a.cost + b.cost + 32
  | .repeated a least none => a.cost * max least 1 + 32
  | .repeated a least (some most) => a.cost * max least most + 32 * (most - least) + 32

end Pattern
end DerivedQuery
