import DerivedQuery.Text.Case
import DerivedQuery.Text.Category
import DerivedQuery.Text.Script

/-!
This module contains the classes of characters that patterns are made from, as expressions with a
membership test.
-/

namespace DerivedQuery

inductive CharClass where
  | none
  | range (first last : Char)
  | categories (codes : List Category)
  | script (s : Script)
  /-- The word characters of all scripts. -/
  | word
  | space
  | alphabetic
  | union (a b : CharClass)
  | inter (a b : CharClass)
  | diff (a b : CharClass)
  | symmDiff (a b : CharClass)
  | compl (a : CharClass)
  /-- The characters that differ from a member in case alone. -/
  | folded (a : CharClass)
  | asciiFolded (a : CharClass)

namespace CharClass

def swapCase (c : Char) : Char :=
  if c.isUpper then c.toLower else c.toUpper

def contains : CharClass → Char → Bool
  | .none, _ => false
  | .range first last, c => first ≤ c && c ≤ last
  | .categories codes, c => codes.contains (Category.of c)
  | .script s, c => s.contains c
  | .word, c => Text.isWord c
  | .space, c => Text.isSpace c
  | .alphabetic, c => Text.isAlphabetic c
  | .union a b, c => a.contains c || b.contains c
  | .inter a b, c => a.contains c && b.contains c
  | .diff a b, c => a.contains c && !b.contains c
  | .symmDiff a b, c => a.contains c != b.contains c
  | .compl a, c => !a.contains c
  | .folded a, c => a.contains c || (Text.cases c).any fun d => a.contains d
  | .asciiFolded a, c => a.contains c || a.contains (swapCase c)

def single (c : Char) : CharClass :=
  .range c c

def ofRanges (ranges : List (Char × Char)) : CharClass :=
  ranges.foldr (fun (first, last) rest => .union (.range first last) rest) .none

def negateIf (negated : Bool) (a : CharClass) : CharClass :=
  if negated then .compl a else a

def isAscii (a : CharClass) : Bool :=
  (List.range 128).all fun n => !a.contains (Char.ofNat (128 + n))

/--
An estimate of the room that a class takes once it is spelled out in bytes.
-/
def cost : CharClass → Nat
  | .none => 32
  | .range first last => if last.toNat < 128 then 32 else 32 * (if first = last then 4 else 12)
  | .categories codes => 2000 * codes.length
  | .script s => 64 * s.ranges.length
  | .word => 60000
  | .space => 500
  | .alphabetic => 60000
  | .union a b | .inter a b | .diff a b | .symmDiff a b => max a.cost b.cost
  | .compl a => a.cost + 100
  | .folded a => a.cost
  | .asciiFolded a => a.cost

end CharClass
end DerivedQuery
