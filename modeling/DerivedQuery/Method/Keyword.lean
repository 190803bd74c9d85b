import DerivedQuery.Text.Split

/-!
This module contains the search for keywords in method names. A keyword counts only where a capital
letter, or the end of the name, follows it.
-/

namespace DerivedQuery
namespace Keyword

def startsCapital : List Char → Bool
  | [] => false
  | c :: _ => c.isUpper

/--
The text begins with the keyword, and there a word ends.
-/
def isAt (keyword s : List Char) : Bool :=
  match Text.dropStart? keyword s with
  | none => false
  | some rest => rest.isEmpty || startsCapital rest

def cut? (keyword : List Char) : List Char → Option (List Char × List Char)
  | [] => none
  | c :: cs =>
    if isAt keyword (c :: cs) then some ([], (c :: cs).drop keyword.length)
    else (cut? keyword cs).map fun (before, after) => (c :: before, after)

def consHead (c : Char) : List (List Char) → List (List Char)
  | [] => [[c]]
  | piece :: pieces => (c :: piece) :: pieces

/--
The pieces between the occurrences of the keyword, where the first `skipped` characters belong to an
occurrence.
-/
def splitFrom (keyword : List Char) : (skipped : Nat) → List Char → List (List Char)
  | _, [] => [[]]
  | skipped + 1, _ :: cs => splitFrom keyword skipped cs
  | 0, c :: cs =>
    if isAt keyword (c :: cs) then [] :: splitFrom keyword (keyword.length - 1) cs
    else consHead c (splitFrom keyword 0 cs)

def split (keyword s : List Char) : List (List Char) :=
  splitFrom keyword 0 s

def dropEnding (endings : List String) (s : List Char) : List Char × Option String :=
  match endings with
  | [] => (s, none)
  | ending :: endings =>
    match Text.dropEnd? ending.toList s with
    | some rest => (rest, some ending)
    | none => dropEnding endings s

def and_ : List Char := "And".toList
def or_ : List Char := "Or".toList
def by_ : List Char := "By".toList
def orderBy : List Char := "OrderBy".toList

end Keyword
end DerivedQuery
