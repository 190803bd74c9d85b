/-!
This module contains the operations on character lists that the readers of names, paths and
templates are built from: cutting at a separator, and removing a known beginning or end.
-/

namespace DerivedQuery
namespace Text

/--
Cut a text at every `sep`. There is always at least one piece.
-/
def splitOn (sep : Char) : List Char → List (List Char)
  | [] => [[]]
  | c :: cs =>
    if c = sep then
      [] :: splitOn sep cs
    else
      match splitOn sep cs with
      | [] => [[c]]
      | piece :: pieces => (c :: piece) :: pieces

theorem splitOn_ne_nil (sep : Char) (s : List Char) : splitOn sep s ≠ [] := by
  cases s with
  | nil => simp [splitOn]
  | cons c cs =>
    unfold splitOn
    split
    · simp
    · split <;> simp

theorem intercalate_splitOn (sep : Char) (s : List Char) :
    List.intercalate [sep] (splitOn sep s) = s := by
  induction s with
  | nil => rfl
  | cons c cs ih =>
    unfold splitOn
    split
    next h =>
      subst h
      cases hs : splitOn c cs with
      | nil => exact absurd hs (splitOn_ne_nil c cs)
      | cons piece pieces =>
        rw [hs] at ih
        simp_all [List.intercalate, List.intersperse]
    next h =>
      cases hs : splitOn sep cs with
      | nil => exact absurd hs (splitOn_ne_nil sep cs)
      | cons piece pieces =>
        rw [hs] at ih
        cases pieces <;> simp_all [List.intercalate, List.intersperse]

theorem not_mem_of_mem_splitOn (sep : Char) (s : List Char) :
    ∀ piece ∈ splitOn sep s, sep ∉ piece := by
  induction s with
  | nil => simp [splitOn]
  | cons c cs ih =>
    unfold splitOn
    split
    · simpa using ih
    next h =>
      cases hs : splitOn sep cs with
      | nil => exact absurd hs (splitOn_ne_nil sep cs)
      | cons piece pieces =>
        rw [hs] at ih
        simp only [List.mem_cons, forall_eq_or_imp] at ih ⊢
        refine ⟨?_, ih.2⟩
        simp only [not_or]
        exact ⟨fun heq => h heq.symm, ih.1⟩

def dropStart? : (start s : List Char) → Option (List Char)
  | [], s => some s
  | _ :: _, [] => none
  | a :: start, c :: s => if a = c then dropStart? start s else none

theorem dropStart?_eq_some_iff (start s rest : List Char) :
    dropStart? start s = some rest ↔ s = start ++ rest := by
  induction start generalizing s with
  | nil => simp [dropStart?, eq_comm]
  | cons a start ih =>
    cases s with
    | nil => simp [dropStart?]
    | cons c s =>
      simp only [dropStart?, List.cons_append, List.cons.injEq]
      split
      next h => simp [ih, h]
      next h => simp [show ¬ c = a from fun heq => h heq.symm]

def dropEnd? (ending s : List Char) : Option (List Char) :=
  if ending.isSuffixOf s then some (s.take (s.length - ending.length)) else none

theorem dropEnd?_eq_some_iff (ending s rest : List Char) :
    dropEnd? ending s = some rest ↔ s = rest ++ ending := by
  unfold dropEnd?
  constructor
  · intro h
    split at h
    next hs =>
      obtain ⟨t, ht⟩ := List.isSuffixOf_iff_suffix.mp hs
      subst ht
      simp_all
    next => simp at h
  · intro h
    subst h
    have : ending.isSuffixOf (rest ++ ending) = true :=
      List.isSuffixOf_iff_suffix.mpr ⟨rest, rfl⟩
    simp [this]

def digitValue (c : Char) : Nat :=
  c.toNat - '0'.toNat

def natOfDigits (digits : List Char) : Nat :=
  digits.foldl (fun n c => 10 * n + digitValue c) 0

def split (sep : Char) (s : String) : List String :=
  (splitOn sep s.toList).map String.ofList

def sameLetter (a b : Char) : Bool :=
  a.toLower == b.toLower

def capitalize : List Char → List Char
  | [] => []
  | c :: cs => c.toUpper :: cs

end Text
end DerivedQuery
