import DerivedQuery.Value.Basic

/-!
This module contains cursors over the documents that a search selected, and the failures that a
collection can report.
-/

namespace DerivedQuery

inductive Failure where
  /-- The call itself fails. -/
  | call (cause : String)
  /-- The cursor fails once it has handed out the number of documents. -/
  | afterDocuments (count : Nat) (cause : String)
deriving DecidableEq, Repr

/--
A cursor hands out documents one by one until it is closed. It may have a number of documents after
which it fails.
-/
structure Cursor where
  documents : List Document
  position : Nat := 0
  failure : Option (Nat × String) := none
  isOpen : Bool := true

namespace Cursor

def fault? (c : Cursor) : Option String :=
  match c.failure with
  | some (count, cause) => if count ≤ c.position then some cause else none
  | none => none

/--
The next document, or that there is none. A failure leaves the cursor where it is.
-/
def next (c : Cursor) : Except String (Option Document) × Cursor :=
  if !c.isOpen then (.ok none, c)
  else
    match c.fault? with
    | some cause => (.error cause, c)
    | none =>
      match c.documents[c.position]? with
      | none => (.ok none, c)
      | some d => (.ok (some d), { c with position := c.position + 1 })

/--
Start again from the first document, which a closed cursor does not do.
-/
def rewind (c : Cursor) : Bool × Cursor :=
  if c.isOpen then (true, { c with position := 0 }) else (false, c)

def closed (c : Cursor) : Cursor :=
  { c with isOpen := false }

def left (c : Cursor) : Nat :=
  c.documents.length - c.position

theorem left_lt_of_next {c rest : Cursor} {d : Document} (h : c.next = (.ok (some d), rest)) :
    rest.left < c.left := by
  unfold next at h
  split at h
  next => simp at h
  next =>
    split at h
    next => simp at h
    next =>
      split at h
      next => simp at h
      next hd =>
        obtain ⟨hlt, -⟩ := List.getElem?_eq_some_iff.mp hd
        simp only [Prod.mk.injEq] at h
        rw [← h.2]
        unfold left
        dsimp only
        omega

end Cursor
end DerivedQuery
