import DerivedQuery.Store.Basic
import DerivedQuery.Text.Quoted

/-!
This module contains streams, which read the entities that a query finds one by one. A stream gives
its cursor back at the end, and at the first error.
-/

namespace DerivedQuery

/--
How an entity is read from a stored document, if the document is of its form.
-/
abbrev EntityReader (γ : Type) := Document → Option γ

/--
A stream without a cursor is closed.
-/
structure ResultStream where
  collection : String
  cursor : Option Cursor

namespace ResultStream

def isOpen (s : ResultStream) : Bool :=
  s.cursor.isSome

def text (s : ResultStream) : String :=
  "ResultStream \x7b collection: " ++ Text.quoted s.collection ++ ", open: " ++
    toString s.isOpen ++ " \x7d"

def rewind (s : ResultStream) : Bool × ResultStream :=
  match s.cursor with
  | none => (false, s)
  | some cursor =>
    let (again, cursor) := cursor.rewind
    (again, { s with cursor := some cursor })

def release (s : ResultStream) (store : Store) : ResultStream × Store :=
  match s.cursor with
  | none => (s, store)
  | some cursor =>
    ({ s with cursor := none }, { store with collection := (store.collection.close cursor).2 })

def next (read : EntityReader γ) (s : ResultStream) (store : Store) :
    Except QueryError (Option γ) × ResultStream × Store :=
  match s.cursor with
  | none => (.ok none, s, store)
  | some cursor =>
    match cursor.next with
    | (.ok (some d), cursor) =>
      match read d with
      | some entity => (.ok (some entity), { s with cursor := some cursor }, store)
      | none => (.error .notAnEntity, s.release store)
    | (.ok none, _) => (.ok none, s.release store)
    | (.error cause, _) =>
      let (s, store) := s.release store
      (.error (.execution s.collection cause), s,
        { store with journal := store.journal.countFailure })

def left (s : ResultStream) : Nat :=
  s.cursor.elim 0 Cursor.left

theorem left_lt_of_next {read : EntityReader γ} {s rest : ResultStream} {store store' : Store}
    {entity : γ} (h : s.next read store = (.ok (some entity), rest, store')) :
    rest.left < s.left := by
  unfold next at h
  cases hcursor : s.cursor with
  | none => simp [hcursor] at h
  | some cursor =>
    simp only [hcursor] at h
    split at h
    next d after hnext =>
      split at h
      next =>
        simp only [Prod.mk.injEq] at h
        rw [← h.2.1, left, left, hcursor]
        exact Cursor.left_lt_of_next hnext
      next => simp at h
    next => simp at h
    next => simp at h

def readAll (read : EntityReader γ) (s : ResultStream) : StoreAction QueryError (List γ) :=
  fun store =>
    match _ : s.next read store with
    | (.ok none, _, store) => .ok [] store
    | (.error e, _, store) => .error e store
    | (.ok (some entity), rest, store) => (do return entity :: (← readAll read rest)) store
termination_by s.left
decreasing_by
  apply left_lt_of_next
  assumption

end ResultStream
end DerivedQuery
