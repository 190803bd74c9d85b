import DerivedQuery.Error
import DerivedQuery.Store.Collection
import DerivedQuery.Store.Journal

/-!
This module contains stores: a collection together with the journal of the work that is done on it.
Failures of the collection are reported as errors of a query.
-/

namespace DerivedQuery

structure Store where
  collection : Collection
  journal : Journal := {}

/--
Work on a store that can fail. What was done before the failure stays done.
-/
abbrev StoreAction (ε α : Type) := EStateM ε Store α

namespace Store

def note (s : Store) (step : WorkStep) : Store :=
  { s with journal := s.journal.addStep step }

def failNext (s : Store) (failure : Failure) : Store :=
  { s with collection := s.collection.failNext failure }

def insertAll (s : Store) (documents : List Document) : List Value × Store :=
  let (ids, collection) := s.collection.insertAll documents
  (ids, { s with collection })

/--
Search the collection. A search that hands out a cursor is noted.
-/
def find (filter : Filter) (options : FindOptions) : StoreAction String Cursor := fun s =>
  match s.collection.find filter options with
  | (.error cause, collection) => .error cause { s with collection }
  | (.ok cursor, collection) =>
    .ok cursor ({ s with collection }.note (.store collection.name cursor.documents.length))

def close (cursor : Cursor) : StoreAction ε Cursor := fun s =>
  let (cursor, collection) := s.collection.close cursor
  .ok cursor { s with collection }

def findOne (filter : Filter) (options : FindOptions) : StoreAction String (Option Document) := do
  let cursor ← find filter { options with limit := some 1 }
  let (first, cursor) := cursor.next
  let _ ← close cursor
  match first with
  | .ok found => return found
  | .error cause => throw cause

def count (filter : Filter) : StoreAction String Nat := fun s =>
  match s.collection.count filter with
  | (.error cause, collection) => .error cause { s with collection }
  | (.ok n, collection) => .ok n { s with collection }

def fail (cause : String) : StoreAction QueryError α := fun s =>
  .error (.execution s.collection.name cause) { s with journal := s.journal.countFailure }

def reporting (action : StoreAction String α) : StoreAction QueryError α := fun s =>
  match action s with
  | .ok a s => .ok a s
  | .error cause s => fail cause s

end Store
end DerivedQuery
