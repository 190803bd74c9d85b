import DerivedQuery.Repository.Basic

/-!
This module contains sessions: a repository with the streams and cursors that were opened on it and
are known by a name. A stream or cursor that is dropped, or replaced, is closed.
-/

namespace DerivedQuery

inductive Handle where
  | stream (s : ResultStream)
  | cursor (c : Cursor)

namespace Handle

def isOpen : Handle → Bool
  | .stream s => s.isOpen
  | .cursor c => c.isOpen

def release (h : Handle) (store : Store) : Store :=
  match h with
  | .stream s => (s.release store).2
  | .cursor c => { store with collection := (store.collection.close c).2 }

end Handle

inductive Delivery (γ : Type) where
  | stream (result : Except QueryError (Option γ))
  | cursor (result : Except String (Option Document))

/--
No name occurs twice.
-/
structure Session (γ : Type) where
  repository : Repository γ
  handles : List (String × Handle) := []

namespace Session

def store (s : Session γ) : Store :=
  s.repository.store

def setStore (s : Session γ) (store : Store) : Session γ :=
  { s with repository := { s.repository with store } }

def handle? (s : Session γ) (id : String) : Option Handle :=
  s.handles.lookup id

def forget (s : Session γ) (id : String) : Session γ :=
  { s with handles := s.handles.filter fun (other, _) => other != id }

def put (s : Session γ) (id : String) (h : Handle) : Session γ :=
  { s with handles := (id, h) :: (s.forget id).handles }

def perform (s : Session γ) (action : RepositoryAction γ ε α) : Except ε α × Session γ :=
  match action s.repository with
  | .ok a repository => (.ok a, { s with repository })
  | .error e repository => (.error e, { s with repository })

/--
Forget a stream or a cursor and close it. The answer is whether the name was known.
-/
def drop (s : Session γ) (id : String) : Bool × Session γ :=
  match s.handle? id with
  | none => (false, s)
  | some h => (true, (s.forget id).setStore (h.release s.store))

/--
Name a new handle. The one that had the name before is dropped.
-/
def assign (s : Session γ) (id : String) (h : Handle) : Session γ :=
  (s.drop id).2.put id h

def openStream (s : Session γ) (id name : String) (args : List Argument) :
    Except QueryError Unit × Session γ :=
  match s.perform (Repository.stream name args) with
  | (.ok stream, s) => (.ok (), s.assign id (.stream stream))
  | (.error e, s) => (.error e, s)

def openCursor (s : Session γ) (id : String) (filter : Filter) (options : FindOptions) :
    Except String Unit × Session γ :=
  match s.perform (Repository.onStore (Store.find filter options)) with
  | (.ok cursor, s) => (.ok (), s.assign id (.cursor cursor))
  | (.error e, s) => (.error e, s)

def next (s : Session γ) (id : String) : Option (Delivery γ) × Session γ :=
  match s.handle? id with
  | none => (none, s)
  | some (.stream stream) =>
    let (result, stream, store) := stream.next s.repository.read s.store
    (some (.stream result), (s.setStore store).put id (.stream stream))
  | some (.cursor cursor) =>
    let (result, cursor) := cursor.next
    (some (.cursor result), s.put id (.cursor cursor))

def rewind (s : Session γ) (id : String) : Option Bool × Session γ :=
  match s.handle? id with
  | none => (none, s)
  | some (.stream stream) =>
    let (again, stream) := stream.rewind
    (some again, s.put id (.stream stream))
  | some (.cursor cursor) =>
    let (again, cursor) := cursor.rewind
    (some again, s.put id (.cursor cursor))

def close (s : Session γ) (id : String) : Bool × Session γ :=
  match s.handle? id with
  | some (.cursor cursor) =>
    let (cursor, collection) := s.store.collection.close cursor
    (true, (s.setStore { s.store with collection }).put id (.cursor cursor))
  | _ => (false, s)

def stream? (s : Session γ) (id : String) : Option ResultStream :=
  match s.handle? id with
  | some (.stream stream) => some stream
  | _ => none

end Session
end DerivedQuery
