import DerivedQuery.Filter.Evaluation
import DerivedQuery.Order.InsertionSort
import DerivedQuery.Store.Cursor

/-!
This module contains collections of documents in memory: what a search selects, the cursors that it
hands out, and the failures that a collection was told to report.
-/

namespace DerivedQuery

inductive IndexKind where
  | ascending
  | geo2d
deriving DecidableEq, Repr

def IndexKind.name : IndexKind → String
  | .ascending => "Ascending"
  | .geo2d => "Geo2d"

structure Index where
  field : String
  kind : IndexKind
deriving DecidableEq, Repr

namespace Document

def smallest? : List Float → Option Float
  | [] => none
  | d :: ds =>
    match smallest? ds with
    | none => some d
    | some e => if Float64.totalCompare e d == .lt then some e else some d

def nearestDistance? (d : Document) (path : String) (center : Point) (metric : Metric) :
    Option Float :=
  smallest? ((d.points path).map fun p => Distance.between center p metric)

/--
The distance of the nearest point at a path. Without a point there, it is infinite.
-/
def distanceFrom (d : Document) (path : String) (center : Point) (metric : Metric) : Float :=
  (d.nearestDistance? path center metric).getD (Float.ofBits 0x7FF0000000000000)

end Document

/--
Documents in the order in which they were inserted.
-/
structure Collection where
  name : String
  documents : List Document := []
  indexes : List Index := []
  /-- The number of cursors that were handed out and not closed yet. -/
  openCursors : Nat := 0
  /-- What the next search or count reports. -/
  failure : Option Failure := none
  /-- The number of documents that were inserted without a name of their own. -/
  namedDocuments : Nat := 0

namespace Collection

/-! ### Contents -/

def generatedName (n : Nat) : Value :=
  .string ("uuid#" ++ toString n)

/--
Insert a document, with a name under `_id` if it has none, and answer the name.
-/
def insert (c : Collection) (d : Document) : Value × Collection :=
  match d.get? "_id" with
  | some id => (id, { c with documents := c.documents ++ [d] })
  | none =>
    let id := generatedName c.namedDocuments
    (id, { c with
      documents := c.documents ++ [d.insert "_id" id]
      namedDocuments := c.namedDocuments + 1 })

def insertAll (c : Collection) : List Document → List Value × Collection
  | [] => ([], c)
  | d :: ds =>
    let (id, c) := c.insert d
    let (ids, c) := insertAll c ds
    (id :: ids, c)

def ensureIndex (c : Collection) (index : Index) : Collection :=
  if index ∈ c.indexes then c else { c with indexes := c.indexes ++ [index] }

def failNext (c : Collection) (failure : Failure) : Collection :=
  { c with failure := some failure }

/-! ### Searches -/

def isMatch (filter : Filter) (d : Document) : Bool :=
  filter.eval d

def matching (c : Collection) (filter : Filter) : List Document :=
  c.documents.filter (isMatch filter)

/--
A distance is less than another one. A value that is not a number is the greatest, and the two zeros
are equal.
-/
def nearer (a b : Float) : Bool :=
  if b.isNaN then !a.isNaN else a < b

/--
The documents in the order of sort keys. This is what sorting answers if it answers: it may give up
on more than 20 documents that the keys do not compare by a total preorder.
-/
def sortedBy (sort : SortKeys) (documents : List Document) : List Document :=
  InsertionSort.sort (fun a b => Document.compareBy sort a b == .lt) documents

def sortedFrom (path : String) (center : Point) (metric : Metric) (documents : List Document) :
    List Document :=
  InsertionSort.sort
    (fun a b => nearer (a.distanceFrom path center metric) (b.distanceFrom path center metric))
    documents

def metricOf (maxDistance : Option Distance) : Metric :=
  maxDistance.elim .neutral Distance.metric

/--
The documents in the order of the sort keys, or else by distance if the filter is a search near a
point. Documents that are alike keep their order.
-/
def ordered (filter : Filter) (sort : Option SortKeys) (documents : List Document) :
    List Document :=
  match sort, filter.nearClause? with
  | some (key :: keys), _ => sortedBy (key :: keys) documents
  | _, some (path, center, maxDistance) => sortedFrom path center (metricOf maxDistance) documents
  | _, none => documents

def window (skip limit : Option Nat) (l : List α) : List α :=
  let rest := l.drop (skip.getD 0)
  match limit with
  | none => rest
  | some n => rest.take n

def projected (projection : Option (List String)) (documents : List Document) : List Document :=
  match projection with
  | none => documents
  | some fields => documents.map fun d => d.project fields

def select (c : Collection) (filter : Filter) (options : FindOptions) : List Document :=
  projected options.projection
    (window options.skip options.limit (ordered filter options.sort (c.matching filter)))

def withoutFailure (c : Collection) : Collection :=
  { c with failure := none }

def find (c : Collection) (filter : Filter) (options : FindOptions) :
    Except String Cursor × Collection :=
  match c.failure with
  | some (.call cause) => (.error cause, c.withoutFailure)
  | some (.afterDocuments count cause) =>
    (.ok { documents := c.select filter options, failure := some (count, cause) },
      { c.withoutFailure with openCursors := c.openCursors + 1 })
  | none =>
    (.ok { documents := c.select filter options }, { c with openCursors := c.openCursors + 1 })

/--
Take a cursor back. Closing it once more changes nothing.
-/
def close (c : Collection) (cursor : Cursor) : Cursor × Collection :=
  if cursor.isOpen then (cursor.closed, { c with openCursors := c.openCursors - 1 })
  else (cursor, c)

def count (c : Collection) (filter : Filter) : Except String Nat × Collection :=
  match c.failure with
  | some (.call cause) | some (.afterDocuments _ cause) => (.error cause, c.withoutFailure)
  | none => (.ok (c.matching filter).length, c)

end Collection
end DerivedQuery
