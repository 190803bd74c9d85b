import DerivedQuery.Query.Predicate

/-!
This module contains what one call asks of a collection.
-/

namespace DerivedQuery

structure Specification where
  method : String
  shape : ResultShape
  predicate : Option Predicate
  filter : Filter
  sort : Option SortKeys
  page : Option PageRequest
  /-- The limit that the subject of the name sets. -/
  limit : Option Nat
  projection : Option (List String)
  near : Option NearQuery

namespace Specification

def unfiltered (method : String) (shape : ResultShape) (sort : Option SortKeys) :
    Specification where
  method := method
  shape := shape
  predicate := none
  filter := .all
  sort := sort.filter fun keys => !keys.isEmpty
  page := none
  limit := none
  projection := none
  near := none

def pageSize (spec : Specification) (p : PageRequest) : Nat :=
  match spec.limit with
  | none => p.size
  | some limit => min limit p.size

def findOptions (spec : Specification) : FindOptions where
  projection := spec.projection
  sort := spec.sort
  limit :=
    match spec.page with
    | some p => some (spec.pageSize p)
    | none => spec.limit
  skip := spec.page.map PageRequest.offset

end Specification
end DerivedQuery
