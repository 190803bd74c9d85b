import DerivedQuery.Schema.Declaration

/-!
This module contains the declarations of query methods: the name, the kinds of the parameters, and
what is asked for beyond the name.
-/

namespace DerivedQuery

inductive ParameterKind where
  | value
  | sequence
  | point
  | distance
  | circle
  | box
  | polygon
  | sort
  | page
deriving DecidableEq, Repr

namespace ParameterKind

def all : List ParameterKind :=
  [.value, .sequence, .point, .distance, .circle, .box, .polygon, .sort, .page]

def name : ParameterKind → String
  | .value => "Value"
  | .sequence => "Sequence"
  | .point => "Point"
  | .distance => "Distance"
  | .circle => "Circle"
  | .box => "Box"
  | .polygon => "Polygon"
  | .sort => "Sort"
  | .page => "Page"

def code : ParameterKind → String
  | .value => "value"
  | .sequence => "sequence"
  | .point => "point"
  | .distance => "distance"
  | .circle => "circle"
  | .box => "box"
  | .polygon => "polygon"
  | .sort => "sort"
  | .page => "page"

def isSpecial : ParameterKind → Bool
  | .sort | .page => true
  | _ => false

def isArea : ParameterKind → Bool
  | .circle | .box | .polygon => true
  | _ => false

def codes : List (String × ParameterKind) :=
  all.map fun kind => (kind.code, kind)

end ParameterKind

inductive ResultShape where
  | list
  | one
  | count
  | exists_
  | page
  | geoResults
  | geoPage
deriving DecidableEq, Repr

namespace ResultShape

def all : List ResultShape :=
  [.list, .one, .count, .exists_, .page, .geoResults, .geoPage]

def name : ResultShape → String
  | .list => "List"
  | .one => "One"
  | .count => "Count"
  | .exists_ => "Exists"
  | .page => "Page"
  | .geoResults => "GeoResults"
  | .geoPage => "GeoPage"

def code : ResultShape → String
  | .list => "list"
  | .one => "one"
  | .count => "count"
  | .exists_ => "exists"
  | .page => "page"
  | .geoResults => "geo_results"
  | .geoPage => "geo_page"

def isPaged : ResultShape → Bool
  | .page | .geoPage => true
  | _ => false

def isDistanceRanked : ResultShape → Bool
  | .geoResults | .geoPage => true
  | _ => false

def codes : List (String × ResultShape) :=
  all.map fun shape => (shape.code, shape)

end ResultShape

/--
A declared query method. An explicit query replaces the predicate that the name spells.
-/
structure Signature where
  entity : String := ""
  name : String
  params : List ParameterKind := []
  returns : Option ResultShape := none
  projection : Option (List String) := none
  query : Option String := none
  fields : Option String := none
deriving DecidableEq, Repr

namespace Signature

def forEntity (sig : Signature) (entity : String) : Signature :=
  { sig with entity := entity }

def valueIndicesFrom (start : Nat) : List ParameterKind → List Nat
  | [] => []
  | kind :: kinds =>
    if kind.isSpecial then valueIndicesFrom (start + 1) kinds
    else start :: valueIndicesFrom (start + 1) kinds

def valueIndices (sig : Signature) : List Nat :=
  valueIndicesFrom 0 sig.params

def text (sig : Signature) : String :=
  (if sig.entity.isEmpty then "?" else sig.entity) ++ "::" ++ sig.name ++ "(" ++
    ", ".intercalate (sig.params.map ParameterKind.name) ++ ")" ++
    (match sig.returns with
      | none => ""
      | some shape => " -> " ++ shape.name)

/--
The signature that a tree declares. Only the name has to be there.
-/
def ofJson? (j : Json) : Option Signature :=
  match j.record? ["entity", "name", "params", "returns", "projection", "query", "fields"] with
  | some [entity, some (.string name), params, returns, projection, query, fields] => do
    return {
      entity := ← entity.elim (some "") Json.string?
      name := name
      params := ← params.elim (some []) (Json.list? (Json.choice? ParameterKind.codes))
      returns := ← Json.optional? (Json.choice? ResultShape.codes) returns
      projection := ← Json.optional? (Json.list? Json.string?) projection
      query := ← Json.optional? Json.string? query
      fields := ← Json.optional? Json.string? fields }
  | _ => none

end Signature
end DerivedQuery
