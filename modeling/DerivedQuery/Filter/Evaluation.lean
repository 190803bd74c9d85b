import DerivedQuery.Filter.Basic
import DerivedQuery.Filter.Lookup
import DerivedQuery.Pattern.Meaning
import DerivedQuery.Query.Options
import DerivedQuery.Value.Order

/-!
This module contains when a document meets a filter, how documents are ordered by sort keys, and
what is left of them by a projection.
-/

namespace DerivedQuery

namespace Filter

/--
The document holds the value at the path, as such or in an array. A document without the path holds
`null` there.
-/
def equalsAt (d : Document) (path : String) (value : Value) : Bool :=
  match d.lookup path with
  | [] => value.isNull
  | found =>
    found.any fun v =>
      v.equal value ||
        match v with
        | .array items => items.any fun item => item.equal value
        | _ => false

def equalsAnyAt (d : Document) (path : String) (values : List Value) : Bool :=
  values.any fun value => equalsAt d path value

def orderHolds (op : Comparison) (found : Ordering) : Bool :=
  match op with
  | .gt => found == .gt
  | .gte => found != .lt
  | .lt => found == .lt
  | .lte => found != .gt
  | .eq | .ne => false

def ordersAt (d : Document) (path : String) (op : Comparison) (value : Value) : Bool :=
  (d.candidates path).any fun v => (v.compare? value).any (orderHolds op)

/--
Some text at the path contains a match. A text that is no pattern matches nothing.
-/
def matchesAt (d : Document) (path text : String) (ignoreCase : Bool) : Bool :=
  match Pattern.ofText? ignoreCase text with
  | none => false
  | some p => (d.candidates path).any fun v => v.string?.any fun s => p.findIn s.toList

mutual

def eval (d : Document) : Filter → Bool
  | .all => true
  | .and filters => evalAll d filters
  | .or filters => evalAny d filters
  | .not filter => !eval d filter
  | .exists_ path expected => !(d.lookup path).isEmpty == expected
  | .in_ path values => equalsAnyAt d path values
  | .notIn path values => !equalsAnyAt d path values
  | .compare path .eq value => equalsAt d path value
  | .compare path .ne value => !equalsAt d path value
  | .compare path op value => ordersAt d path op value
  | .pattern path text ignoreCase => matchesAt d path text ignoreCase
  | .geo path shape => (d.points path).any shape.contains

def evalAll (d : Document) : List Filter → Bool
  | [] => true
  | f :: fs => eval d f && evalAll d fs

def evalAny (d : Document) : List Filter → Bool
  | [] => false
  | f :: fs => eval d f || evalAny d fs

end

end Filter

namespace Document

/--
The order of two documents by the first value at a path. A document without one comes first.
-/
def compareAt (path : String) (a b : Document) : Ordering :=
  match (a.lookup path).head?, (b.lookup path).head? with
  | some x, some y => x.compare y
  | some _, none => .gt
  | none, some _ => .lt
  | none, none => .eq

def compareByKeys (a b : Document) : SortKeys → Ordering
  | [] => .eq
  | key :: keys =>
    match compareAt key.field a b with
    | .eq => compareByKeys a b keys
    | order =>
      match key.direction with
      | .asc => order
      | .desc => order.swap

def compareBy (sort : SortKeys) (a b : Document) : Ordering :=
  compareByKeys a b (sort.take SortKeys.maxKeys)

def copyPath (source target : Document) (path : String) : Document :=
  match (source.lookup path).head? with
  | none => target
  | some value => target.insertAt (Text.split '.' path) value

/--
What is left of a document: the field `_id` and the values at the given paths.
-/
def project (d : Document) (fields : List String) : Document :=
  let start : Document :=
    match d.get? "_id" with
    | some id => [("_id", id)]
    | none => []
  (fields.take maxProjectionFields).foldl (copyPath d) start

end Document
end DerivedQuery
