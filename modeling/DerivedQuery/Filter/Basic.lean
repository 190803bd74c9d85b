import DerivedQuery.Geo.Shape

/-!
This module contains the conditions that documents are searched by.
-/

namespace DerivedQuery

inductive Comparison where
  | eq
  | ne
  | gt
  | gte
  | lt
  | lte
deriving DecidableEq, Repr

namespace Comparison

def all : List Comparison :=
  [.eq, .ne, .gt, .gte, .lt, .lte]

def symbol : Comparison → String
  | .eq => "$eq"
  | .ne => "$ne"
  | .gt => "$gt"
  | .gte => "$gte"
  | .lt => "$lt"
  | .lte => "$lte"

def ofSymbol? (s : String) : Option Comparison :=
  all.find? fun c => c.symbol == s

end Comparison

inductive Filter where
  | all
  | and (filters : List Filter)
  | or (filters : List Filter)
  | not (filter : Filter)
  | exists_ (path : String) (expected : Bool)
  | in_ (path : String) (values : List Value)
  | notIn (path : String) (values : List Value)
  | compare (path : String) (op : Comparison) (value : Value)
  | pattern (path text : String) (ignoreCase : Bool)
  | geo (path : String) (shape : Shape)
deriving Inhabited

namespace Filter

/--
The conjunction of some filters. One filter stands for itself.
-/
def conjoin : List Filter → Filter
  | [] => .all
  | [f] => f
  | fs => .and fs

/--
The disjunction of some filters. One filter stands for itself, and none is no condition.
-/
def disjoin : List Filter → Filter
  | [] => .all
  | [f] => f
  | fs => .or fs

mutual

/--
The first search near a point, in a place where it has to hold: its path, the point and the greatest
distance.
-/
def nearClause? : Filter → Option (String × Point × Option Distance)
  | .geo path (.near center maxDistance) => some (path, center, maxDistance)
  | .and filters => nearClauseIn? filters
  | _ => none

def nearClauseIn? : List Filter → Option (String × Point × Option Distance)
  | [] => none
  | f :: fs => (nearClause? f).or (nearClauseIn? fs)

end

end Filter
end DerivedQuery
