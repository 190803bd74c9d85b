import DerivedQuery.Geo.Shape
import DerivedQuery.Query.Options

/-!
This module contains the arguments of method calls, and which parameters they fit.
-/

namespace DerivedQuery

inductive Argument where
  | value (v : Value)
  | point (p : Point)
  | distance (d : Distance)
  | shape (s : Shape)
  | sort (keys : SortKeys)
  | page (request : PageRequest)

namespace Argument

def kindName : Argument → String
  | .value v => if v.isArray then "Sequence" else "Value"
  | .point _ => "Point"
  | .distance _ => "Distance"
  | .shape s => s.name
  | .sort _ => "Sort"
  | .page _ => "Page"

def fits : Argument → ParameterKind → Bool
  | .value v, .sequence => v.isArray
  | .value _, .value => true
  | .point _, .point => true
  | .distance _, .distance => true
  | .shape (.circle ..), .circle => true
  | .shape (.box ..), .box => true
  | .shape (.polygon ..), .polygon => true
  | .sort _, .sort => true
  | .page _, .page => true
  | _, _ => false

def value? : Argument → Option Value
  | .value v => some v
  | _ => none

end Argument
end DerivedQuery
