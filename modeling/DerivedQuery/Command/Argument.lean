import DerivedQuery.Json.Printer
import DerivedQuery.Json.Reader
import DerivedQuery.Query.Compiled
import DerivedQuery.Value.ExtendedJson

/-!
This module contains the arguments of methods as they are written on a command line: a JSON list
with one item for each parameter, but none for sort and page parameters.
-/

namespace DerivedQuery
namespace Argument

def pointOfJson? : Json → Option Point
  | .array [x, y] => do return ⟨← x.float?, ← y.float?⟩
  | _ => none

def ofJson? (kind : ParameterKind) (j : Json) : Option Argument :=
  match kind, j with
  | .value, j | .sequence, j => (ExtendedJson.ofJson? j).map .value
  | .point, j => (pointOfJson? j).map .point
  | .distance, j => j.float?.map fun value => .distance ⟨value, .neutral⟩
  | .circle, .array [center, radius] => do
    return .shape (.circle (← pointOfJson? center) (← radius.float?))
  | .box, .array [a, b] => do return .shape (.box (← pointOfJson? a) (← pointOfJson? b))
  | .polygon, .array points => do return .shape (.polygon (← points.mapM pointOfJson?))
  | _, _ => none

def ofItem (kind : ParameterKind) (j : Json) : Except QueryError Argument :=
  match ofJson? kind j with
  | some arg => .ok arg
  | none => .error (.settings (.argument j.text kind))

def firstPage : PageRequest where
  page := 0
  size := 20
  size_pos := by decide

def ofItems : List ParameterKind → List Json → Except QueryError (List Argument)
  | [], _ => .ok []
  | .sort :: kinds, items => do return .sort [] :: (← ofItems kinds items)
  | .page :: kinds, items => do return .page firstPage :: (← ofItems kinds items)
  | kind :: _, [] => .error (.settings (.missingArgument kind))
  | kind :: kinds, item :: items => do
    let arg ← ofItem kind item
    return arg :: (← ofItems kinds items)

def readAll (kinds : List ParameterKind) (text : String) : Except QueryError (List Argument) :=
  match Json.parse text with
  | .ok (.array items) => ofItems kinds items
  | .ok _ => .error (.notJson "")
  | .error e => .error (.notJson e.text)

end Argument
end DerivedQuery
