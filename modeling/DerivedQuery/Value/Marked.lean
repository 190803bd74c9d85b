import DerivedQuery.Value.ExtendedJson

/-!
This module contains the reading of stored documents in which fields are named like the markers of
extended JSON. A marked document stands for a value of another kind, whatever other fields it has.
-/

namespace DerivedQuery
namespace Marked

def marker? (key : String) : Option ExtendedJson.Marker :=
  ExtendedJson.markers.lookup key

mutual

def value? : Value → Option Value
  | .array items => (items? items).map .array
  | .document fields => fields? [] fields
  | .scopedCode text scope => do
    match ← fields? [] scope with
    | .document scope => some (.scopedCode text scope)
    | _ => none
  | v => some v

def items? : List Value → Option (List Value)
  | [] => some []
  | item :: items => do return (← value? item) :: (← items? items)

/--
What fields stand for, behind those that are read already. The first marker decides.
-/
def fields? (before : Document) : List (String × Value) → Option Value
  | [] => some (.document before)
  | [("$code", .string text)] => some (.code text)
  | ("$code", .string text) :: ("$scope", .document scope) :: _
  | ("$scope", .document scope) :: ("$code", .string text) :: _ => do
    match ← fields? [] scope with
    | .document scope => some (.scopedCode text scope)
    | _ => none
  | (key, value) :: fields =>
    if key = "$code" ∨ key = "$scope" then none
    else
      match marker? key with
      | some marker => ExtendedJson.payload? marker (ExtendedJson.toJson value)
      | none => do fields? (before.insert key (← value? value)) fields

end

def document? (d : Document) : Option Document := do
  match ← fields? [] d with
  | .document d => some d
  | _ => none

end Marked
end DerivedQuery
