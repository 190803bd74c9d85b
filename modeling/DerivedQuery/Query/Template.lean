import DerivedQuery.Filter.Reader
import DerivedQuery.Json.Quotes
import DerivedQuery.Method.Argument

/-!
This module contains query texts with places for values. A place is a question mark with the number
of a parameter.
-/

namespace DerivedQuery

inductive TemplatePart where
  | char (c : Char)
  | place (digits : List Char)
deriving DecidableEq, Repr

namespace TemplatePart

/--
The parts of a text, whose first `skipped` characters belong to a place.
-/
def scan : (skipped : Nat) → List Char → List TemplatePart
  | _, [] => []
  | skipped + 1, _ :: cs => scan skipped cs
  | 0, c :: cs =>
    let digits := cs.takeWhile Text.isDecimalDigit
    if c = '?' ∧ ¬ digits.isEmpty then .place digits :: scan digits.length cs
    else .char c :: scan 0 cs

/--
The number of a place, if its digits spell one of at most 64 bits.
-/
def index? : TemplatePart → Option Nat
  | .char _ => none
  | .place digits =>
    if digits.all Char.isDigit && Text.natOfDigits digits ≤ maxCount then
      some (Text.natOfDigits digits)
    else none

/--
The text of a part, where `value` fills the places of its numbers. Any other place is `null`.
-/
def fill (value : Nat → Option String) (part : TemplatePart) : List Char :=
  match part with
  | .char c => [c]
  | .place _ => ((part.index?.bind value).getD "null").toList

end TemplatePart

structure Template where
  query : String
  fields : Option (List String)
deriving DecidableEq, Repr

namespace Template

def parts (query : String) : List TemplatePart :=
  TemplatePart.scan 0 query.toList

def fill (query : String) (value : Nat → Option String) : String :=
  String.ofList ((parts query).flatMap (TemplatePart.fill value))

def indices (query : String) : List Nat :=
  (parts query).filterMap TemplatePart.index?

def checkQuery (query : String) : Except QueryTextFault Unit := do
  let d ← Filter.documentOfText (fill query fun _ => some "null")
  (Filter.check d).mapError .document

/-! ### Fields -/

def selects : Value → Bool
  | .bool b => b
  | .int32 i => i != 0
  | .int64 i => i != 0
  | .double x => x != 0.0
  | _ => false

def readFields (text : String) : Except NameFault (List String) := do
  let j ← (Json.parse (Quotes.normalize text)).mapError fun e => .fieldsNotJson e.text
  let d ← (Filter.documentOfJson j).mapError .fieldsDocument
  let selected := ((d.filter fun (_, value) => selects value).map Prod.fst).take maxProjectionFields
  if selected.isEmpty then throw .noFields
  return selected

/-! ### Templates -/

/--
The number of parameters that a place with the greatest number asks for, counted in 64 bits.
-/
def parametersFor (greatest : Nat) : Nat :=
  (greatest + 1) % (maxCount + 1)

def compile (method query : String) (fields : Option String) (count : Nat) :
    Except QueryError Template := do
  let query := Quotes.normalize query
  if let some greatest := (indices query).max? then
    if count ≤ greatest then throw (.parameterCount method (parametersFor greatest) count)
  (checkQuery query).mapError fun fault => .malformedName method (.queryTemplate fault)
  let fields ←
    match fields with
    | none => pure none
    | some text => do
      let selected ← (readFields text).mapError (.malformedName method)
      pure (some selected)
  return ⟨query, fields⟩

def argumentText? : Argument → Option String
  | .value v => some (ExtendedJson.text v)
  | .point p => some (ExtendedJson.text p.toValue)
  | _ => none

def fault? (args : List Argument) (i : Nat) : Option ClauseFault :=
  match args[i]? with
  | none => some (.placeholderMissing i)
  | some arg =>
    match argumentText? arg with
    | some _ => none
    | none => some (.placeholderKind i arg.kindName)

/--
The query with arguments in its places. If several arguments are wrong, the last one is reported.
-/
def render (t : Template) (method : String) (args : List Argument) : Except QueryError Filter :=
  match ((indices t.query).filterMap (fault? args)).getLast? with
  | some fault => .error (.clauseMismatch method fault)
  | none =>
    (Filter.ofText (fill t.query fun i => args[i]?.bind argumentText?)).mapError fun fault =>
      .clauseMismatch method (.boundQuery fault)

end Template
end DerivedQuery
