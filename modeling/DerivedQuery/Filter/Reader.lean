import DerivedQuery.Filter.Rendering
import DerivedQuery.Json.Reader

/-!
This module contains the reader of query documents, and the check of their operators that does not
look at operands.
-/

namespace DerivedQuery
namespace Filter

/-! ### Operands -/

def point (operator : String) (value : Value) : Except DocumentFault Point :=
  match Point.ofValue? value with
  | some p => .ok p
  | none => .error (.pointExpected operator)

def items (operator : String) : Value → Except DocumentFault (List Value)
  | .array values => .ok values
  | _ => .error (.listExpected operator)

/--
Whether an operand asks for existence. Only `null`, `false` and zero do not.
-/
def truth : Value → Bool
  | .bool b => b
  | .null => false
  | value =>
    match value.number? with
    | some x => x != 0.0
    | none => true

def circle? (d : Document) : Option (Value × Value) :=
  match d.get? "$center" with
  | some (.array [center, radius]) => some (center, radius)
  | _ => none

def corners? (d : Document) : Option (Value × Value) :=
  match d.get? "$box" with
  | some (.array [first, second]) => some (first, second)
  | _ => none

def vertices? (d : Document) : Option (List Value) :=
  match d.get? "$polygon" with
  | some (.array points) => some points
  | _ => none

def area : Value → Except DocumentFault Shape
  | .document d =>
    match circle? d, corners? d, vertices? d with
    | some (center, radius), _, _ => do
      let center ← point "$center" center
      match radius.number? with
      | some radius => return .circle center radius
      | none => throw .radiusExpected
    | none, some (first, second), _ => do
      return .box (← point "$box" first) (← point "$box" second)
    | none, none, some points => do return .polygon (← points.mapM (point "$polygon"))
    | none, none, none => .error .unknownShape
  | _ => .error .shapeExpected

structure FieldContext where
  ignoreCase : Bool
  maxDistance : Option Float

def FieldContext.of (d : Document) : FieldContext where
  ignoreCase :=
    match d.get? "$options" with
    | some (.string options) => options.toList.contains 'i'
    | _ => false
  maxDistance := (d.get? "$maxDistance").bind Value.number?

/--
The filters of an operator without conditions inside. The operators that only give context to others
have none.
-/
def operator (path : String) (context : FieldContext) (name : String) (value : Value) :
    Except DocumentFault (List Filter) :=
  match Comparison.ofSymbol? name with
  | some op => .ok [.compare path op value]
  | none =>
    match name with
    | "$in" => do return [.in_ path (← items name value)]
    | "$nin" => do return [.notIn path (← items name value)]
    | "$exists" => .ok [.exists_ path (truth value)]
    | "$regex" =>
      match value with
      | .string text => .ok [.pattern path text context.ignoreCase]
      | _ => .error .patternExpected
    | "$near" => do
      let center ← point name value
      return [.geo path (.near center (context.maxDistance.map fun d => ⟨d, .neutral⟩))]
    | "$nearSphere" => do
      let center ← point name value
      return [.geo path (.near center (context.maxDistance.map fun d =>
        ⟨d * Metric.kilometers.multiplier, .kilometers⟩))]
    | "$within" | "$geoWithin" => do return [.geo path (← area value)]
    | "$options" | "$maxDistance" => .ok []
    | _ => .error (.unknownOperator name)

/-! ### Documents -/

mutual

def ofField (path : String) : Value → Except DocumentFault Filter
  | .document d =>
    if Document.isOperators d then do
      return conjoin (← ofOperators path (FieldContext.of d) d)
    else .ok (.compare path .eq (.document d))
  | value => .ok (.compare path .eq value)

def ofOperators (path : String) (context : FieldContext) :
    List (String × Value) → Except DocumentFault (List Filter)
  | [] => .ok []
  | (name, value) :: rest => do
    let first ←
      if name = "$not" then do
        let inner ← ofField path value
        pure [.not inner]
      else operator path context name value
    return first ++ (← ofOperators path context rest)

end

mutual

def ofFields : List (String × Value) → Except DocumentFault (List Filter)
  | [] => .ok []
  | (key, value) :: fields => do
    let first ←
      match key with
      | "$and" => do pure (.and (← ofBranches key value))
      | "$or" => do pure (.or (← ofBranches key value))
      | "$nor" => do pure (.not (disjoin (← ofBranches key value)))
      | key =>
        if isOperatorName key then throw (.unknownOperator key) else ofField key value
    return first :: (← ofFields fields)

def ofBranches (key : String) : Value → Except DocumentFault (List Filter)
  | .array branches => ofBranchList key branches
  | _ => .error (.listExpected key)

def ofBranchList (key : String) : List Value → Except DocumentFault (List Filter)
  | [] => .ok []
  | .document d :: rest => do
    let first ← ofFields d
    return conjoin first :: (← ofBranchList key rest)
  | _ :: _ => .error (.documentsExpected key)

end

def ofDocument (d : Document) : Except DocumentFault Filter := do
  return conjoin (← ofFields d)

/-! ### Texts -/

def documentOfJson : Json → Except DocumentFault Document
  | .object fields =>
    match ExtendedJson.ofFields? fields with
    | some d => .ok d
    | none => .error .value
  | j => .error (.notAnObject j.text)

def documentOfText (s : String) : Except QueryTextFault Document :=
  match Json.parse s with
  | .error e => .error (.notJson e.text)
  | .ok j => (documentOfJson j).mapError .document

def ofText (s : String) : Except QueryTextFault Filter := do
  let d ← documentOfText s
  (ofDocument d).mapError .document

/-! ### Operators alone -/

def fieldOperators : List String :=
  ["$eq", "$ne", "$gt", "$gte", "$lt", "$lte", "$in", "$nin", "$exists", "$regex", "$options",
   "$not", "$near", "$nearSphere", "$maxDistance", "$within", "$geoWithin"]

def shapeOperators : List String :=
  ["$center", "$box", "$polygon"]

/--
The operand of `$within` names known shapes only, if it is a document.
-/
def checkShape : Value → Except DocumentFault Unit
  | .document d =>
    match d.find? fun (key, _) => !shapeOperators.contains key with
    | some (key, _) => .error (.unknownOperator key)
    | none => .ok ()
  | _ => .ok ()

mutual

def checkField : Value → Except DocumentFault Unit
  | .document d => if Document.isOperators d then checkOperators d else .ok ()
  | _ => .ok ()

def checkOperators : List (String × Value) → Except DocumentFault Unit
  | [] => .ok ()
  | (name, value) :: rest => do
    if !fieldOperators.contains name then throw (.unknownOperator name)
    if name = "$not" then checkField value
    else if name = "$within" || name = "$geoWithin" then checkShape value
    checkOperators rest

end

mutual

/--
Every operator of a query document is known. A place for values yet to come holds `null`.
-/
def check : List (String × Value) → Except DocumentFault Unit
  | [] => .ok ()
  | (key, value) :: fields => do
    if key = "$and" || key = "$or" || key = "$nor" then checkBranches key value
    else if isOperatorName key then throw (.unknownOperator key)
    else checkField value
    check fields

def checkBranches (key : String) : Value → Except DocumentFault Unit
  | .array branches => checkBranchList key branches
  | .null => .ok ()
  | _ => .error (.listExpected key)

def checkBranchList (key : String) : List Value → Except DocumentFault Unit
  | [] => .ok ()
  | .document d :: rest => do
    check d
    checkBranchList key rest
  | .null :: rest => checkBranchList key rest
  | _ :: _ => .error (.documentsExpected key)

end

end Filter
end DerivedQuery
