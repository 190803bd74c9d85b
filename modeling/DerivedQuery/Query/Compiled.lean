import DerivedQuery.Query.Slots
import DerivedQuery.Query.Specification
import DerivedQuery.Query.Template

/-!
This module contains declared methods that were checked against a schema, and the binding of
arguments to them.
-/

namespace DerivedQuery

inductive QuerySource where
  | derived (tree : PartTree) (slots : List (List Nat))
  | explicit (template : Template) (limit : Option Nat)
deriving DecidableEq, Repr

structure CompiledQuery where
  signature : Signature
  shape : ResultShape
  source : QuerySource
  projection : Option (List String)
  sortParameter : Option Nat
  pageParameter : Option Nat
  schema : EntitySchema
deriving DecidableEq

namespace CompiledQuery

/-! ### Compilation -/

def special (sig : Signature) (kind : ParameterKind) : Except QueryError (Option Nat) :=
  if 1 < sig.params.count kind then .error (.clauseMismatch sig.name (.repeatedSpecial kind))
  else .ok (sig.params.findIdx? (· == kind))

def projectedField (sig : Signature) (s : EntitySchema) (field : String) :
    Except QueryError String := do
  let path ←
    if field.toList.contains '.' then PropertyPath.resolveDotted s field sig.name
    else PropertyPath.resolve s field.toList sig.name
  return path.dotted

def resolveProjection (sig : Signature) (s : EntitySchema) :
    Except QueryError (Option (List String)) :=
  match sig.projection with
  | none => .ok none
  | some fields =>
    if maxProjectionFields < fields.length then
      .error (.clauseMismatch sig.name (.projectionLength fields.length))
    else do return some (← fields.mapM (projectedField sig s))

/--
What the name of a method with an explicit query asks for.
-/
def kindOfName (name : List Char) : QueryKind :=
  if (PartTree.afterVerb? "count" name).isSome then .count
  else if (PartTree.afterVerb? "exists" name).isSome then .exists_
  else .find

def impliedShape : QueryKind → ResultShape
  | .find => .list
  | .count => .count
  | .exists_ => .exists_

def shapeFits (kind : QueryKind) (shape : ResultShape) : Bool :=
  match kind with
  | .find => shape != .count && shape != .exists_
  | .count | .exists_ => shape == impliedShape kind

/--
The declared result, which the kind of the name has to allow, or else the one that the kind implies.
-/
def resultShape (sig : Signature) (kind : QueryKind) : Except QueryError ResultShape :=
  match sig.returns with
  | none => .ok (impliedShape kind)
  | some shape =>
    if shapeFits kind shape then .ok shape
    else .error (.clauseMismatch sig.name (.declaredShape shape kind))

def nearSlot? : List Clause → List (List Nat) → Option (List Nat)
  | clause :: clauses, slot :: slots =>
    if clause.operator = .near then some slot else nearSlot? clauses slots
  | _, _ => none

/--
There is at most one search near a point, it has to hold, and it has a distance if the result is
ranked.
-/
def checkRanking (sig : Signature) (t : PartTree) (slots : List (List Nat)) (shape : ResultShape) :
    Except QueryError Unit :=
  let nears := (t.clauses.filter fun clause => clause.operator == .near).length
  if 1 < nears then .error (.ranking sig.name (.severalNears nears))
  else if nears ≠ 0 ∧ 1 < t.groups.length then .error (.ranking sig.name .nearWithOr)
  else if shape.isDistanceRanked ∧ ((nearSlot? t.clauses slots).map List.length) ≠ some 2 then
    .error (.ranking sig.name (.noDistance shape))
  else .ok ()

/--
The limit that the name of a method with an explicit query sets, if the name can be read.
-/
def limitOfName (sig : Signature) (s : EntitySchema) : Option Nat :=
  match PartTree.read sig.name s with
  | .ok t => t.limit
  | .error _ => none

def compileExplicit (sig : Signature) (s : EntitySchema) (query : String) :
    Except QueryError (Template × QuerySource × ResultShape) := do
  let template ← Template.compile sig.name query sig.fields sig.valueIndices.length
  let shape ← resultShape sig (kindOfName sig.name.toList)
  if shape.isDistanceRanked then throw (.ranking sig.name .explicitQuery)
  return (template, .explicit template (limitOfName sig s), shape)

def compileDerived (sig : Signature) (s : EntitySchema) :
    Except QueryError (QuerySource × ResultShape) := do
  let t ← PartTree.read sig.name s
  if SortKeys.maxKeys < t.orderBy.length then
    throw (.malformedName sig.name (.sortKeys t.orderBy.length))
  let shape ← resultShape sig t.kind
  let slots ← Slots.bind sig t
  checkRanking sig t slots shape
  return (.derived t slots, shape)

def compile (sig : Signature) (s : EntitySchema) : Except QueryError CompiledQuery := do
  let sortParameter ← special sig .sort
  let pageParameter ← special sig .page
  let projection ← resolveProjection sig s
  let (source, shape, projection) ←
    match sig.query with
    | some query => do
      let (template, source, shape) ← compileExplicit sig s query
      pure (source, shape, template.fields.or projection)
    | none => do
      let (source, shape) ← compileDerived sig s
      pure (source, shape, projection)
  if shape.isPaged && pageParameter.isNone then
    throw (.clauseMismatch sig.name (.pageMissing shape))
  return {
    signature := sig
    shape := shape
    source := source
    projection := projection
    sortParameter := sortParameter
    pageParameter := pageParameter
    schema := s }

def partTree? (q : CompiledQuery) : Option PartTree :=
  match q.source with
  | .derived tree _ => some tree
  | .explicit .. => none

/-! ### Binding -/

def fitsAll : List Argument → List ParameterKind → Bool
  | [], [] => true
  | arg :: args, kind :: kinds => arg.fits kind && fitsAll args kinds
  | _, _ => false

def accepts (q : CompiledQuery) (args : List Argument) : Bool :=
  fitsAll args q.signature.params

def misfit? (start : Nat) : List Argument → List ParameterKind → Option ClauseFault
  | arg :: args, kind :: kinds =>
    if arg.fits kind then misfit? (start + 1) args kinds
    else some (.argumentKind start arg.kindName kind)
  | _, _ => none

def checkArguments (q : CompiledQuery) (args : List Argument) : Except QueryError Unit :=
  let sig := q.signature
  if args.length ≠ sig.params.length then
    .error (.parameterCount sig.name sig.params.length args.length)
  else
    match misfit? 0 args sig.params with
    | some fault => .error (.clauseMismatch sig.name fault)
    | none => .ok ()

def resolveSort (s : EntitySchema) (method : String) (keys : SortKeys) :
    Except QueryError SortKeys :=
  keys.mapM fun key =>
    if key.field = "_id" then .ok key
    else do return ⟨(← PropertyPath.resolveDotted s key.field method).dotted, key.direction⟩

def nonEmpty (keys : SortKeys) : Option SortKeys :=
  if keys.isEmpty then none else some keys

def sortArgument? (q : CompiledQuery) (args : List Argument) : Option SortKeys :=
  match q.sortParameter.bind (args[·]?) with
  | some (.sort keys) => nonEmpty keys
  | _ => none

def pageArgument? (q : CompiledQuery) (args : List Argument) : Option PageRequest :=
  match q.pageParameter.bind (args[·]?) with
  | some (.page p) => some p
  | _ => none

def valueArguments (q : CompiledQuery) (args : List Argument) : List Argument :=
  q.signature.valueIndices.filterMap (args[·]?)

structure BoundSource where
  predicate : Option Predicate
  filter : Filter
  sort : Option SortKeys
  limit : Option Nat

def bindSource (q : CompiledQuery) (args : List Argument) (maxInSet : Nat) :
    Except QueryError BoundSource :=
  match q.source with
  | .derived tree slots => do
    let predicate ← Predicate.build tree slots args maxInSet
    return ⟨predicate, predicate.elim .all Predicate.toFilter, tree.sort?, tree.limit⟩
  | .explicit template limit => do
    let filter ← template.render q.signature.name (q.valueArguments args)
    return ⟨none, filter, none, limit⟩

/--
Bind arguments. A sort argument goes before the sort of the page, and both before the name.
-/
def bind (q : CompiledQuery) (args : List Argument) (maxInSet : Nat) :
    Except QueryError Specification := do
  let method := q.signature.name
  q.checkArguments args
  let page := q.pageArgument? args
  let pageSort := (page.bind (·.sort)).bind nonEmpty
  let source ← q.bindSource args maxInSet
  let sort ←
    match (q.sortArgument? args).or pageSort with
    | some keys => do
      let keys ← resolveSort q.schema method keys
      pure (some keys)
    | none => pure source.sort
  if SortKeys.maxKeys < (sort.elim 0 List.length) then
    throw (.clauseMismatch method (.sortLength SortKeys.maxKeys))
  return {
    method := method
    shape := q.shape
    predicate := source.predicate
    filter := source.filter
    sort := sort
    page := page
    limit := source.limit
    projection := q.projection
    near := source.predicate.bind Predicate.near? }

/-! ### Description -/

def clauseJson (clause : Clause) (slot : List Nat) : Json :=
  .ofFields [("path", .string clause.path.dotted), ("operator", .string clause.operator.name),
    ("ignore_case", .bool clause.ignoreCase), ("params", .array (slot.map .ofNat))]

def sourceFields : QuerySource → List (String × Json)
  | .derived tree slots =>
    [("kind", .string tree.kind.name), ("limit", .ofOption .ofNat tree.limit),
     ("or_groups", .array (tree.groups.map fun group => .ofNat group.length)),
     ("clauses", .array (List.zipWith clauseJson tree.clauses slots)),
     ("order_by", .ofOption SortKeys.toJson tree.sort?)]
  | .explicit template _ => [("query", .string template.query)]

def describe (q : CompiledQuery) : Json :=
  .ofFields ([("signature", .string q.signature.text), ("shape", .string q.shape.name),
    ("projection", .ofOption .strings q.projection)] ++ sourceFields q.source)

end CompiledQuery
end DerivedQuery
