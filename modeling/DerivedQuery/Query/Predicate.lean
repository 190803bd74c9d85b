import DerivedQuery.Filter.Evaluation
import DerivedQuery.Method.Argument
import DerivedQuery.Method.PartTree
import DerivedQuery.Query.Like

/-!
This module contains clauses with their arguments, the check that the two go together, and the
filters that they stand for.
-/

namespace DerivedQuery

structure Criterion where
  path : PropertyPath
  operator : Operator
  ignoreCase : Bool
  values : List Argument

/--
A value that a property of the type can hold. Every property can hold `null`.
-/
def ScalarType.admits : ScalarType → Value → Bool
  | .any, _ => true
  | _, .null => true
  | .string, .string _ => true
  | .number, .int32 _ | .number, .int64 _ | .number, .double _ | .number, .decimal _ => true
  | .boolean, .bool _ => true
  | .date, .date _ | .date, .timestamp _ _ => true
  | _, _ => false

namespace Criterion

def value? (c : Criterion) (i : Nat) : Option Value :=
  c.values[i]?.bind Argument.value?

def text? (c : Criterion) : Option String :=
  (c.value? 0).bind Value.string?

/-! ### Checks -/

def admits (c : Criterion) (v : Value) : Bool :=
  match c.path.scalarType? with
  | none => true
  | some type => type.admits v

def checkPair (c : Criterion) : Except ClauseFault Unit :=
  match c.value? 0, c.value? 1 with
  | some low, some high =>
    if low.isNull || high.isNull || (low.compare? high).isNone then
      .error (.notComparable c.operator c.path.dotted low high)
    else
      match c.path.scalarType? with
      | some type =>
        if type.admits low && type.admits high then .ok ()
        else .error (.boundsType c.operator c.path.dotted type)
      | none => .ok ()
  | _, _ => .error (.pairNeeded c.operator c.path.dotted)

def checkSequence (c : Criterion) (maxInSet : Nat) : Except ClauseFault Unit :=
  match c.value? 0 with
  | some (.array items) =>
    if maxInSet < items.length then
      .error (.sequenceLength c.operator c.path.dotted items.length maxInSet)
    else .ok ()
  | _ => .error (.sequenceNeeded c.operator c.path.dotted)

/--
The operator matches text, not the elements of a collection.
-/
def matchesText (c : Criterion) : Bool :=
  c.operator.isPattern && !c.path.isCollection

def isOrdered : Value → Bool
  | .null | .array _ | .document _ => false
  | _ => true

def checkText (c : Criterion) (v : Value) : Except ClauseFault Unit :=
  match v with
  | .string s =>
    if c.operator = .regex ∧ ¬ Pattern.isValid s then .error (.invalidPattern c.path.dotted)
    else .ok ()
  | v => .error (.textNeeded c.operator c.path.dotted v)

def checkType (c : Criterion) (v : Value) : Except ClauseFault Unit :=
  match c.path.scalarType? with
  | some type =>
    if type.admits v then .ok () else .error (.valueType c.operator c.path.dotted v type)
  | none => .ok ()

def checkSingle (c : Criterion) : Except ClauseFault Unit :=
  match c.value? 0 with
  | none => .error (.valueNeeded c.operator c.path.dotted)
  | some v =>
    if c.matchesText then c.checkText v
    else if c.operator.isRange && !isOrdered v then
      .error (.orderedNeeded c.operator c.path.dotted v)
    else c.checkType v

def nearShape? : List Argument → Option Shape
  | [.point center] => some (.near center none)
  | [.point center, .distance d] => some (.near center (some d))
  | _ => none

def areaShape? : List Argument → Option Shape
  | [.shape (.near ..)] => none
  | [.shape s] => some s
  | _ => none

def checkShape (method : String) (missing : ClauseFault) : Option Shape → Except QueryError Unit
  | none => .error (.clauseMismatch method missing)
  | some s => s.validate.mapError .geometry

def check (c : Criterion) (method : String) (maxInSet : Nat) : Except QueryError Unit :=
  match c.operator.operand with
  | .none => .ok ()
  | .pair => c.checkPair.mapError (.clauseMismatch method)
  | .sequence => (c.checkSequence maxInSet).mapError (.clauseMismatch method)
  | .single => c.checkSingle.mapError (.clauseMismatch method)
  | .point => checkShape method (.pointNeeded c.path.dotted) (nearShape? c.values)
  | .area => checkShape method (.areaNeeded c.path.dotted) (areaShape? c.values)

/-! ### Filters -/

def wholeText (s : String) : String :=
  "^" ++ Pattern.escape s ++ "$"

def items : Value → List Value
  | .array items => items
  | v => [v]

/--
What the filter of a criterion holds where the values of the criterion do not have what it needs: a
value, the shape of a search near a point, and the filter of an area.
-/
structure Fallback where
  value : Value
  shape : Shape
  filter : Filter

def Fallback.usual : Fallback where
  value := .null
  shape := .near ⟨Float.ofBits 0x7FF8000000000000, Float.ofBits 0x7FF8000000000000⟩ none
  filter := .not .all

def toFilterWith (fallback : Fallback) (c : Criterion) : Filter :=
  let path := c.path.dotted
  let first := (c.value? 0).getD fallback.value
  let text := c.text?.getD ""
  let escaped := (c.text?.map Pattern.escape).getD ""
  let pattern (s : String) : Filter := .pattern path s c.ignoreCase
  match c.operator with
  | .equals =>
    match c.text?, c.ignoreCase with
    | some s, true => pattern (wholeText s)
    | _, _ => .compare path .eq first
  | .notEquals =>
    match c.text?, c.ignoreCase with
    | some s, true => .not (pattern (wholeText s))
    | _, _ => .compare path .ne first
  | .lessThan | .before => .compare path .lt first
  | .lessThanEqual => .compare path .lte first
  | .greaterThan | .after => .compare path .gt first
  | .greaterThanEqual => .compare path .gte first
  | .between =>
    .and [.compare path .gt first, .compare path .lt ((c.value? 1).getD fallback.value)]
  | .like => pattern (Like.toPattern text)
  | .notLike => .not (pattern (Like.toPattern text))
  | .startingWith => pattern ("^" ++ escaped)
  | .endingWith => pattern (escaped ++ "$")
  | .containing => if c.path.isCollection then .compare path .eq first else pattern escaped
  | .notContaining =>
    if c.path.isCollection then .compare path .ne first else .not (pattern escaped)
  | .regex => pattern text
  | .in_ => .in_ path (items first)
  | .notIn => .notIn path (items first)
  | .isNull => .compare path .eq .null
  | .isNotNull => .compare path .ne .null
  | .exists_ => .exists_ path true
  | .true_ => .compare path .eq (.bool true)
  | .false_ => .compare path .eq (.bool false)
  | .near => .geo path ((nearShape? c.values).getD fallback.shape)
  | .within =>
    match c.values with
    | .shape s :: _ => .geo path s
    | _ => fallback.filter

def toFilter (c : Criterion) : Filter :=
  c.toFilterWith .usual

def ofClause (clause : Clause) (slot : List Nat) (args : List Argument) : Criterion where
  path := clause.path
  operator := clause.operator
  ignoreCase := clause.ignoreCase
  values := slot.filterMap fun i => args[i]?

end Criterion

/--
Criteria, joined as the groups of a method name join its clauses.
-/
inductive Predicate where
  | leaf (c : Criterion)
  | and (predicates : List Predicate)
  | or (predicates : List Predicate)

structure NearQuery where
  path : String
  center : Point
  maxDistance : Option Distance

namespace Predicate

def conjoin : List Predicate → Predicate
  | [p] => p
  | ps => .and ps

def disjoin : List Predicate → Predicate
  | [p] => p
  | ps => .or ps

def buildGroup (method : String) (args : List Argument) (maxInSet : Nat) :
    List Clause → List (List Nat) → Except QueryError (List Predicate × List (List Nat))
  | [], slots => .ok ([], slots)
  | _ :: _, [] => .error (.clauseMismatch method .unboundClause)
  | clause :: clauses, slot :: slots => do
    let c := Criterion.ofClause clause slot args
    c.check method maxInSet
    let (rest, slots) ← buildGroup method args maxInSet clauses slots
    return (.leaf c :: rest, slots)

def buildGroups (method : String) (args : List Argument) (maxInSet : Nat) :
    List (List Clause) → List (List Nat) → Except QueryError (List Predicate)
  | [], _ => .ok []
  | group :: groups, slots => do
    let (leaves, slots) ← buildGroup method args maxInSet group slots
    return conjoin leaves :: (← buildGroups method args maxInSet groups slots)

/--
The predicate of a method name with its arguments. A name without clauses has none.
-/
def build (t : PartTree) (slots : List (List Nat)) (args : List Argument) (maxInSet : Nat) :
    Except QueryError (Option Predicate) := do
  let groups ← buildGroups t.method args maxInSet t.groups slots
  return if groups.isEmpty then none else some (disjoin groups)

mutual

def toFilter : Predicate → Filter
  | .leaf c => c.toFilter
  | .and ps => Filter.conjoin (toFilters ps)
  | .or ps => Filter.disjoin (toFilters ps)

def toFilters : List Predicate → List Filter
  | [] => []
  | p :: ps => toFilter p :: toFilters ps

end

mutual

def criteria : Predicate → List Criterion
  | .leaf c => [c]
  | .and ps => criteriaOf ps
  | .or ps => criteriaOf ps

def criteriaOf : List Predicate → List Criterion
  | [] => []
  | p :: ps => criteria p ++ criteriaOf ps

end

def nearOf? (c : Criterion) : Option NearQuery :=
  match c.operator, c.values with
  | .near, .point center :: rest =>
    some ⟨c.path.dotted, center,
      match rest with
      | [.distance d] => some d
      | _ => none⟩
  | _, _ => none

def near? (p : Predicate) : Option NearQuery :=
  p.criteria.findSome? nearOf?

end Predicate
end DerivedQuery
