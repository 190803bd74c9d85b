import DerivedQuery.Method.Keyword
import DerivedQuery.Query.Options
import DerivedQuery.Schema.Path

/-!
This module contains the clauses of method names: a property, perhaps an operator, and perhaps that
case does not matter.
-/

namespace DerivedQuery

structure Clause where
  /-- The text that the clause is read from. -/
  source : List Char
  path : PropertyPath
  operator : Operator
  ignoreCase : Bool
deriving DecidableEq, Repr

namespace Clause

def ignoreCaseEndings : List String := ["IgnoringCase", "IgnoreCase"]

/--
The ways to take a clause apart into a property and an operator, the longest operator first. A
clause without an operator asks for equality.
-/
def readings (body : List Char) : List (List Char × Operator) :=
  (Operator.suffixes.filterMap fun (keyword, op) =>
    match Text.dropEnd? keyword body with
    | some property => if property.isEmpty then none else some (property, op)
    | none => none) ++ [(body, .equals)]

def firstReading? (s : EntitySchema) (method : String) :
    List (List Char × Operator) → Option (Except QueryError (PropertyPath × Operator))
  | [] => none
  | (property, op) :: readings =>
    match Resolution.of s property with
    | .found path => some (.ok (path, op))
    | .ambiguous candidates =>
      some (.error (.ambiguousProperty method (String.ofList property) candidates))
    | .missing => firstReading? s method readings

/--
The longest beginning of a clause, up to a capital letter, that is a property, and the rest.
-/
def longestProperty? (s : EntitySchema) (body : List Char) :
    Option (PropertyPath × List Char) :=
  (segmentCuts body).dropLast.reverse.findSome? fun (head, tail) =>
    match Resolution.of s head with
    | .found path => some (path, tail)
    | _ => none

/--
The error for a clause that has no reading. What stands behind a property is an unknown operator.
-/
def noReading (s : EntitySchema) (method : String) (body : List Char) : QueryError :=
  let unresolved := .unresolvedProperty method s.name (String.ofList body)
  match longestProperty? s body with
  | some (path, rest) =>
    if path.leaf = .embedded then unresolved
    else .unsupportedOperator method (String.ofList rest) (.unknown path.dotted)
  | none => unresolved

def resolve (s : EntitySchema) (method : String) (body : List Char) :
    Except QueryError (PropertyPath × Operator) :=
  match firstReading? s method (readings body) with
  | some result => result
  | none => .error (noReading s method body)

def supportsIgnoreCase (op : Operator) (path : PropertyPath) : Bool :=
  (path.isCollection || path.leaf == .scalar .string || path.leaf == .scalar .any) &&
    (op == .equals || op == .notEquals || op.isPattern)

/--
The ending of a clause by which it ignores case, if more than the ending is there.
-/
def takeIgnoreCase (fragment : List Char) : List Char × Option String :=
  match Keyword.dropEnding ignoreCaseEndings fragment with
  | ([], _) => (fragment, none)
  | result => result

def checkGeo (method : String) (path : PropertyPath) (op : Operator) : Except QueryError Unit :=
  if op.isGeo && !path.isGeo then
    .error (.unsupportedOperator method op.name (.notGeo path.dotted))
  else .ok ()

def checkIgnoreCase (method : String) (path : PropertyPath) (op : Operator) :
    Option String → Except QueryError Unit
  | none => .ok ()
  | some ending =>
    if supportsIgnoreCase op path then .ok ()
    else .error (.unsupportedOperator method ending (.notTextual op))

def checkPattern (method : String) (path : PropertyPath) (op : Operator) :
    Except QueryError Unit :=
  if op.isPattern && (path.leaf == .scalar .number || path.leaf == .scalar .boolean ||
      path.leaf == .scalar .date) then
    .error (.clauseMismatch method (.textProperty op path.dotted))
  else .ok ()

def checkBoolean (method : String) (path : PropertyPath) (op : Operator) :
    Except QueryError Unit :=
  if (op == .true_ || op == .false_) && path.leaf != .scalar .boolean &&
      path.leaf != .scalar .any then
    .error (.clauseMismatch method (.booleanProperty op path.dotted))
  else .ok ()

def check (method : String) (path : PropertyPath) (op : Operator) (ignoring : Option String) :
    Except QueryError Unit := do
  checkGeo method path op
  checkIgnoreCase method path op ignoring
  checkPattern method path op
  checkBoolean method path op

/--
Read a clause. With `allIgnoreCase` case is ignored wherever it can be.
-/
def read (s : EntitySchema) (method : String) (allIgnoreCase : Bool) (fragment : List Char) :
    Except QueryError Clause := do
  let (body, ignoring) := takeIgnoreCase fragment
  let (path, op) ← resolve s method body
  check method path op ignoring
  return {
    source := fragment
    path := path
    operator := op
    ignoreCase := ignoring.isSome || (allIgnoreCase && supportsIgnoreCase op path) }

end Clause

/--
One part of the order that a method name asks for. Without a direction it is ascending.
-/
structure OrderItem where
  token : List Char
  direction? : Option Direction
deriving DecidableEq, Repr

namespace OrderItem

def direction (item : OrderItem) : Direction :=
  item.direction?.getD .asc

def source (item : OrderItem) : List Char :=
  item.token ++
    match item.direction? with
    | none => []
    | some d => d.name.toList

def directionAt? (s : List Char) : Option Direction :=
  if Keyword.isAt Direction.desc.name.toList s then some .desc
  else if Keyword.isAt Direction.asc.name.toList s then some .asc
  else none

/--
The items of a text. `token` is what was read of an item, in reverse order, and the first `skipped`
characters belong to a direction. An item does not begin with its direction.
-/
def readFrom : (skipped : Nat) → (token : List Char) → List Char → List OrderItem
  | _, [], [] => []
  | _, token, [] => [⟨token.reverse, none⟩]
  | skipped + 1, token, _ :: cs => readFrom skipped token cs
  | 0, token, c :: cs =>
    match token, directionAt? (c :: cs) with
    | _ :: _, some d => ⟨token.reverse, some d⟩ :: readFrom (d.name.length - 1) [] cs
    | _, _ => readFrom 0 (c :: token) cs

def readAll (s : List Char) : List OrderItem :=
  readFrom 0 [] s

end OrderItem

structure OrderClause where
  item : OrderItem
  path : PropertyPath
deriving DecidableEq, Repr

namespace OrderClause

def read (s : EntitySchema) (method : String) (item : OrderItem) :
    Except QueryError OrderClause := do
  return ⟨item, ← PropertyPath.resolve s item.token method⟩

def key (clause : OrderClause) : SortKey :=
  ⟨clause.path.dotted, clause.item.direction⟩

end OrderClause
end DerivedQuery
