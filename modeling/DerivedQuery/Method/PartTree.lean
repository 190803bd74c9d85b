import DerivedQuery.Method.Clause
import DerivedQuery.Method.Name

/-!
This module contains the parts of a method name: the verb, the subject with its limit, the clauses
in groups, and the order.
-/

namespace DerivedQuery

/--
What a method name spells. The groups are alternatives, the clauses of a group hold together.
-/
structure PartTree where
  method : String
  kind : QueryKind
  limit : Option Nat
  groups : List (List Clause)
  orderBy : List OrderClause
  allIgnoreCase : Option String
  /-- The verb, the subject and `By`. -/
  lead : String
deriving DecidableEq, Repr

namespace PartTree

def clauses (t : PartTree) : List Clause :=
  t.groups.flatten

def sourceChars (t : PartTree) : List Char :=
  List.intercalate Keyword.or_
      (t.groups.map fun group => List.intercalate Keyword.and_ (group.map Clause.source)) ++
    (match t.allIgnoreCase with
      | none => []
      | some ending => ending.toList) ++
    (if t.orderBy.isEmpty then []
      else Keyword.orderBy ++ t.orderBy.flatMap fun clause => clause.item.source)

def source (t : PartTree) : String :=
  String.ofList t.sourceChars

def sort? (t : PartTree) : Option SortKeys :=
  if t.orderBy.isEmpty then none else some (t.orderBy.map OrderClause.key)

/-! ### Verb and subject -/

def verbs : List (String × QueryKind) :=
  [("find", .find), ("read", .find), ("get", .find), ("query", .find), ("search", .find),
   ("stream", .find), ("count", .count), ("exists", .exists_)]

def writeVerbs : List String := ["delete", "remove"]

/--
The text after a verb, which a capital letter begins.
-/
def afterVerb? (verb : String) (name : List Char) : Option (List Char) :=
  match Text.dropStart? verb.toList name with
  | some rest => if Keyword.startsCapital rest then some rest else none
  | none => none

def verb? (name : List Char) : Option (String × QueryKind × List Char) :=
  verbs.findSome? fun (verb, kind) => (afterVerb? verb name).map fun rest => (verb, kind, rest)

def readVerb (name : List Char) : Except QueryError (String × QueryKind × List Char) :=
  match writeVerbs.find? fun verb => (afterVerb? verb name).isSome with
  | some verb => .error (.malformedName (String.ofList name) (.writeVerb verb))
  | none =>
    match verb? name with
    | some result => .ok result
    | none => .error (.malformedName (String.ofList name) .noVerb)

def occursIn (part : List Char) : List Char → Bool
  | [] => part.isEmpty
  | c :: cs => (Text.dropStart? part (c :: cs)).isSome || occursIn part cs

def limitKeywords : List String := ["First", "Top"]

def limitKeyword? (subject : List Char) : Option (String × List Char) :=
  limitKeywords.findSome? fun keyword =>
    (Text.dropStart? keyword.toList subject).map fun rest => (keyword, rest)

/--
The limit that a subject sets: the number behind `First` or `Top`, or one if there is none.
-/
def readSubject (name : String) (kind : QueryKind) (subject : List Char) :
    Except QueryError (Option Nat) :=
  if occursIn "Distinct".toList subject then .error (.malformedName name .distinct)
  else
    match limitKeyword? subject with
    | none => .ok none
    | some (keyword, rest) =>
      let digits := rest.takeWhile Char.isDigit
      let limit := if digits.isEmpty then 1 else Text.natOfDigits digits
      if maxCount < limit then
        .error (.malformedName name (.limitRange keyword (String.ofList digits)))
      else if limit = 0 then .error (.malformedName name (.limitZero keyword))
      else if kind ≠ .find then .error (.malformedName name (.limitKind keyword))
      else .ok (some limit)

/-! ### Predicate and order -/

def allIgnoreCaseEndings : List String := ["AllIgnoringCase", "AllIgnoreCase"]

def readFragment (s : EntitySchema) (method : String) (allIgnoreCase : Bool)
    (fragment : List Char) : Except QueryError Clause :=
  if fragment.isEmpty then .error (.malformedName method .emptyClause)
  else Clause.read s method allIgnoreCase fragment

def readGroup (s : EntitySchema) (method : String) (allIgnoreCase : Bool) (text : List Char) :
    Except QueryError (List Clause) :=
  (Keyword.split Keyword.and_ text).mapM (readFragment s method allIgnoreCase)

def cutOrder (tail : List Char) : List Char × Option (List Char) :=
  match Keyword.cut? Keyword.orderBy tail with
  | some (predicate, order) => (predicate, some order)
  | none => (tail, none)

/--
The groups of a predicate. What is empty before an order has no group.
-/
def readGroups (s : EntitySchema) (method : String) (ordered : Bool) (predicate : List Char)
    (ending : Option String) : Except QueryError (List (List Clause)) :=
  if predicate.isEmpty && ordered && ending.isNone then .ok []
  else (Keyword.split Keyword.or_ predicate).mapM (readGroup s method ending.isSome)

def readOrder (s : EntitySchema) (method : String) :
    Option (List Char) → Except QueryError (List OrderClause)
  | none => .ok []
  | some text =>
    if text.isEmpty then .error (.malformedName method .emptyOrder)
    else (OrderItem.readAll text).mapM (OrderClause.read s method)

def read (method : String) (s : EntitySchema) : Except QueryError PartTree := do
  let chars := MethodName.normalizeChars method.toList
  let name := String.ofList chars
  let (verb, kind, rest) ← readVerb chars
  match Keyword.cut? Keyword.by_ rest with
  | none => throw (.malformedName name .noBy)
  | some (subject, tail) =>
    let limit ← readSubject name kind subject
    if tail.isEmpty then throw (.malformedName name .emptyPredicate)
    let (predicate, order) := cutOrder tail
    let (predicate, ending) := Keyword.dropEnding allIgnoreCaseEndings predicate
    let groups ← readGroups s name order.isSome predicate ending
    let orderBy ← readOrder s name order
    return {
      method := name
      kind := kind
      limit := limit
      groups := groups
      orderBy := orderBy
      allIgnoreCase := ending
      lead := verb ++ String.ofList subject ++ "By" }

end PartTree
end DerivedQuery
