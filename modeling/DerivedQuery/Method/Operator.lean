import DerivedQuery.Order.InsertionSort

/-!
This module contains the operators that a clause of a method name can spell, and what each of them
takes.
-/

namespace DerivedQuery

inductive Operator where
  | equals
  | notEquals
  | lessThan
  | lessThanEqual
  | greaterThan
  | greaterThanEqual
  | before
  | after
  | between
  | like
  | notLike
  | startingWith
  | endingWith
  | containing
  | notContaining
  | regex
  | in_
  | notIn
  | isNull
  | isNotNull
  | exists_
  | true_
  | false_
  | near
  | within
deriving DecidableEq, Repr

/--
What an operator takes: nothing, one value, two values, a list of values, a point perhaps followed
by a distance, or an area.
-/
inductive Operand where
  | none
  | single
  | pair
  | sequence
  | point
  | area
deriving DecidableEq, Repr

def Operand.name : Operand → String
  | .none => "None"
  | .single => "Single"
  | .pair => "Pair"
  | .sequence => "Sequence"
  | .point => "Point"
  | .area => "Area"

namespace Operator

def all : List Operator :=
  [.equals, .notEquals, .lessThan, .lessThanEqual, .greaterThan, .greaterThanEqual, .before, .after,
   .between, .like, .notLike, .startingWith, .endingWith, .containing, .notContaining, .regex, .in_,
   .notIn, .isNull, .isNotNull, .exists_, .true_, .false_, .near, .within]

theorem mem_all (op : Operator) : op ∈ all := by
  cases op <;> decide

def label : Operator → String
  | .equals => "Equals"
  | .notEquals => "NotEquals"
  | .lessThan => "LessThan"
  | .lessThanEqual => "LessThanEqual"
  | .greaterThan => "GreaterThan"
  | .greaterThanEqual => "GreaterThanEqual"
  | .before => "Before"
  | .after => "After"
  | .between => "Between"
  | .like => "Like"
  | .notLike => "NotLike"
  | .startingWith => "StartingWith"
  | .endingWith => "EndingWith"
  | .containing => "Containing"
  | .notContaining => "NotContaining"
  | .regex => "Regex"
  | .in_ => "In"
  | .notIn => "NotIn"
  | .isNull => "IsNull"
  | .isNotNull => "IsNotNull"
  | .exists_ => "Exists"
  | .true_ => "True"
  | .false_ => "False"
  | .near => "Near"
  | .within => "Within"

def ofLabel? (s : String) : Option Operator :=
  all.find? fun op => op.label == s

/--
The spelling that messages use, and the other spellings.
-/
def spellings : Operator → String × List String
  | .equals => ("Is", ["Equals"])
  | .notEquals => ("Not", ["IsNot"])
  | .lessThan => ("LessThan", ["IsLessThan"])
  | .lessThanEqual => ("LessThanEqual", ["IsLessThanEqual"])
  | .greaterThan => ("GreaterThan", ["IsGreaterThan"])
  | .greaterThanEqual => ("GreaterThanEqual", ["IsGreaterThanEqual"])
  | .before => ("Before", ["IsBefore"])
  | .after => ("After", ["IsAfter"])
  | .between => ("Between", ["IsBetween"])
  | .like => ("Like", ["IsLike"])
  | .notLike => ("NotLike", ["IsNotLike"])
  | .startingWith => ("StartingWith", ["IsStartingWith", "StartsWith"])
  | .endingWith => ("EndingWith", ["IsEndingWith", "EndsWith"])
  | .containing => ("Containing", ["IsContaining", "Contains"])
  | .notContaining => ("NotContaining", ["IsNotContaining", "NotContains"])
  | .regex => ("Regex", ["MatchesRegex", "Matches"])
  | .in_ => ("In", ["IsIn"])
  | .notIn => ("NotIn", ["IsNotIn"])
  | .isNull => ("IsNull", ["Null"])
  | .isNotNull => ("IsNotNull", ["NotNull"])
  | .exists_ => ("Exists", [])
  | .true_ => ("True", ["IsTrue"])
  | .false_ => ("False", ["IsFalse"])
  | .near => ("Near", ["IsNear"])
  | .within => ("Within", ["IsWithin"])

def name (op : Operator) : String :=
  op.spellings.1

def keywords (op : Operator) : List String :=
  op.spellings.1 :: op.spellings.2

def operand : Operator → Operand
  | .isNull | .isNotNull | .exists_ | .true_ | .false_ => .none
  | .between => .pair
  | .in_ | .notIn => .sequence
  | .near => .point
  | .within => .area
  | _ => .single

def arity (op : Operator) : Nat × Nat :=
  match op.operand with
  | .none => (0, 0)
  | .pair => (2, 2)
  | .point => (1, 2)
  | .single | .sequence | .area => (1, 1)

def isGeo : Operator → Bool
  | .near | .within => true
  | _ => false

def isPattern : Operator → Bool
  | .like | .notLike | .startingWith | .endingWith | .containing | .notContaining | .regex => true
  | _ => false

def isRange : Operator → Bool
  | .lessThan | .lessThanEqual | .greaterThan | .greaterThanEqual | .before | .after | .between =>
    true
  | _ => false

/--
A longer spelling comes first; those of one length are in alphabetical order.
-/
def suffixBefore (a b : List Char × Operator) : Bool :=
  b.1.length < a.1.length || (a.1.length == b.1.length && decide (a.1 < b.1))

def allSpellings : List (List Char × Operator) :=
  all.flatMap fun op => op.keywords.map fun keyword => (keyword.toList, op)

def suffixes : List (List Char × Operator) :=
  InsertionSort.sort suffixBefore allSpellings

end Operator
end DerivedQuery
