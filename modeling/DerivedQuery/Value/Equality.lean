import DerivedQuery.Value.Basic

/-!
This module contains two equalities of values. `Value.same` compares kind and content, and the
order of the fields of a document does not matter. `Value.equal` also identifies numbers of
different kinds that have the same value as doubles.
-/

namespace DerivedQuery
namespace Value

mutual

def same : Value → Value → Bool
  | .null, .null => true
  | .undefined, .undefined => true
  | .minKey, .minKey => true
  | .maxKey, .maxKey => true
  | .bool a, .bool b => a == b
  | .int32 a, .int32 b => a == b
  | .int64 a, .int64 b => a == b
  | .double a, .double b => a == b
  | .decimal a, .decimal b => a == b
  | .string a, .string b => a == b
  | .symbol a, .symbol b => a == b
  | .code a, .code b => a == b
  | .scopedCode a scope, .scopedCode b other =>
    a == b && scope.length == other.length && sameFields scope other
  | .regex a options, .regex b others => a == b && options == others
  | .binary a bytes, .binary b others => a == b && bytes == others
  | .objectId a, .objectId b => a == b
  | .date a, .date b => a == b
  | .timestamp a i, .timestamp b j => a == b && i == j
  | .pointer a i, .pointer b j => a == b && i == j
  | .array items, .array others => sameItems items others
  | .document fields, .document others =>
    fields.length == others.length && sameFields fields others
  | _, _ => false

def sameItems : List Value → List Value → Bool
  | [], [] => true
  | a :: items, b :: others => same a b && sameItems items others
  | _, _ => false

def sameFields : List (String × Value) → List (String × Value) → Bool
  | [], _ => true
  | (key, value) :: fields, others =>
    (match Document.get? key others with
      | some other => same value other
      | none => false) && sameFields fields others

end

def equal (a b : Value) : Bool :=
  match a.number?, b.number? with
  | some x, some y => x == y
  | _, _ => same a b

end Value
end DerivedQuery
