import DerivedQuery.Decimal.Binary64
import DerivedQuery.Value.Equality

/-!
This module contains the orders of values: `Value.compare?` orders two values of one class, and
`Value.compare` orders any two, falling back on the rank of their kinds.
-/

namespace DerivedQuery
namespace Value

def compare? (a b : Value) : Option Ordering :=
  match a.number?, b.number? with
  | some x, some y => some (Float64.totalCompare x y)
  | _, _ =>
    match a, b with
    | .string x, .string y => some (Ord.compare x y)
    | .bool x, .bool y => some (Ord.compare x y)
    | .date x, .date y => some (Ord.compare x y)
    | _, _ => none

def rank : Value → Nat
  | .minKey => 0
  | .null | .undefined => 1
  | .int32 _ | .int64 _ | .double _ | .decimal _ => 2
  | .symbol _ | .string _ => 3
  | .document _ => 4
  | .array _ => 5
  | .binary _ _ => 6
  | .objectId _ => 7
  | .bool _ => 8
  | .date _ => 9
  | .timestamp _ _ => 10
  | .regex _ _ => 11
  | .pointer _ _ => 12
  | .code _ | .scopedCode _ _ => 13
  | .maxKey => 255

def compare (a b : Value) : Ordering :=
  (compare? a b).getD (Ord.compare (rank a) (rank b))

end Value
end DerivedQuery
