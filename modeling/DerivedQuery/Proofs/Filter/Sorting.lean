import DerivedQuery.Filter.Evaluation

/-!
This module contains that documents are sorted by a total preorder, unless a decimal number stands
beside another number, or a symbol beside a string. These have the same rank, but no order.
-/

namespace DerivedQuery

open Std

attribute [local instance] lexOrd

/--
A total preorder of elements no two of which are apart from each other.
-/
structure IsPreorder {α : Type} (cmp : α → α → Ordering) (apart : α → α → Prop) : Prop where
  swap : ∀ a b, cmp b a = (cmp a b).swap
  trans : ∀ a b c, ¬ apart a b → ¬ apart b c → ¬ apart a c →
    cmp a b ≠ .gt → cmp b c ≠ .gt → cmp a c ≠ .gt

theorem IsPreorder.of_transCmp {α : Type} {cmp : α → α → Ordering} {apart : α → α → Prop}
    (lawful : α → α → Ordering) [TransCmp lawful] (hswap : ∀ a b, cmp b a = (cmp a b).swap)
    (hlawful : ∀ a b, ¬ apart a b → cmp a b = lawful a b) : IsPreorder cmp apart where
  swap := hswap
  trans := by
    intro a b c hab hbc hac
    rw [hlawful a b hab, hlawful b c hbc, hlawful a c hac]
    simp only [← Ordering.isLE_iff_ne_gt]
    apply TransCmp.isLE_trans

/-! ### Values -/

namespace Value

theorem compare?_swap (a b : Value) : b.compare? a = (a.compare? b).map Ordering.swap := by
  unfold compare?
  cases a <;> cases b
  all_goals first
    | rfl
    | exact congrArg some OrientedOrd.eq_swap

theorem compare_swap (a b : Value) : b.compare a = (a.compare b).swap := by
  unfold compare
  rw [compare?_swap a b]
  cases a.compare? b with
  | some order => rfl
  | none => apply OrientedOrd.eq_swap

def isUnordered : Value → Bool
  | .decimal _ | .symbol _ => true
  | _ => false

/--
Of two values of the same rank, one has an order to the others of the rank, and the other has none.
-/
def Mixed (a b : Value) : Prop :=
  a.rank = b.rank ∧ a.isUnordered ≠ b.isUnordered

instance (a b : Value) : Decidable (Mixed a b) :=
  inferInstanceAs (Decidable (_ ∧ _))

/--
Where a value stands: by its rank first, then among the values of its rank.
-/
def place (v : Value) : Nat × Int × String :=
  (v.rank,
    match v.number?, v with
    | some x, _ => (Float64.rank x, "")
    | none, .bool b => (b.toNat, "")
    | none, .string s => (0, s)
    | none, .date millis => (millis, "")
    | none, _ => (0, ""))

theorem compare_number (x y : Int) : Ord.compare (x, "") (y, "") = Ord.compare x y := by
  change (Ord.compare x y).then .eq = _
  simp

theorem compare_eq_compare_place {a b : Value} (h : ¬ Mixed a b) :
    a.compare b = Ord.compare a.place b.place := by
  change _ = (Ord.compare a.rank b.rank).then (Ord.compare a.place.2 b.place.2)
  unfold compare compare?
  cases a <;> cases b
  case bool.bool p q => cases p <;> cases q <;> rfl
  case decimal.int32 | decimal.int64 | decimal.double | int32.decimal | int64.decimal |
      double.decimal | symbol.string | string.symbol =>
    exact absurd ⟨rfl, Bool.noConfusion⟩ h
  -- numbers and dates stand by a whole number, all others by their rank or their text
  all_goals first
    | rfl
    | exact (compare_number _ _).symm

theorem isPreorder_compare : IsPreorder compare Mixed := by
  apply IsPreorder.of_transCmp (compareOn place)
  · apply compare_swap
  · intro a b
    apply compare_eq_compare_place

end Value

/-! ### Documents -/

namespace Document

def MixedAt (path : String) (a b : Document) : Prop :=
  ∃ x ∈ (a.lookup path).head?, ∃ y ∈ (b.lookup path).head?, Value.Mixed x y

def MixedBy (sort : SortKeys) (a b : Document) : Prop :=
  ∃ key ∈ sort.take SortKeys.maxKeys, MixedAt key.field a b

instance (sort : SortKeys) (a b : Document) : Decidable (MixedBy sort a b) := by
  unfold MixedBy MixedAt
  infer_instance

def placeAt (path : String) (d : Document) : Option (Nat × Int × String) :=
  (d.lookup path).head?.map Value.place

theorem compareAt_swap (path : String) (a b : Document) :
    compareAt path b a = (compareAt path a b).swap := by
  unfold compareAt
  cases (a.lookup path).head? <;> cases (b.lookup path).head?
  case some.some => apply Value.compare_swap
  all_goals rfl

theorem compareAt_eq_compare_placeAt {path : String} {a b : Document} (h : ¬ MixedAt path a b) :
    compareAt path a b = Ord.compare (placeAt path a) (placeAt path b) := by
  unfold MixedAt at h
  unfold compareAt placeAt
  cases hx : (a.lookup path).head? <;> cases hy : (b.lookup path).head?
  case some.some x y =>
    apply Value.compare_eq_compare_place
    intro hmixed
    apply h
    exact ⟨x, hx, y, hy, hmixed⟩
  all_goals rfl

theorem compareByKeys_swap (a b : Document) (keys : SortKeys) :
    compareByKeys b a keys = (compareByKeys a b keys).swap := by
  induction keys with
  | nil => rfl
  | cons key keys ih =>
    rw [compareByKeys, compareByKeys, compareAt_swap key.field a b]
    cases compareAt key.field a b with
    | eq => exact ih
    | lt | gt => cases key.direction <;> rfl

def directed (direction : Direction) (cmp : Document → Document → Ordering) (a b : Document) :
    Ordering :=
  match direction with
  | .asc => cmp a b
  | .desc => cmp b a

instance (direction : Direction) (cmp : Document → Document → Ordering) [TransCmp cmp] :
    TransCmp (directed direction cmp) := by
  cases direction with
  | asc => assumption
  | desc => exact (TransCmp.opposite : TransCmp fun a b => cmp b a)

def comparePlaces : SortKeys → Document → Document → Ordering
  | [] => fun _ _ => .eq
  | key :: keys =>
    compareLex (directed key.direction (compareOn (placeAt key.field))) (comparePlaces keys)

instance transCmp_comparePlaces (keys : SortKeys) : TransCmp (comparePlaces keys) := by
  induction keys with
  | nil => exact { eq_swap := rfl, isLE_trans := fun _ _ => rfl }
  | cons key keys ih =>
    rw [comparePlaces]
    infer_instance

theorem compareByKeys_eq_comparePlaces {a b : Document} {keys : SortKeys}
    (h : ∀ key ∈ keys, ¬ MixedAt key.field a b) :
    compareByKeys a b keys = comparePlaces keys a b := by
  induction keys with
  | nil => rfl
  | cons key keys ih =>
    rw [List.forall_mem_cons] at h
    rw [compareByKeys, ih h.2, compareAt_eq_compare_placeAt h.1]
    change _ = (directed key.direction (compareOn (placeAt key.field)) a b).then _
    cases key.direction with
    | asc =>
      rw [directed, compareOn]
      cases Ord.compare (placeAt key.field a) (placeAt key.field b) <;> rfl
    | desc =>
      rw [directed, compareOn, OrientedOrd.eq_swap]
      cases Ord.compare (placeAt key.field b) (placeAt key.field a) <;> rfl

theorem isPreorder_mixedBy (sort : SortKeys) : IsPreorder (compareBy sort) (MixedBy sort) := by
  apply IsPreorder.of_transCmp (comparePlaces (sort.take SortKeys.maxKeys))
  · intro a b
    apply compareByKeys_swap
  · intro a b h
    apply compareByKeys_eq_comparePlaces
    intro key hkey hmixed
    apply h
    exact ⟨key, hkey, hmixed⟩

/--
Documents are sorted by a total preorder as long as their values are not mixed, and so are values.
-/
theorem isPreorder_compareBy (sort : SortKeys) :
    IsPreorder (compareBy sort) (MixedBy sort) ∧ IsPreorder Value.compare Value.Mixed :=
  ⟨isPreorder_mixedBy sort, Value.isPreorder_compare⟩

def bySizeAndName : SortKeys :=
  [⟨"size", .asc⟩, ⟨"name", .desc⟩]

theorem isPreorder_compareBy_size :
    let a : Document := [("size", .int32 2), ("name", .string "b")]
    let b : Document := [("name", .string "a"), ("size", .int64 2)]
    let c : Document := [("size", .string "large")]
    ¬ MixedBy bySizeAndName a b ∧ compareBy bySizeAndName a b ≠ .gt
      ∧
    ¬ MixedBy bySizeAndName b c ∧ compareBy bySizeAndName b c ≠ .gt
      ∧
    ¬ MixedBy bySizeAndName a c ∧ compareBy bySizeAndName a c ≠ .gt := by
  intro a b c
  have hab : ¬ MixedBy bySizeAndName a b ∧ compareBy bySizeAndName a b ≠ .gt := by
    decide +kernel
  have hbc : ¬ MixedBy bySizeAndName b c ∧ compareBy bySizeAndName b c ≠ .gt := by
    decide +kernel
  have hac : ¬ MixedBy bySizeAndName a c := by
    decide +kernel
  refine ⟨hab.1, hab.2, hbc.1, hbc.2, hac, ?_⟩
  exact (isPreorder_compareBy bySizeAndName).1.trans a b c hab.1 hbc.1 hac hab.2 hbc.2

/--
A decimal number is equal to every number, although these are not equal to each other.
-/
theorem compareBy_size_not_trans :
    let two : Value := .int32 2
    let five : Value := .decimal (.finite false 5 0)
    let one : Value := .int32 1
    (two.compare five ≠ .gt ∧ five.compare one ≠ .gt ∧ two.compare one = .gt)
      ∧
    compareBy bySizeAndName [("size", two)] [("size", five)] ≠ .gt
      ∧
    compareBy bySizeAndName [("size", five)] [("size", one)] ≠ .gt
      ∧
    compareBy bySizeAndName [("size", two)] [("size", one)] = .gt := by
  decide +kernel

end Document
end DerivedQuery
