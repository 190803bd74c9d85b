import DerivedQuery.Filter.Evaluation
import DerivedQuery.Proofs.Decimal.WholeNumber

/-!
This module contains how the equality of numbers goes together with their order, for values and for
the filters of a field: they agree but for the two zeros and for values that are not numbers, and
integers are told apart as far as 53 bits do so.
-/

namespace DerivedQuery

open Float64 (AreZeros IsExact rounded totalCompare)

/-! ### Values -/

namespace Value

variable {a b : Value} {x y : Float} {m n : Int}

theorem isArray_of_number? (ha : a.number? = some x) : a.isArray = false := by
  cases a with
  | array => contradiction
  | _ => rfl

theorem equal_of_number? (ha : a.number? = some x) (hb : b.number? = some y) :
    a.equal b = (x == y) := by
  rw [equal, ha, hb]

theorem compare?_of_number? (ha : a.number? = some x) (hb : b.number? = some y) :
    a.compare? b = some (totalCompare x y) := by
  simp only [compare?, ha, hb]

theorem equal_iff_compare?_eq (ha : a.number? = some x) (hb : b.number? = some y)
    (hnumber : x.isNaN = false ∨ y.isNaN = false) :
    (a.equal b = true ↔ a.compare? b = some .eq) ↔ ¬ AreZeros x y := by
  rw [equal_of_number? ha hb, compare?_of_number? ha hb, Option.some.injEq]
  exact Float64.beq_iff_totalCompare_eq_iff hnumber

theorem equal_self_of_isNaN (ha : a.number? = some x) (hx : x.isNaN = true) :
    a.equal a = false ∧ a.compare? a = some .eq := by
  rw [equal_of_number? ha ha, compare?_of_number? ha ha, Float64.totalCompare_self]
  exact ⟨Float64.beq_self_of_isNaN hx, rfl⟩

def integer? : Value → Option Int
  | .int32 i => some i.toInt
  | .int64 i => some i.toInt
  | _ => none

theorem natAbs_of_integer? (h : a.integer? = some m) : m.natAbs < 2 ^ 64 := by
  cases a with
  | int32 i =>
    cases h
    have hle := i.le_toInt
    have hlt := i.toInt_lt
    omega
  | int64 i =>
    cases h
    have hle := i.le_toInt
    have hlt := i.toInt_lt
    omega
  | _ => contradiction

theorem number?_of_integer? (h : a.integer? = some m) : a.number? = some (Float.ofInt m) := by
  cases a with
  | int32 | int64 =>
    cases h
    rfl
  | _ => contradiction

theorem compare?_of_integer? (ha : a.integer? = some m) (hb : b.integer? = some n) :
    a.compare? b = some (Ord.compare (rounded m) (rounded n)) := by
  rw [compare?_of_number? (number?_of_integer? ha) (number?_of_integer? hb),
    Float64.totalCompare_ofInt (natAbs_of_integer? ha) (natAbs_of_integer? hb)]

theorem equal_iff_of_integer? (ha : a.integer? = some m) (hb : b.integer? = some n) :
    a.equal b = true ↔ rounded m = rounded n := by
  have hnumber := Float64.isNaN_ofInt (natAbs_of_integer? ha)
  have hzeros := Float64.not_areZeros_ofInt (natAbs_of_integer? ha) (natAbs_of_integer? hb)
  have hagree := equal_iff_compare?_eq (number?_of_integer? ha) (number?_of_integer? hb)
    (.inl hnumber)
  rw [hagree.mpr hzeros, compare?_of_integer? ha hb, Option.some.injEq, compare_eq_iff_eq]

end Value

/-! ### Filters -/

theorem Document.elements_of_isArray {v : Value} (hv : v.isArray = false) : elements v = [v] := by
  cases v with
  | array => contradiction
  | _ => rfl

/--
Each comparison stands for what its name says: two of them join equality, and one of the other three
holds.
-/
structure IsTrichotomous (holds : Comparison → Prop) : Prop where
  gte : holds .gte ↔ holds .gt ∨ holds .eq
  lte : holds .lte ↔ holds .lt ∨ holds .eq
  one : ∃! op, op ∈ [Comparison.lt, .eq, .gt] ∧ holds op

theorem isTrichotomous_iff {holds : Comparison → Prop} (order : Ordering)
    (horder : ∀ op, op ≠ .eq → op ≠ .ne → (holds op ↔ Filter.orderHolds op order = true)) :
    IsTrichotomous holds ↔ (holds .eq ↔ order = .eq) := by
  have hgt := horder .gt nofun nofun
  have hgte := horder .gte nofun nofun
  have hlt := horder .lt nofun nofun
  have hlte := horder .lte nofun nofun
  constructor
  · intro h
    obtain ⟨found, -, hunique⟩ := h.one
    cases order with
    | eq => simpa [hgte, hgt, Filter.orderHolds] using h.gte
    | lt =>
      refine iff_of_false (fun heq => ?_) nofun
      have heq' := hunique .eq ⟨by simp, heq⟩
      have hlt' := hunique .lt ⟨by simp, hlt.mpr rfl⟩
      rw [← heq'] at hlt'
      contradiction
    | gt =>
      refine iff_of_false (fun heq => ?_) nofun
      have heq' := hunique .eq ⟨by simp, heq⟩
      have hgt' := hunique .gt ⟨by simp, hgt.mpr rfl⟩
      rw [← heq'] at hgt'
      contradiction
  · intro heq
    refine ⟨?_, ?_, ?_⟩
    · rw [hgte, hgt, heq]
      cases order <;> decide
    · rw [hlte, hlt, heq]
      cases order <;> decide
    · cases order with
      | lt => exact ⟨.lt, by simp [hlt, Filter.orderHolds], by simp [hgt, heq, Filter.orderHolds]⟩
      | eq => exact ⟨.eq, by simp [heq], by simp [hgt, hlt, Filter.orderHolds]⟩
      | gt => exact ⟨.gt, by simp [hgt, Filter.orderHolds], by simp [hlt, heq, Filter.orderHolds]⟩

namespace Filter

variable {d : Document} {path : String} {a b : Value} {x y : Float} {m n : Int}

theorem eval_compare_eq (hlookup : d.lookup path = [a]) (ha : a.isArray = false) :
    (compare path .eq b).eval d = a.equal b := by
  rw [eval, equalsAt, hlookup]
  cases a with
  | array => contradiction
  | _ => simp only [List.any_cons, List.any_nil, Bool.or_false]

theorem eval_compare_of_ne {op : Comparison} (heq : op ≠ .eq) (hne : op ≠ .ne) :
    (compare path op b).eval d = ordersAt d path op b := by
  rw [eval]
  · exact heq
  · exact hne

theorem eval_compare_order {op : Comparison} (hlookup : d.lookup path = [a])
    (ha : a.isArray = false) (heq : op ≠ .eq) (hne : op ≠ .ne) :
    (compare path op b).eval d = (a.compare? b).any (orderHolds op) := by
  have hcandidates : d.candidates path = [a] := by
    rw [Document.candidates, hlookup, List.flatMap_singleton, Document.elements_of_isArray ha]
  rw [eval_compare_of_ne heq hne, ordersAt, hcandidates, List.any_cons, List.any_nil,
    Bool.or_false]

theorem isTrichotomous_compare (hlookup : d.lookup path = [a]) (ha : a.number? = some x)
    (hb : b.number? = some y) :
    IsTrichotomous (fun op => (compare path op b).eval d = true)
      ↔
    (a.equal b = true ↔ a.compare? b = some .eq) := by
  have harray := Value.isArray_of_number? ha
  have hcompare := Value.compare?_of_number? ha hb
  rw [isTrichotomous_iff (totalCompare x y), eval_compare_eq hlookup harray, hcompare,
    Option.some.injEq]
  intro op heq hne
  rw [eval_compare_order hlookup harray heq hne, hcompare, Option.any_some]

end Filter

/-! ### Equality and order -/

namespace Value

variable {a b : Value} {x y : Float} {m n : Int}

/--
Equality of numbers goes together with their order unless they are the two zeros, and so do the
comparisons of a field that holds one of them. A value that is not a number is in disagreement with
itself; of two such values, which may differ in their bits, nothing is said.
-/
theorem equal_and_order_agree_iff (ha : a.number? = some x) (hb : b.number? = some y) :
    (x.isNaN = false ∨ y.isNaN = false →
      ((a.equal b = true ↔ a.compare? b = some .eq) ↔ ¬ AreZeros x y)
        ∧
      ∀ (d : Document) (path : String), d.lookup path = [a] →
        (IsTrichotomous (fun op => (Filter.compare path op b).eval d = true) ↔ ¬ AreZeros x y))
      ∧
    (x.isNaN = true →
      ¬ (a.equal a = true ↔ a.compare? a = some .eq)
        ∧
      ∀ (d : Document) (path : String), d.lookup path = [a] →
        ¬ IsTrichotomous (fun op => (Filter.compare path op a).eval d = true)) := by
  constructor
  · intro hnumber
    have hagree := equal_iff_compare?_eq ha hb hnumber
    refine ⟨hagree, ?_⟩
    intro d path hlookup
    rw [Filter.isTrichotomous_compare hlookup ha hb, hagree]
  · intro hx
    have hdisagree : ¬ (a.equal a = true ↔ a.compare? a = some .eq) := by
      simp [equal_self_of_isNaN ha hx]
    refine ⟨hdisagree, ?_⟩
    intro d path hlookup
    rwa [Filter.isTrichotomous_compare hlookup ha ha]

theorem equal_and_order_agree_age :
    (int32 39).number? = some (Float.ofInt 39) ∧ (double 39.5).number? = some 39.5
      ∧
    ((int32 39).equal (double 39.5) = true ↔ (int32 39).compare? (double 39.5) = some .eq)
      ∧
    IsTrichotomous fun op =>
      (Filter.compare "age" op (double 39.5)).eval [("age", int32 39)] = true := by
  have hnumber : (Float.ofInt 39).isNaN = false := by decide +kernel
  have hzeros : ¬ AreZeros (Float.ofInt 39) 39.5 := by
    rintro ⟨hzero, -⟩
    exact absurd hzero (by decide +kernel)
  obtain ⟨hvalue, hfield⟩ :=
    (equal_and_order_agree_iff (a := int32 39) (b := double 39.5) rfl rfl).1 (.inl hnumber)
  exact ⟨rfl, rfl, hvalue.mpr hzeros, (hfield [("age", int32 39)] "age" rfl).mpr hzeros⟩

/--
The negative zero is equal to zero and comes before it, and what is not a number is not equal to
itself and does not come before itself.
-/
theorem equal_and_order_disagree :
    ¬ ((double (-0.0)).equal (int32 0) = true ↔ (double (-0.0)).compare? (int32 0) = some .eq)
      ∧
    ¬ ((double (0.0 / 0.0)).equal (double (0.0 / 0.0)) = true
      ↔ (double (0.0 / 0.0)).compare? (double (0.0 / 0.0)) = some .eq)
      ∧
    (Filter.compare "v" .eq (int32 0)).eval [("v", double (-0.0))] = true
      ∧
    (Filter.compare "v" .gte (int32 0)).eval [("v", double (-0.0))] = false := by
  decide +kernel

/-! ### Integers -/

/--
Integers compare as they are rounded to 53 bits: the order is never reversed, and it is exact for
integers that these bits hold.
-/
theorem integers_compare_rounded (ha : a.integer? = some m) (hb : b.integer? = some n) :
    (a.compare? b = some (Ord.compare (rounded m) (rounded n))
      ∧ (a.equal b = true ↔ rounded m = rounded n))
      ∧
    ((a.compare? b = some .lt → m < n) ∧ (a.compare? b = some .gt → n < m)
      ∧ (m = n → a.equal b = true))
      ∧
    (IsExact m → IsExact n →
      a.compare? b = some (Ord.compare m n) ∧ (a.equal b = true ↔ m = n)
        ∧
      ∀ (d : Document) (path : String), d.lookup path = [a] →
        ((Filter.compare path .eq b).eval d = true ↔ m = n)) := by
  have hcompare := compare?_of_integer? ha hb
  have hequal := equal_iff_of_integer? ha hb
  refine ⟨⟨hcompare, hequal⟩, ⟨?_, ?_, ?_⟩, ?_⟩
  · intro h
    rw [hcompare, Option.some.injEq, compare_lt_iff_lt] at h
    exact lt_of_not_ge fun hle => absurd (Float64.rounded_mono hle) (not_le.mpr h)
  · intro h
    rw [hcompare, Option.some.injEq, compare_gt_iff_gt] at h
    exact lt_of_not_ge fun hle => absurd (Float64.rounded_mono hle) (not_le.mpr h)
  · rintro rfl
    exact hequal.mpr rfl
  · intro hm hn
    rw [Float64.rounded_eq_self_iff.mpr hm, Float64.rounded_eq_self_iff.mpr hn] at hcompare hequal
    refine ⟨hcompare, hequal, fun d path hlookup => ?_⟩
    have harray := isArray_of_number? (number?_of_integer? ha)
    rw [Filter.eval_compare_eq hlookup harray, hequal]

theorem integers_compare_rounded_id :
    (int64 9007199254740991).integer? = some 9007199254740991 ∧ (int32 41).integer? = some 41
      ∧ IsExact 9007199254740991 ∧ IsExact 41
      ∧
    (int64 9007199254740991).compare? (int32 41) = some .gt
      ∧
    ((Filter.compare "id" .eq (int32 41)).eval [("id", int64 9007199254740991)] = true
      ↔ (9007199254740991 : Int) = 41) := by
  have hm : IsExact 9007199254740991 := Float64.isExact_of_natAbs_le (by decide)
  have hn : IsExact 41 := Float64.isExact_of_natAbs_le (by decide)
  obtain ⟨-, -, hexact⟩ :=
    integers_compare_rounded (a := int64 9007199254740991) (b := int32 41) rfl rfl
  obtain ⟨hcompare, -, hfield⟩ := hexact hm hn
  exact ⟨rfl, rfl, hm, hn, hcompare, hfield [("id", int64 9007199254740991)] "id" rfl⟩

theorem integers_compare_inexact :
    ¬ ((int64 9007199254740993).equal (int64 9007199254740992) = true
      ↔ (9007199254740993 : Int) = 9007199254740992)
      ∧
    (int64 9007199254740993).compare? (int64 9007199254740992)
      ≠ some (Ord.compare (9007199254740993 : Int) 9007199254740992)
      ∧
    (Filter.compare "id" .eq (int64 9007199254740992)).eval [("id", int64 9007199254740993)]
      = true := by
  decide +kernel

end Value
end DerivedQuery
