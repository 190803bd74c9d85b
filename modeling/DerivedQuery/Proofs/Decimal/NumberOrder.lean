import DerivedQuery.Proofs.Decimal.Quotient

/-!
This module contains that the total order of doubles and their order and equality as numbers agree,
but for values that are not numbers and for the two zeros.
-/

open Float.Model Float.Model.UnpackedFloat

namespace DerivedQuery
namespace Float64

/-! ### Unpacked numbers -/

/--
The place of a number among the doubles, counted from zero. Both zeros have the place zero.
-/
def place : UnpackedFloat → Int
  | .infinity sign => sign.apply (2047 * 2 ^ 52)
  | .finite sign m e _ => sign.apply ((e + 1074) * 2 ^ 52 + m)
  | .zero _ | .notANumber => 0

/--
A finite number of the format has its first bit set, unless its exponent is the least one.
-/
structure IsFinite (m : Nat) (e : Int) : Prop where
  pos : 0 < m
  lt : m < 2 ^ 53
  least : -1074 ≤ e
  normal : -1074 < e → 2 ^ 52 ≤ m
  bounded : (e + 1074) * 2 ^ 52 + m < 2047 * 2 ^ 52

inductive IsNumber : UnpackedFloat → Prop where
  | infinity (sign : Sign) : IsNumber (.infinity sign)
  | zero (sign : Sign) : IsNumber (.zero sign)
  | finite (sign : Sign) {m : Nat} {e : Int} (h : IsFinite m e) : IsNumber (.finite sign m e h.pos)

theorem lt_eq_compare {a b : Int} : .lt = compare a b ↔ a < b := by
  rw [eq_comm, compare_lt_iff_lt]

theorem gt_eq_compare {a b : Int} : .gt = compare a b ↔ b < a := by
  rw [eq_comm, compare_gt_iff_gt]

theorem swap_compare (a b : Int) : (compare a b).swap = compare (-a) (-b) := by
  rcases lt_trichotomy a b with hlt | rfl | hgt
  · rw [compare_lt_iff_lt.mpr hlt, Ordering.swap_lt, gt_eq_compare]
    omega
  · rw [compare_eq_iff_eq.mpr rfl, compare_eq_iff_eq.mpr rfl, Ordering.swap_eq]
  · rw [compare_gt_iff_gt.mpr hgt, Ordering.swap_gt, lt_eq_compare]
    omega

theorem compare_finite {m n : Nat} {e k : Int} (hm : IsFinite m e) (hn : IsFinite n k) :
    (compare e k).then (compare m n)
      =
    compare ((e + 1074) * 2 ^ 52 + m) ((k + 1074) * 2 ^ 52 + n) := by
  obtain ⟨-, hm, hmleast, hmnormal, -⟩ := hm
  obtain ⟨-, hn, hnleast, hnnormal, -⟩ := hn
  rcases lt_trichotomy e k with hlt | rfl | hgt
  · rw [compare_lt_iff_lt.mpr hlt, Ordering.lt_then, lt_eq_compare]
    omega
  · rw [compare_eq_iff_eq.mpr rfl, Ordering.eq_then]
    rcases lt_trichotomy m n with hlt | rfl | hgt
    · rw [compare_lt_iff_lt.mpr hlt, lt_eq_compare]
      omega
    · rw [compare_eq_iff_eq.mpr rfl, compare_eq_iff_eq.mpr rfl]
    · rw [compare_gt_iff_gt.mpr hgt, gt_eq_compare]
      omega
  · rw [compare_gt_iff_gt.mpr hgt, Ordering.gt_then, gt_eq_compare]
    omega

theorem compare_eq_place {u v : UnpackedFloat} (hu : IsNumber u) (hv : IsNumber v) :
    u.compare v = some (compare (place u) (place v)) := by
  cases hu with
  | infinity sign =>
    cases hv with
    | infinity sign' => cases sign <;> cases sign' <;> rfl
    | zero sign' => cases sign <;> rfl
    | finite sign' h =>
      obtain ⟨hpos, -, hleast, -, hbounded⟩ := h
      cases sign <;> cases sign'
      all_goals
        simp only [UnpackedFloat.compare, place, Sign.apply, Option.some.injEq, lt_eq_compare,
          gt_eq_compare]
        omega
  | zero sign =>
    cases hv with
    | infinity sign' => cases sign' <;> rfl
    | zero sign' => rfl
    | finite sign' h =>
      obtain ⟨hpos, -, hleast, -, -⟩ := h
      cases sign'
      all_goals
        simp only [UnpackedFloat.compare, place, Sign.apply, Option.some.injEq, lt_eq_compare,
          gt_eq_compare]
        omega
  | finite sign h =>
    have hm := h
    obtain ⟨hpos, -, hleast, -, hbounded⟩ := h
    cases hv with
    | infinity sign' =>
      cases sign <;> cases sign'
      all_goals
        simp only [UnpackedFloat.compare, place, Sign.apply, Option.some.injEq, lt_eq_compare,
          gt_eq_compare]
        omega
    | zero sign' =>
      cases sign
      all_goals
        simp only [UnpackedFloat.compare, place, Sign.apply, Option.some.injEq, lt_eq_compare,
          gt_eq_compare]
        omega
    | finite sign' hn =>
      have hpos' := hn.pos
      have hleast' := hn.least
      cases sign <;> cases sign'
      case negative.negative =>
        simp only [UnpackedFloat.compare, place, Sign.apply, compare_finite hm hn, swap_compare]
      case positive.positive =>
        simp only [UnpackedFloat.compare, place, Sign.apply, compare_finite hm hn]
      all_goals
        simp only [UnpackedFloat.compare, place, Sign.apply, Option.some.injEq, lt_eq_compare,
          gt_eq_compare]
        omega

/-! ### Bits -/

theorem toNat_unpackSign (b : BitVec Format.binary64.numBits) :
    (unpackSign b).toNat = b.toNat / 2 ^ 63 := by
  have hlt : b.toNat < 2 ^ 64 := b.isLt
  unfold unpackSign
  rw [BitVec.toNat_cast, BitVec.extractLsb_toNat, Nat.shiftRight_eq_div_pow]
  change b.toNat / 2 ^ 63 % 2 = b.toNat / 2 ^ 63
  omega

theorem toNat_unpackExponent (b : BitVec Format.binary64.numBits) :
    (unpackExponent b).toNat = b.toNat / 2 ^ 52 % 2 ^ 11 := by
  unfold unpackExponent
  rw [BitVec.toNat_cast, BitVec.extractLsb_toNat, Nat.shiftRight_eq_div_pow]
  rfl

theorem toNat_unpackMantissa (b : BitVec Format.binary64.numBits) :
    (unpackMantissa b).toNat = b.toNat % 2 ^ 52 := by
  unfold unpackMantissa
  rw [BitVec.toNat_cast, BitVec.extractLsb_toNat, Nat.shiftRight_eq_div_pow]
  simp

theorem apply_unpackSign (b : BitVec Format.binary64.numBits) (n : Int) :
    (Sign.ofBitVec (unpackSign b)).apply n = if 2 ^ 63 ≤ b.toNat then -n else n := by
  have hsign := toNat_unpackSign b
  unfold Sign.ofBitVec
  by_cases hzero : unpackSign b = 0#1
  · rw [hzero, BitVec.toNat_ofNat] at hsign
    rw [if_pos hzero, if_neg (by omega)]
    rfl
  · have hne : (unpackSign b).toNat ≠ 0 := fun heq => hzero (BitVec.eq_of_toNat_eq heq)
    rw [if_neg hzero, if_pos (by omega)]
    rfl

def placeOfBits (bits : Nat) : Int :=
  if 2 ^ 63 ≤ bits then -((bits : Int) - 2 ^ 63) else bits

theorem isFinite_subnormal {m : Nat} (hpos : 0 < m) (h : m < 2 ^ 52) : IsFinite m (-1074) := by
  constructor <;> omega

theorem isFinite_normal {x m : Nat} (hpos : 0 < x) (hx : x < 2047) (h : m < 2 ^ 52) :
    IsFinite (2 ^ 52 + m) ((x : Int) - 1075) := by
  constructor <;> omega

variable {b : BitVec Format.binary64.numBits}

theorem place_infinity_of_bits (h : b.toNat % 2 ^ 63 = 2047 * 2 ^ 52) :
    place (.infinity (.ofBitVec (unpackSign b))) = placeOfBits b.toNat := by
  have hlt : b.toNat < 2 ^ 64 := b.isLt
  unfold placeOfBits
  rw [place, apply_unpackSign]
  split <;> omega

theorem place_zero_of_bits (sign : Sign) (h : b.toNat % 2 ^ 63 = 0) :
    place (.zero sign) = placeOfBits b.toNat := by
  have hlt : b.toNat < 2 ^ 64 := b.isLt
  unfold placeOfBits
  rw [place]
  split <;> omega

theorem place_finite_of_bits {m : Nat} {e : Int} {hm : 0 < m}
    (h : ((b.toNat % 2 ^ 63 : Nat) : Int) = (e + 1074) * 2 ^ 52 + m) :
    place (.finite (.ofBitVec (unpackSign b)) m e hm) = placeOfBits b.toNat := by
  have hlt : b.toNat < 2 ^ 64 := b.isLt
  unfold placeOfBits
  rw [place, apply_unpackSign]
  split <;> omega

def IsPlaced (b : BitVec Format.binary64.numBits) : Prop :=
  IsNumber (UnpackedFloat.unpack Format.binary64 b)
    ∧
  place (UnpackedFloat.unpack Format.binary64 b) = placeOfBits b.toNat

theorem isPlaced_of_greatest (hx : unpackExponent b = -BitVec.ofNat _ 1)
    (h : (UnpackedFloat.unpack Format.binary64 b).isNaN = false) : IsPlaced b := by
  have hexponent := toNat_unpackExponent b
  have hmantissa := toNat_unpackMantissa b
  have hfield : b.toNat / 2 ^ 52 % 2 ^ 11 = 2047 := by
    rw [← hexponent, hx]
    rfl
  unfold IsPlaced
  unfold UnpackedFloat.unpack at h ⊢
  dsimp only at h ⊢
  rw [if_pos hx] at h ⊢
  split at h
  next hm =>
    have hfraction : b.toNat % 2 ^ 52 = 0 := by
      rw [← hmantissa, hm]
      rfl
    rw [if_pos hm]
    refine ⟨.infinity _, place_infinity_of_bits ?_⟩
    omega
  next => contradiction

theorem isPlaced_of_least (hx : unpackExponent b = BitVec.ofNat _ 0) :
    IsPlaced b := by
  have hexponent := toNat_unpackExponent b
  have hmantissa := toNat_unpackMantissa b
  have hne : unpackExponent b ≠ -BitVec.ofNat _ 1 := by
    rw [hx]
    decide
  have hfield : b.toNat / 2 ^ 52 % 2 ^ 11 = 0 := by
    rw [← hexponent, hx]
    rfl
  unfold IsPlaced UnpackedFloat.unpack
  dsimp only
  rw [if_neg hne, if_pos hx]
  split
  next hm =>
    have hfraction : b.toNat % 2 ^ 52 = 0 := by
      rw [← hmantissa, hm]
      rfl
    refine ⟨.zero _, place_zero_of_bits _ ?_⟩
    omega
  next hm =>
    have hleast : ((unpackExponent b).toNat : Int)
        - (Format.binary64.exponentBias + Format.binary64.mantissaBitsWithoutImplicit) + 1
        = -1074 := by
      rw [hx]
      rfl
    simp only [hleast]
    have hfinite := isFinite_subnormal (BitVec.toNat_pos_of_ne_zero hm) (by omega)
    refine ⟨.finite _ hfinite, place_finite_of_bits ?_⟩
    omega

theorem isPlaced_of_between (hgreatest : unpackExponent b ≠ -BitVec.ofNat _ 1)
    (hleast : unpackExponent b ≠ BitVec.ofNat _ 0) : IsPlaced b := by
  have hexponent := toNat_unpackExponent b
  have hmantissa := toNat_unpackMantissa b
  have hlt : b.toNat / 2 ^ 52 % 2 ^ 11 ≠ 2047 := by
    rw [← hexponent]
    intro heq
    exact hgreatest (BitVec.eq_of_toNat_eq heq)
  have hpos : b.toNat / 2 ^ 52 % 2 ^ 11 ≠ 0 := by
    rw [← hexponent]
    intro heq
    exact hleast (BitVec.eq_of_toNat_eq heq)
  have hbias : (Format.binary64.exponentBias : Int)
      + Format.binary64.mantissaBitsWithoutImplicit = 1075 := rfl
  have hm : (1#1 ++ unpackMantissa b).toNat = 2 ^ 52 + (unpackMantissa b).toNat :=
    toNat_append_one _
  unfold IsPlaced UnpackedFloat.unpack
  dsimp only
  rw [if_neg hgreatest, if_neg hleast]
  simp only [hbias, hm]
  have hfinite := isFinite_normal (x := (unpackExponent b).toNat)
    (m := (unpackMantissa b).toNat) (by omega) (by omega) (by omega)
  refine ⟨.finite _ hfinite, place_finite_of_bits ?_⟩
  omega

theorem isPlaced (h : (UnpackedFloat.unpack Format.binary64 b).isNaN = false) : IsPlaced b := by
  by_cases hgreatest : unpackExponent b = -BitVec.ofNat _ 1
  · exact isPlaced_of_greatest hgreatest h
  by_cases hleast : unpackExponent b = BitVec.ofNat _ 0
  · exact isPlaced_of_least hleast
  · exact isPlaced_of_between hgreatest hleast

/-! ### Order -/

variable {x y z : Float}

def placeOf (x : Float) : Int :=
  placeOfBits x.toBits.toNat

theorem unpack_of_isNaN (h : x.isNaN = true) : x.toModel.unpack = .notANumber := by
  change x.toModel.unpack.isNaN = true at h
  cases hx : x.toModel.unpack <;> simp_all [UnpackedFloat.isNaN]

theorem compare_eq_none (h : x.isNaN = true ∨ y.isNaN = true) :
    x.toModel.unpack.compare y.toModel.unpack = none := by
  rcases h with h | h
  · rw [unpack_of_isNaN h]
    rfl
  · rw [unpack_of_isNaN h]
    cases x.toModel.unpack with
    | infinity sign => cases sign <;> rfl
    | zero => rfl
    | notANumber => rfl
    | finite sign => cases sign <;> rfl

theorem compare_eq_some (hx : x.isNaN = false) (hy : y.isNaN = false) :
    x.toModel.unpack.compare y.toModel.unpack = some (compare (placeOf x) (placeOf y)) := by
  obtain ⟨hu, hux⟩ := isPlaced hx
  obtain ⟨hv, hvy⟩ := isPlaced hy
  unfold placeOf
  change _ = some (compare (placeOfBits x.toModel.toBits.toBitVec.toNat)
    (placeOfBits y.toModel.toBits.toBitVec.toNat))
  rw [← hux, ← hvy]
  exact compare_eq_place hu hv

theorem le_iff : x ≤ y ↔ x.isNaN = false ∧ y.isNaN = false ∧ placeOf x ≤ placeOf y := by
  have hle : x ≤ y ↔ (x.toModel.unpack.compare y.toModel.unpack).any (·.isLE) = true :=
    decide_eq_true_iff
  rw [hle]
  by_cases hnan : x.isNaN = true ∨ y.isNaN = true
  · rw [compare_eq_none hnan]
    rcases hnan with h | h <;> simp only [h, Option.any_none, reduceCtorEq, false_and, and_false]
  · rw [not_or, Bool.not_eq_true, Bool.not_eq_true] at hnan
    rw [compare_eq_some hnan.1 hnan.2, Option.any_some, Ordering.isLE_iff_ne_gt]
    simp only [compare_gt_iff_gt, not_lt, hnan, true_and]

theorem lt_iff : x < y ↔ x.isNaN = false ∧ y.isNaN = false ∧ placeOf x < placeOf y := by
  have hlt : x < y ↔ (x.toModel.unpack.compare y.toModel.unpack == some .lt) = true :=
    decide_eq_true_iff
  rw [hlt]
  by_cases hnan : x.isNaN = true ∨ y.isNaN = true
  · rw [compare_eq_none hnan]
    rcases hnan with h | h <;> simp only [h, reduceCtorEq, false_and, and_false] <;> simp
  · rw [not_or, Bool.not_eq_true, Bool.not_eq_true] at hnan
    rw [compare_eq_some hnan.1 hnan.2]
    simp only [hnan, true_and, beq_iff_eq, Option.some.injEq, compare_lt_iff_lt]

theorem le_trans (hxy : x ≤ y) (hyz : y ≤ z) : x ≤ z := by
  rw [le_iff] at hxy hyz ⊢
  exact ⟨hxy.1, hyz.2.1, hxy.2.2.trans hyz.2.2⟩

theorem rank_lt_of_lt (h : x < y) : rank x < rank y := by
  obtain ⟨-, -, hplace⟩ := lt_iff.mp h
  unfold placeOf placeOfBits at hplace
  unfold rank
  simp only [Nat.pow_eq]
  split_ifs at hplace ⊢ <;> omega

theorem le_of_rank_le (hx : x.isNaN = false) (hy : y.isNaN = false) (h : rank x ≤ rank y) :
    x ≤ y := by
  rw [le_iff]
  refine ⟨hx, hy, ?_⟩
  by_contra hlt
  have hrank := rank_lt_of_lt (lt_iff.mpr ⟨hy, hx, not_le.mp hlt⟩)
  omega

/-! ### Equality -/

theorem rank_injective (h : rank x = rank y) : x = y := by
  have hx := x.toBits.toNat_lt
  have hy := y.toBits.toNat_lt
  unfold rank at h
  simp only [Nat.pow_eq] at h
  apply eq_of_toNat_toBits
  split_ifs at h <;> omega

theorem totalCompare_eq_iff : totalCompare x y = .eq ↔ x = y := by
  rw [totalCompare, compare_eq_iff_eq]
  exact ⟨rank_injective, fun h => congrArg rank h⟩

theorem beq_iff :
    (x == y) = true ↔ x.isNaN = false ∧ y.isNaN = false ∧ placeOf x = placeOf y := by
  have hbeq : (x == y) = (x.toModel.unpack.compare y.toModel.unpack == some .eq) := rfl
  rw [hbeq]
  by_cases hnan : x.isNaN = true ∨ y.isNaN = true
  · rw [compare_eq_none hnan]
    rcases hnan with h | h <;> simp only [h, reduceCtorEq, false_and, and_false] <;> simp
  · rw [not_or, Bool.not_eq_true, Bool.not_eq_true] at hnan
    rw [compare_eq_some hnan.1 hnan.2]
    simp only [hnan, true_and, beq_iff_eq, Option.some.injEq, compare_eq_iff_eq]

theorem beq_zero_iff : (x == 0.0) = true ↔ x.isNaN = false ∧ placeOf x = 0 := by
  have hzero : (0.0 : Float).isNaN = false ∧ placeOf 0.0 = 0 := by decide +kernel
  rw [beq_iff, hzero.1, hzero.2]
  simp

/--
The two zeros, one of each sign. They are equal and not the same.
-/
def AreZeros (x y : Float) : Prop :=
  (x == 0.0) = true ∧ (y == 0.0) = true ∧ x ≠ y

theorem eq_of_placeOf_eq (h : placeOf x = placeOf y) (hx : placeOf x ≠ 0) : x = y := by
  unfold placeOf placeOfBits at h hx
  have hlt := x.toBits.toNat_lt
  have hlt' := y.toBits.toNat_lt
  apply eq_of_toNat_toBits
  split_ifs at h hx <;> omega

/--
A double is equal to a number if and only if neither comes before the other in the total order,
unless they are the two zeros.
-/
theorem beq_iff_totalCompare_eq_iff (h : x.isNaN = false ∨ y.isNaN = false) :
    ((x == y) = true ↔ totalCompare x y = .eq) ↔ ¬ AreZeros x y := by
  rw [totalCompare_eq_iff, AreZeros, beq_iff, beq_zero_iff, beq_zero_iff]
  by_cases heq : x = y
  · subst heq
    simpa using h
  · -- different numbers at the same place are the two zeros
    have hplace : placeOf x = placeOf y ↔ placeOf x = 0 ∧ placeOf y = 0 := by
      constructor
      · intro h
        by_contra hzero
        exact heq (eq_of_placeOf_eq h (by omega))
      · intro h
        rw [h.1, h.2]
    simp only [heq, hplace]
    tauto

theorem beq_self_of_isNaN (h : x.isNaN = true) : (x == x) = false := by
  rw [← Bool.not_eq_true, beq_iff, h]
  simp

theorem totalCompare_self (x : Float) : totalCompare x x = .eq :=
  totalCompare_eq_iff.mpr rfl

/-! ### Numbers in order -/

/--
Numbers of which any two are in order, and equal only if they are the same.
-/
def IsTotalOn (P : Float → Prop) : Prop :=
  ∀ x y, P x → P y → (x ≤ y ∨ y ≤ x) ∧ (x ≤ y → y ≤ x → x = y)

variable {P : Float → Prop}

theorem IsTotalOn.isNaN_eq (h : IsTotalOn P) (hx : P x) : x.isNaN = false := by
  have hle : x ≤ x := by simpa using (h x x hx hx).1
  exact (le_iff.mp hle).1

theorem IsTotalOn.lt_iff_rank_lt (h : IsTotalOn P) (hx : P x) (hy : P y) :
    x < y ↔ rank x < rank y := by
  constructor
  · exact rank_lt_of_lt
  · intro hrank
    have hle : x ≤ y := le_of_rank_le (h.isNaN_eq hx) (h.isNaN_eq hy) hrank.le
    by_contra hlt
    have hge : y ≤ x := by
      rw [lt_iff] at hlt
      rw [le_iff] at hle ⊢
      refine ⟨hle.2.1, hle.1, ?_⟩
      by_contra hgt
      exact hlt ⟨hle.1, hle.2.1, not_le.mp hgt⟩
    rw [(h x y hx hy).2 hle hge] at hrank
    exact lt_irrefl _ hrank

end Float64
end DerivedQuery
