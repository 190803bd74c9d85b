import DerivedQuery.Decimal.Binary64
import Mathlib

/-!
This module contains that a number of 64 bits is its own quotient by one, and its own product with
one. The quotient of the unpacked numbers has the same mantissa and exponent, and packing gives the
same bits back.
-/

open Float.Model Float.Model.UnpackedFloat

namespace DerivedQuery
namespace Float64

structure IsStored (m : Nat) (e : Int) : Prop where
  positive : 0 < m
  exponent : Format.binary64.targetExponent (totalExponent m e) = e

theorem targetExponent_eq (total : Int) :
    Format.binary64.targetExponent total = max (total - 53) (-1074) := by
  rfl

theorem isStored_iff {m : Nat} {e : Int} :
    IsStored m e ↔ 0 < m ∧ max ((m.log2 : Int) + 1 + e - 53) (-1074) = e := by
  constructor
  · intro h
    have hexponent := h.exponent
    rw [targetExponent_eq] at hexponent
    exact ⟨h.positive, hexponent⟩
  · intro h
    exact ⟨h.1, h.2⟩

theorem log2_of_normal {m : Nat} (hm : 2 ^ 52 ≤ m) (hlt : m < 2 ^ 53) : m.log2 = 52 := by
  rw [Nat.log2_eq_iff (by omega)]
  exact ⟨hm, hlt⟩

theorem isStored_of_normal {m : Nat} {e : Int} (hm : 2 ^ 52 ≤ m) (hlt : m < 2 ^ 53)
    (he : -1074 ≤ e) : IsStored m e := by
  rw [isStored_iff, log2_of_normal hm hlt]
  omega

/-! ### Rounding -/

theorem log2_mul_two_pow {m : Nat} (hm : 0 < m) (k : Nat) : (m * 2 ^ k).log2 = m.log2 + k := by
  induction k with
  | zero => simp
  | succ k ih =>
    have hne : m * 2 ^ k ≠ 0 := (Nat.mul_pos hm (Nat.two_pow_pos k)).ne'
    rw [Nat.pow_succ', Nat.mul_left_comm, Nat.log2_two_mul hne, ih, Nat.add_assoc]

theorem repeat_shiftRightOne_mul_two_pow (m k : Nat) :
    Nat.repeat ExtendedMantissa.shiftRightOne k ⟨m * 2 ^ k, false, false⟩ = ⟨m, false, false⟩ := by
  induction k generalizing m with
  | zero => simp [Nat.repeat]
  | succ k ih =>
    rw [Nat.repeat, Nat.pow_succ', ← Nat.mul_assoc, ih]
    simp [ExtendedMantissa.shiftRightOne]

/--
The bits that the format does not store are shifted out again.
-/
theorem shiftToTargetExponent_mul_two_pow {m : Nat} {e : Int} (h : IsStored m e) (k : Nat) :
    shiftToTargetExponent Format.binary64 (m * 2 ^ k) (e - k) .exact
      =
    (⟨m, false, false⟩, e) := by
  have htotal : totalExponent (m * 2 ^ k) (e - k) = totalExponent m e := by
    unfold totalExponent
    rw [log2_mul_two_pow h.positive]
    omega
  unfold shiftToTargetExponent shiftToExponent
  rw [htotal, h.exponent]
  have hshift : (e - (e - k)).toNat = k := by omega
  dsimp only
  rw [hshift]
  refine Prod.ext (repeat_shiftRightOne_mul_two_pow m k) ?_
  dsimp only
  omega

theorem shiftToTargetExponent_of_isStored {m : Nat} {e : Int} (h : IsStored m e) :
    shiftToTargetExponent Format.binary64 m e .exact = (⟨m, false, false⟩, e) := by
  simpa using shiftToTargetExponent_mul_two_pow h 0

/--
The first shift rounds, and the second one only moves a carry.
-/
theorem roundWithAccuracy_of_shift {m n : Nat} {em : ExtendedMantissa} {e k l : Int} (sign : Sign)
    (h : IsStored m e) (hfirst : shiftToTargetExponent Format.binary64 n k .exact = (em, l))
    (hsecond : shiftToTargetExponent Format.binary64 em.roundedMantissa l .exact
      = (⟨m, false, false⟩, e)) :
    roundWithAccuracy Format.binary64 sign n k .exact = .finite sign m e h.positive := by
  unfold roundWithAccuracy
  rw [hfirst]
  dsimp only
  rw [hsecond]
  simp [h.positive.ne']

theorem roundWithAccuracy_eq {m n : Nat} {e k : Int} (sign : Sign) (h : IsStored m e)
    (hshift : shiftToTargetExponent Format.binary64 n k .exact = (⟨m, false, false⟩, e)) :
    roundWithAccuracy Format.binary64 sign n k .exact = .finite sign m e h.positive :=
  roundWithAccuracy_of_shift sign h hshift (shiftToTargetExponent_of_isStored h)

/-! ### Division -/

theorem toModel_one :
    (1.0 : Float).toModel.unpack = .finite .positive (2 ^ 52) (-52) (by decide) := by
  rfl

theorem divCore_one {m : Nat} {e : Int} (h : IsStored m e) :
    divCore Format.binary64 m e (2 ^ 52) (-52) = (m, e, .exact)
      ∨
    divCore Format.binary64 m e (2 ^ 52) (-52) = (m * 2 ^ 1, e - (1 : Nat), .exact) := by
  rw [isStored_iff] at h
  obtain ⟨hpos, hexponent⟩ := h
  have htotal : totalExponent m e - totalExponent (2 ^ 52) (-52) = (m.log2 : Int) + e := by
    unfold totalExponent
    rw [Nat.log2_two_pow]
    omega
  unfold divCore
  rw [htotal, targetExponent_eq]
  by_cases hleast : e = -1074
  · -- the exponent cannot get any smaller
    left
    have htarget : min (e - -52) (max ((m.log2 : Int) + e - 53) (-1074)) = e := by omega
    have hshift : (e - -52 - e).toNat = 52 := by omega
    dsimp only
    rw [htarget, hshift, Nat.shiftLeft_eq]
    simp [accuracyOfFraction]
  · -- one bit more than the mantissa is worked out
    right
    have htarget : min (e - -52) (max ((m.log2 : Int) + e - 53) (-1074)) = e - 1 := by omega
    have hshift : (e - -52 - (e - 1)).toNat = 53 := by omega
    have hmul : m * 2 ^ 53 = m * 2 ^ 1 * 2 ^ 52 := by omega
    dsimp only
    rw [htarget, hshift, Nat.shiftLeft_eq, hmul]
    simp [accuracyOfFraction]

theorem div_one_of_isStored {m : Nat} {e : Int} (sign : Sign) (h : IsStored m e) :
    UnpackedFloat.div Format.binary64 (.finite sign m e h.positive)
        (.finite .positive (2 ^ 52) (-52) (by decide))
      =
    .finite sign m e h.positive := by
  have hsign : sign / Sign.positive = sign := by cases sign <;> rfl
  unfold UnpackedFloat.div
  dsimp only
  rw [hsign]
  rcases divCore_one h with hcore | hcore
  · rw [hcore]
    exact roundWithAccuracy_eq sign h (shiftToTargetExponent_of_isStored h)
  · rw [hcore]
    exact roundWithAccuracy_eq sign h (shiftToTargetExponent_mul_two_pow h 1)

theorem mul_one_of_isStored {m : Nat} {e : Int} (sign : Sign) (h : IsStored m e) :
    UnpackedFloat.mul Format.binary64 (.finite sign m e h.positive)
        (.finite .positive (2 ^ 52) (-52) (by decide))
      =
    .finite sign m e h.positive := by
  have hsign : sign * Sign.positive = sign := by cases sign <;> rfl
  unfold UnpackedFloat.mul
  dsimp only
  rw [hsign]
  exact roundWithAccuracy_eq sign h (shiftToTargetExponent_mul_two_pow h 52)

/-! ### Packing -/

theorem toBitVec_ofBitVec (s : BitVec 1) : (Sign.ofBitVec s).toBitVec = s := by
  revert s
  decide

theorem append_eq {x : BitVec 1} {y : BitVec 11} {z : BitVec 52} {b : BitVec (1 + 11 + 52)}
    (hx : ∀ i < 1, x.getLsbD i = b.getLsbD (63 + i))
    (hy : ∀ i < 11, y.getLsbD i = b.getLsbD (52 + i)) (hz : ∀ i < 52, z.getLsbD i = b.getLsbD i) :
    x ++ y ++ z = b := by
  apply BitVec.eq_of_getLsbD_eq
  intro i hi
  rw [BitVec.getLsbD_append, BitVec.getLsbD_append]
  split
  · apply hz
    assumption
  · split
    · rw [hy _ (by assumption)]
      congr 1
      omega
    · rw [hx _ (by omega)]
      congr 1
      omega

theorem packComponents_unpack (b : BitVec Format.binary64.numBits) :
    packComponents Format.binary64 (Sign.ofBitVec (unpackSign b)) (unpackExponent b)
        (unpackMantissa b)
      =
    b := by
  unfold packComponents
  rw [toBitVec_ofBitVec]
  unfold unpackSign unpackExponent unpackMantissa
  apply append_eq
  · intro i hi
    rw [BitVec.getLsbD_cast, BitVec.getLsbD_extractLsb]
    simp
    omega
  · intro i hi
    rw [BitVec.getLsbD_cast, BitVec.getLsbD_extractLsb]
    simp
    omega
  · intro i hi
    rw [BitVec.getLsbD_cast, BitVec.getLsbD_extractLsb]
    simp
    omega

theorem toNat_append_one (m : BitVec 52) : (1#1 ++ m).toNat = 2 ^ 52 + m.toNat := by
  rw [BitVec.toNat_append, ← Nat.shiftLeft_add_eq_or_of_lt m.isLt]
  rfl

theorem log2_lt_of_lt {m : Nat} (hpos : 0 < m) (h : m < 2 ^ 52) : m.log2 < 52 := by
  rw [Nat.log2_lt (by omega)]
  exact h

theorem pack_normal {sign : Sign} {x : BitVec 11} {m : BitVec 52} {h : 0 < (1#1 ++ m).toNat}
    (hx : x ≠ -1#_) :
    pack Format.binary64 (.finite sign (1#1 ++ m).toNat (x.toNat - 1075) h)
      =
    packComponents Format.binary64 sign x m := by
  have hlt : x.toNat + 1 < 2 ^ 11 := by
    have hne : x.toNat ≠ 2 ^ 11 - 1 := by
      intro heq
      apply hx
      apply BitVec.eq_of_toNat_eq
      rw [heq]
      rfl
    have := x.isLt
    omega
  have hbiased : ((x.toNat : Int) - 1075 + 1023 + 52).toNat = x.toNat := by omega
  have hm : BitVec.ofNat 52 (1#1 ++ m).toNat = m := by
    apply BitVec.eq_of_toNat_eq
    rw [toNat_append_one, BitVec.toNat_ofNat, Nat.add_mod_left, Nat.mod_eq_of_lt m.isLt]
  have hlog : (1#1 ++ m).toNat.log2 + 1 = Format.binary64.mantissaBits := by
    have hlt := m.isLt
    rw [toNat_append_one, log2_of_normal (by omega) (by omega)]
    rfl
  unfold UnpackedFloat.pack
  dsimp only
  rw [if_pos hlog, if_neg]
  · change packComponents Format.binary64 sign
      (BitVec.ofNat 11 ((x.toNat : Int) - 1075 + 1023 + 52).toNat) _ = _
    rw [hbiased, hm, BitVec.ofNat_toNat, BitVec.setWidth_eq]
  · change ¬ 2 ^ 11 ≤ ((x.toNat : Int) - 1075 + 1023 + 52).toNat + 1
    omega

theorem pack_subnormal {sign : Sign} {m : BitVec 52} {h : 0 < m.toNat} :
    pack Format.binary64 (.finite sign m.toNat (-1074) h)
      =
    packComponents Format.binary64 sign 0#_ m := by
  have hlog : ¬ m.toNat.log2 + 1 = Format.binary64.mantissaBits := by
    have hlt := log2_lt_of_lt h m.isLt
    change ¬ m.toNat.log2 + 1 = 53
    omega
  unfold UnpackedFloat.pack
  dsimp only
  rw [if_neg hlog, if_neg]
  · rw [BitVec.ofNat_toNat, BitVec.setWidth_eq]
  · decide

theorem pack_unpack {b : BitVec Format.binary64.numBits} (hb : Format.binary64.Valid b) :
    pack Format.binary64 (unpack Format.binary64 b) = b := by
  -- infinite or not a number, then zero or subnormal, then normal
  conv_rhs =>
    rw [← packComponents_unpack b]
  unfold UnpackedFloat.unpack
  dsimp only
  split
  next hx =>
    split
    next hm =>
      rw [hx, hm]
      rfl
    next hm =>
      rw [packComponents_unpack, hb.eq_packedNaN hx hm]
      rfl
  next hx =>
    split
    next hx =>
      split
      next hm =>
        rw [hx, hm]
        rfl
      next hm =>
        rw [hx]
        exact pack_subnormal
    next =>
      exact pack_normal hx

theorem isStored_normal (x : BitVec 11) (m : BitVec 52) (hx : x ≠ 0#_) :
    IsStored (1#1 ++ m).toNat (x.toNat - 1075) := by
  have hpos : x.toNat ≠ 0 := by
    intro hzero
    apply hx
    apply BitVec.eq_of_toNat_eq
    rw [hzero]
    rfl
  have hlt := m.isLt
  rw [toNat_append_one]
  exact isStored_of_normal (by omega) (by omega) (by omega)

theorem isStored_subnormal {m : BitVec 52} (h : 0 < m.toNat) : IsStored m.toNat (-1074) := by
  have hlog := log2_lt_of_lt h m.isLt
  rw [isStored_iff]
  omega

inductive IsCanonical : UnpackedFloat → Prop where
  | notANumber : IsCanonical .notANumber
  | infinity (sign : Sign) : IsCanonical (.infinity sign)
  | zero (sign : Sign) : IsCanonical (.zero sign)
  | finite (sign : Sign) {m : Nat} {e : Int} (h : IsStored m e) :
    IsCanonical (.finite sign m e h.positive)

theorem isCanonical_unpack (b : BitVec Format.binary64.numBits) :
    IsCanonical (unpack Format.binary64 b) := by
  unfold UnpackedFloat.unpack
  dsimp only
  split
  · split
    · exact .infinity _
    · exact .notANumber
  · split
    next hx =>
      split
      · exact .zero _
      next hm =>
        have hpos := BitVec.toNat_pos_of_ne_zero hm
        rw [hx]
        exact .finite _ (isStored_subnormal hpos)
    next hx => exact .finite _ (isStored_normal _ _ hx)

theorem IsCanonical.div_one {u : UnpackedFloat} (h : IsCanonical u) :
    UnpackedFloat.div Format.binary64 u (.finite .positive (2 ^ 52) (-52) (by decide)) = u := by
  cases h with
  | notANumber => rfl
  | infinity sign => cases sign <;> rfl
  | zero sign => cases sign <;> rfl
  | finite sign h => exact div_one_of_isStored sign h

theorem IsCanonical.mul_one {u : UnpackedFloat} (h : IsCanonical u) :
    UnpackedFloat.mul Format.binary64 u (.finite .positive (2 ^ 52) (-52) (by decide)) = u := by
  cases h with
  | notANumber => rfl
  | infinity sign => cases sign <;> rfl
  | zero sign => cases sign <;> rfl
  | finite sign h => exact mul_one_of_isStored sign h

theorem eq_of_toNat_toBits {x y : Float} (h : x.toBits.toNat = y.toBits.toNat) : x = y := by
  have hbits : x.toModel.toBits = y.toModel.toBits := UInt64.toNat_inj.mp h
  have hmodel : x.toModel = y.toModel := by rwa [Float.Model.mk.injEq]
  change Float.ofModel x.toModel = Float.ofModel y.toModel
  rw [hmodel]

theorem div_one (x : Float) : x / 1.0 = x := by
  have hbits : (x / 1.0).toModel.toBits.toBitVec = x.toModel.toBits.toBitVec := by
    change UnpackedFloat.pack Format.binary64
        (UnpackedFloat.div Format.binary64 x.toModel.unpack (1.0 : Float).toModel.unpack) = _
    have hx : IsCanonical x.toModel.unpack := isCanonical_unpack _
    rw [toModel_one, hx.div_one]
    exact pack_unpack x.toModel.valid
  exact eq_of_toNat_toBits (congrArg BitVec.toNat hbits)

theorem mul_one (x : Float) : x * 1.0 = x := by
  have hbits : (x * 1.0).toModel.toBits.toBitVec = x.toModel.toBits.toBitVec := by
    change UnpackedFloat.pack Format.binary64
        (UnpackedFloat.mul Format.binary64 x.toModel.unpack (1.0 : Float).toModel.unpack) = _
    have hx : IsCanonical x.toModel.unpack := isCanonical_unpack _
    rw [toModel_one, hx.mul_one]
    exact pack_unpack x.toModel.valid
  exact eq_of_toNat_toBits (congrArg BitVec.toNat hbits)

end Float64
end DerivedQuery
