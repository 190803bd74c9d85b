import DerivedQuery.Proofs.Decimal.NumberOrder

/-!
This module contains how a whole number times a power of two is rounded to a double: the number is
divided by the power of two that leaves 53 bits, the quotient is rounded to the nearest number, a
half going to the even neighbour, and the bits of the double are the exponent and the quotient.
-/

open Float.Model Float.Model.UnpackedFloat

namespace DerivedQuery
namespace Float64

/-! ### Quotients -/

/--
The whole number nearest to `n / unit`. A half goes to the even neighbour.
-/
def nearestQuotient (n unit : Nat) : Nat :=
  if unit < 2 * (n % unit) ∨ unit = 2 * (n % unit) ∧ n / unit % 2 = 1 then n / unit + 1
  else n / unit

theorem nearestQuotient_eq (n unit : Nat) :
    nearestQuotient n unit = n / unit ∨ nearestQuotient n unit = n / unit + 1 := by
  unfold nearestQuotient
  split
  · exact .inr rfl
  · exact .inl rfl

theorem nearestQuotient_of_dvd {n unit : Nat} (hunit : 0 < unit) (h : unit ∣ n) :
    nearestQuotient n unit = n / unit := by
  unfold nearestQuotient
  rw [Nat.mod_eq_zero_of_dvd h, if_neg]
  omega

theorem nearestQuotient_mul_mul (n unit : Nat) {c : Nat} (hc : 0 < c) :
    nearestQuotient (n * c) (unit * c) = nearestQuotient n unit := by
  have hrest : 2 * (n % unit * c) = 2 * (n % unit) * c := (Nat.mul_assoc ..).symm
  unfold nearestQuotient
  rw [Nat.mul_mod_mul_right, Nat.mul_div_mul_right _ _ hc, hrest]
  simp only [Nat.mul_lt_mul_right hc, Nat.mul_left_inj hc.ne']

theorem nearestQuotient_mono {m n : Nat} (unit : Nat) (h : m ≤ n) :
    nearestQuotient m unit ≤ nearestQuotient n unit := by
  have hquotient : m / unit ≤ n / unit := Nat.div_le_div_right h
  rcases hquotient.lt_or_eq with hlt | heq
  · rcases nearestQuotient_eq m unit with hm | hm <;>
      rcases nearestQuotient_eq n unit with hn | hn <;> omega
  · have hrest : m % unit ≤ n % unit := by
      have hm := Nat.div_add_mod m unit
      have hn := Nat.div_add_mod n unit
      rw [heq] at hm
      omega
    unfold nearestQuotient
    rw [heq]
    split_ifs <;> omega

/-! ### Shifting -/

/--
A quotient whose two last bits say how the rest compares with zero and with the half of the unit.
-/
def withRest (quotient rest unit : Nat) : ExtendedMantissa :=
  ⟨quotient, decide (unit ≤ 2 * rest), decide (rest ≠ 0 ∧ unit ≠ 2 * rest)⟩

theorem shiftRightOne_withRest {quotient rest unit : Nat} (h : rest < unit) :
    (withRest quotient rest unit).shiftRightOne
      =
    withRest (quotient / 2) (rest + unit * (quotient % 2)) (unit * 2) := by
  unfold withRest ExtendedMantissa.shiftRightOne
  rcases Nat.mod_two_eq_zero_or_one quotient with hbit | hbit
  · have hround : ¬ unit * 2 ≤ 2 * rest := by omega
    have hsticky : unit ≤ 2 * rest ∨ rest ≠ 0 ∧ unit ≠ 2 * rest
        ↔ rest ≠ 0 ∧ unit * 2 ≠ 2 * rest := by omega
    simp only [hbit, Nat.mul_zero, Nat.add_zero, hround, ← hsticky, decide_false, Bool.decide_or]
    rfl
  · have hround : unit * 2 ≤ 2 * (rest + unit) := by omega
    have hsticky : unit ≤ 2 * rest ∨ rest ≠ 0 ∧ unit ≠ 2 * rest
        ↔ rest + unit ≠ 0 ∧ unit * 2 ≠ 2 * (rest + unit) := by omega
    simp only [hbit, Nat.mul_one, hround, ← hsticky, decide_true, Bool.decide_or]
    rfl

theorem repeat_shiftRightOne (n s : Nat) :
    Nat.repeat ExtendedMantissa.shiftRightOne s ⟨n, false, false⟩
      =
    withRest (n / 2 ^ s) (n % 2 ^ s) (2 ^ s) := by
  induction s with
  | zero => simp [Nat.repeat, withRest, Nat.mod_one]
  | succ s ih =>
    rw [Nat.repeat, ih, shiftRightOne_withRest (Nat.mod_lt n (Nat.two_pow_pos s)),
      Nat.div_div_eq_div_mul, ← Nat.pow_succ, ← Nat.mod_pow_succ]

theorem roundedMantissa_withRest {n unit : Nat} (hunit : 0 < unit) :
    (withRest (n / unit) (n % unit) unit).roundedMantissa = nearestQuotient n unit := by
  unfold withRest nearestQuotient ExtendedMantissa.roundedMantissa
  by_cases hround : unit ≤ 2 * (n % unit)
  · by_cases hsticky : n % unit ≠ 0 ∧ unit ≠ 2 * (n % unit)
    · rw [decide_eq_true hround, decide_eq_true hsticky, if_pos (by omega)]
      rfl
    · have hhalf : unit = 2 * (n % unit) := by omega
      rw [decide_eq_true hround, decide_eq_false hsticky]
      change n / unit + n / unit % 2 = _
      split_ifs <;> omega
  · rw [decide_eq_false hround, if_neg (by omega)]
    by_cases hsticky : n % unit ≠ 0 ∧ unit ≠ 2 * (n % unit)
    · rw [decide_eq_true hsticky]
      rfl
    · rw [decide_eq_false hsticky]
      rfl

/-! ### Rounding -/

theorem two_pow_sub_le {n k : Nat} (hn : 0 < n) (hk : k ≤ n.log2) :
    2 ^ (n.log2 - k) * 2 ^ k ≤ n ∧ n < 2 ^ (n.log2 - k) * 2 ^ (k + 1) := by
  have hself := Nat.log2_self_le hn.ne'
  have hlt := Nat.lt_log2_self (n := n)
  rw [← Nat.pow_add, ← Nat.pow_add, Nat.sub_add_cancel hk, ← Nat.add_assoc, Nat.sub_add_cancel hk]
  exact ⟨hself, hlt⟩

theorem nearestQuotient_bounds {n : Nat} (hn : 0 < n) (h : 52 ≤ n.log2) :
    2 ^ 52 ≤ nearestQuotient n (2 ^ (n.log2 - 52))
      ∧
    nearestQuotient n (2 ^ (n.log2 - 52)) ≤ 2 ^ 53 := by
  obtain ⟨hge, hlt⟩ := two_pow_sub_le hn h
  have hpos := Nat.two_pow_pos (n.log2 - 52)
  have hle : 2 ^ 52 ≤ n / 2 ^ (n.log2 - 52) := by
    rw [Nat.le_div_iff_mul_le hpos, Nat.mul_comm]
    exact hge
  have hdiv : n / 2 ^ (n.log2 - 52) < 2 ^ 53 := by
    rw [Nat.div_lt_iff_lt_mul hpos, Nat.mul_comm]
    exact hlt
  rcases nearestQuotient_eq n (2 ^ (n.log2 - 52)) with heq | heq <;> omega

theorem shiftToTargetExponent_eq {n : Nat} {e : Int} (h : 52 ≤ n.log2)
    (hleast : -1074 ≤ n.log2 - 52 + e) :
    shiftToTargetExponent Format.binary64 n e .exact
      =
    (withRest (n / 2 ^ (n.log2 - 52)) (n % 2 ^ (n.log2 - 52)) (2 ^ (n.log2 - 52)),
      n.log2 - 52 + e) := by
  have htarget : max (totalExponent n e - 53) (-1074) = n.log2 - 52 + e := by
    unfold totalExponent
    omega
  have hshift : ((n.log2 : Int) - 52 + e - e).toNat = n.log2 - 52 := by omega
  unfold shiftToTargetExponent shiftToExponent
  rw [targetExponent_eq, htarget]
  dsimp only
  rw [hshift]
  refine Prod.ext (repeat_shiftRightOne n (n.log2 - 52)) ?_
  dsimp only
  omega

/--
A number of at least 53 bits is rounded to its first 53 bits. A carry out of these moves to the
exponent.
-/
theorem exists_roundWithAccuracy_eq (sign : Sign) {n : Nat} {e : Int} (hn : 0 < n)
    (h : 52 ≤ n.log2) (hleast : -1074 ≤ n.log2 - 52 + e) :
    ∃ (m : Nat) (k : Int) (hm : IsStored m k),
      roundWithAccuracy Format.binary64 sign n e .exact = .finite sign m k hm.positive
        ∧
      2 ^ 52 ≤ m ∧ m < 2 ^ 53 ∧ n.log2 - 52 + e ≤ k ∧ k ≤ n.log2 - 51 + e
        ∧
      (k + 1074) * 2 ^ 52 + m
        =
      (n.log2 + e + 1022) * 2 ^ 52 + nearestQuotient n (2 ^ (n.log2 - 52)) := by
  obtain ⟨hge, hle⟩ := nearestQuotient_bounds hn h
  have hround := roundedMantissa_withRest (n := n) (Nat.two_pow_pos (n.log2 - 52))
  have hfirst := shiftToTargetExponent_eq h hleast
  -- a carry out of the 53 bits is stored as the first bit alone, with the next exponent
  rcases hle.lt_or_eq with hlt | hcarry
  · have hstored := isStored_of_normal hge hlt hleast
    refine ⟨_, _, hstored, roundWithAccuracy_of_shift sign hstored hfirst ?_, hge, hlt, ?_⟩
    · rw [hround]
      exact shiftToTargetExponent_of_isStored hstored
    · omega
  · have hstored : IsStored (2 ^ 52) (n.log2 - 51 + e) :=
      isStored_of_normal le_rfl (by decide) (by omega)
    refine ⟨_, _, hstored, roundWithAccuracy_of_shift sign hstored hfirst ?_, le_rfl, by decide, ?_⟩
    · have hexponent : (n.log2 : Int) - 52 + e = n.log2 - 51 + e - (1 : Nat) := by omega
      rw [hround, hcarry, hexponent]
      exact shiftToTargetExponent_mul_two_pow hstored 1
    · omega

theorem toNat_packComponents (sign : Sign) (x : BitVec 11) (m : BitVec 52) :
    (packComponents Format.binary64 sign x m).toNat
      =
    sign.toBitVec.toNat * 2 ^ 63 + x.toNat * 2 ^ 52 + m.toNat := by
  have happend : (packComponents Format.binary64 sign x m).toNat
      = (sign.toBitVec ++ x ++ m).toNat := rfl
  have hx := x.isLt
  rw [happend, BitVec.toNat_append, BitVec.toNat_append, ← Nat.shiftLeft_add_eq_or_of_lt m.isLt,
    ← Nat.shiftLeft_add_eq_or_of_lt hx, Nat.shiftLeft_eq, Nat.shiftLeft_eq]
  omega

theorem toNat_pack_finite {m : Nat} {e : Int} {h : 0 < m} (hm : 2 ^ 52 ≤ m) (hlt : m < 2 ^ 53)
    (hleast : -1074 ≤ e) (hmost : e < 972) :
    ((pack Format.binary64 (.finite .positive m e h)).toNat : Int) = (e + 1074) * 2 ^ 52 + m := by
  obtain ⟨y, rfl⟩ : ∃ y : BitVec 52, m = (1#1 ++ y).toNat := by
    refine ⟨BitVec.ofNat 52 m, ?_⟩
    rw [toNat_append_one, BitVec.toNat_ofNat]
    omega
  obtain ⟨x, rfl⟩ : ∃ x : BitVec 11, e = x.toNat - 1075 := by
    refine ⟨BitVec.ofNat 11 (e + 1075).toNat, ?_⟩
    rw [BitVec.toNat_ofNat]
    omega
  have hx : x ≠ -1#11 := by
    rintro rfl
    exact absurd hmost (by decide)
  have hsign : Sign.positive.toBitVec.toNat = 0 := rfl
  rw [pack_normal hx, toNat_packComponents, toNat_append_one, hsign]
  omega

theorem toNat_pack_roundWithAccuracy {n : Nat} {e : Int} (hn : 0 < n) (h : 52 ≤ n.log2)
    (hleast : -1074 ≤ n.log2 - 52 + e) (hmost : n.log2 + e < 1023) :
    ((pack Format.binary64 (roundWithAccuracy Format.binary64 .positive n e .exact)).toNat : Int)
      =
    (n.log2 + e + 1022) * 2 ^ 52 + nearestQuotient n (2 ^ (n.log2 - 52)) := by
  obtain ⟨m, k, hm, hround, hge, hlt, hk, hk', hplace⟩ :=
    exists_roundWithAccuracy_eq .positive hn h hleast
  rw [hround, toNat_pack_finite hge hlt (by omega) (by omega), hplace]

/-! ### Signs -/

theorem isNaN_of_toBits_lt {x : Float} (h : x.toBits.toNat % 2 ^ 63 < 2047 * 2 ^ 52) :
    x.isNaN = false := by
  rw [← Bool.not_eq_true]
  intro hnan
  have hbits : x.toBits.toNat = (packedNaN Format.binary64).toNat := by
    change x.toModel.toBits.toBitVec.toNat = _
    rw [← pack_unpack x.toModel.valid]
    exact congrArg (fun u => (pack Format.binary64 u).toNat) (unpack_of_isNaN hnan)
  rw [hbits] at h
  exact absurd h (by decide)

theorem toNat_packComponents_neg {sign : Sign} {x : BitVec 11} {m : BitVec 52}
    (h : (packComponents Format.binary64 sign x m).toNat < 2 ^ 63) :
    (packComponents Format.binary64 (-sign) x m).toNat
      =
    2 ^ 63 + (packComponents Format.binary64 sign x m).toNat := by
  rw [toNat_packComponents] at h ⊢
  rw [toNat_packComponents]
  cases sign with
  | negative =>
    have hsign : Sign.negative.toBitVec.toNat = 1 := rfl
    rw [hsign] at h
    omega
  | positive =>
    have hsign : Sign.positive.toBitVec.toNat = 0 := rfl
    have hneg : (-Sign.positive).toBitVec.toNat = 1 := rfl
    rw [hsign, hneg]
    omega

theorem toNat_pack_neg {u : UnpackedFloat} (hnan : u.isNaN = false)
    (h : (pack Format.binary64 u).toNat < 2 ^ 63) :
    (pack Format.binary64 u.neg).toNat = 2 ^ 63 + (pack Format.binary64 u).toNat := by
  cases u with
  | notANumber => contradiction
  | infinity sign => exact toNat_packComponents_neg h
  | zero sign => exact toNat_packComponents_neg h
  | finite sign m e hm =>
    unfold UnpackedFloat.neg
    unfold UnpackedFloat.pack at h ⊢
    dsimp only at h ⊢
    split_ifs at h ⊢ <;> exact toNat_packComponents_neg h

theorem toBits_neg {x : Float} (hnan : x.isNaN = false) (h : x.toBits.toNat < 2 ^ 63) :
    (Float.neg x).toBits.toNat = 2 ^ 63 + x.toBits.toNat := by
  have hpack : (pack Format.binary64 x.toModel.unpack).toNat = x.toBits.toNat :=
    congrArg BitVec.toNat (pack_unpack x.toModel.valid)
  rw [← hpack] at h ⊢
  exact toNat_pack_neg hnan h

end Float64
end DerivedQuery
