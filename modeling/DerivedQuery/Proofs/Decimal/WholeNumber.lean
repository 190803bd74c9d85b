import DerivedQuery.Proofs.Decimal.Rounding

/-!
This module contains the doubles of whole numbers: a whole number is rounded to its first 53 bits,
and the doubles are in the order of the rounded numbers.
-/

open Float.Model Float.Model.UnpackedFloat

namespace DerivedQuery
namespace Float64

/-! ### Bits -/

def leading (n : Nat) : Nat :=
  nearestQuotient (n * 2 ^ 52) (2 ^ n.log2)

theorem nearestQuotient_two_pow (n k u j : Nat) :
    nearestQuotient (n * 2 ^ (k + j)) (2 ^ (u + j)) = nearestQuotient (n * 2 ^ k) (2 ^ u) := by
  rw [Nat.pow_add, Nat.pow_add, ← Nat.mul_assoc, nearestQuotient_mul_mul _ _ (Nat.two_pow_pos j)]

/--
However far the number is shifted to the left, its first 53 bits are the same.
-/
theorem leading_eq {n k : Nat} (h : 52 ≤ n.log2 + k) :
    leading n = nearestQuotient (n * 2 ^ k) (2 ^ (n.log2 + k - 52)) := by
  rcases Nat.le_total k 52 with hk | hk
  · have hshift := nearestQuotient_two_pow n k (n.log2 + k - 52) (52 - k)
    have hunit : n.log2 + k - 52 + (52 - k) = n.log2 := by omega
    rwa [Nat.add_sub_cancel' hk, hunit] at hshift
  · have hshift := nearestQuotient_two_pow n 52 n.log2 (k - 52)
    rw [Nat.add_sub_cancel' hk, ← Nat.add_sub_assoc hk] at hshift
    exact hshift.symm

theorem toNat_pack_mul_two_pow {n k : Nat} (hn : 0 < n) (h : 52 ≤ n.log2 + k)
    (hmost : n.log2 < 1023) :
    (pack Format.binary64
        (roundWithAccuracy Format.binary64 .positive (n * 2 ^ k) (-k) .exact)).toNat
      =
    (n.log2 + 1022) * 2 ^ 52 + leading n := by
  have hlog : (n * 2 ^ k).log2 = n.log2 + k := log2_mul_two_pow hn k
  have hbits := toNat_pack_roundWithAccuracy (n := n * 2 ^ k) (e := -k) (by positivity) (by omega)
    (by omega) (by omega)
  rw [hlog, ← leading_eq h] at hbits
  omega

theorem round_eq {n : Nat} (hn : 0 < n) (h : n.log2 ≤ 52) :
    UnpackedFloat.ofNat Format.binary64 n
      =
    roundWithAccuracy Format.binary64 .positive (n * 2 ^ (52 - n.log2)) (-(52 - n.log2 : Nat))
      .exact := by
  have hcompare : compare (n : Int) 0 = .gt := compare_gt_iff_gt.mpr (by omega)
  have htarget : max (totalExponent n 0 - 53) (-1074) = -((52 - n.log2 : Nat) : Int) := by
    unfold totalExponent
    omega
  have hshift : ((0 : Int) - -((52 - n.log2 : Nat) : Int)).toNat = 52 - n.log2 := by omega
  unfold UnpackedFloat.ofNat UnpackedFloat.ofInt UnpackedFloat.normalize
  rw [hcompare]
  dsimp only
  unfold UnpackedFloat.round decreaseExponent
  rw [targetExponent_eq, Int.toNat_natCast, htarget]
  dsimp only
  rw [hshift, Nat.shiftLeft_eq, Int.zero_sub]

theorem ofNat_of_lt {n : Nat} (h : n < 2 ^ 53) : Float.ofNat n = n.toUInt64.toFloat := by
  have hsize : 0 < Float.exactlyRepresentablePowersOfTen.size := by decide
  have hone : Float.exactlyRepresentablePowersOfTen[0] = 1.0 := eq_of_toNat_toBits rfl
  have hfast : Float.ofNat n = n.toUInt64.toFloat * Float.exactlyRepresentablePowersOfTen[0] :=
    dif_pos ⟨h, by decide⟩
  rw [hfast, hone, mul_one]

theorem ofNat_of_le {n : Nat} (h : 2 ^ 53 ≤ n) :
    Float.ofNat n = Float.ofModel (Float.Model.ofScientific n 0) :=
  dif_neg (fun hlt => absurd hlt.1 (by omega))

theorem ofScientific_zero {n : Nat} (hn : 0 < n) :
    UnpackedFloat.ofScientific Format.binary64 n 0
      =
    roundWithAccuracy Format.binary64 .positive (n * 2 ^ 53) (-(53 : Nat)) .exact := by
  have hmost : ¬ (0 : Int) > 2 ^ Format.binary64.exponentBits := by decide
  have hleast : ¬ (0 : Int) < -((2 ^ Format.binary64.exponentBits : Int) + n.log2) := by
    have hpos : (0 : Int) < 2 ^ Format.binary64.exponentBits := by decide
    omega
  have hten : n <<< Format.binary64.mantissaBits * 10 ^ (0 : Int).toNat = n * 2 ^ 53 := by
    rw [Nat.shiftLeft_eq]
    exact Nat.mul_one _
  unfold UnpackedFloat.ofScientific
  rw [dif_neg hn.ne', if_neg hmost, if_neg hleast, if_pos le_rfl]
  unfold UnpackedFloat.mul
  dsimp only
  rw [hten]
  rfl

theorem toBits_ofNat {n : Nat} (hn : 0 < n) (hlt : n < 2 ^ 64) :
    (Float.ofNat n).toBits.toNat = (n.log2 + 1022) * 2 ^ 52 + leading n := by
  have hmost : n.log2 < 64 := by
    rw [Nat.log2_lt hn.ne']
    exact hlt
  -- a number of up to 53 bits is converted as a machine word, and a longer one as a decimal number
  rcases Nat.lt_or_ge n (2 ^ 53) with hsmall | hlarge
  · have hlog : n.log2 < 53 := by
      rw [Nat.log2_lt hn.ne']
      exact hsmall
    have hself : n.toUInt64.toNat = n := Nat.mod_eq_of_lt hlt
    rw [ofNat_of_lt hsmall]
    change (pack Format.binary64 (UnpackedFloat.ofNat _ n.toUInt64.toNat)).toNat = _
    rw [hself, round_eq hn (by omega)]
    exact toNat_pack_mul_two_pow hn (by omega) (by omega)
  · rw [ofNat_of_le hlarge]
    change (pack Format.binary64 (UnpackedFloat.ofScientific _ n 0)).toNat = _
    rw [ofScientific_zero hn]
    exact toNat_pack_mul_two_pow hn (by omega) (by omega)

/-! ### Rounded numbers -/

/--
A whole number rounded to its first 53 bits.
-/
def roundedNat (n : Nat) : Nat :=
  nearestQuotient n (2 ^ (n.log2 - 52)) * 2 ^ (n.log2 - 52)

theorem roundedNat_of_dvd {n : Nat} (h : 2 ^ (n.log2 - 52) ∣ n) : roundedNat n = n := by
  unfold roundedNat
  rw [nearestQuotient_of_dvd (Nat.two_pow_pos _) h, Nat.div_mul_cancel h]

theorem roundedNat_mul (n : Nat) : roundedNat n * 2 ^ 52 = leading n * 2 ^ n.log2 := by
  rcases Nat.le_total n.log2 52 with h | h
  · have hunit : n.log2 - 52 = 0 := by omega
    have hrounded : roundedNat n = n := by
      apply roundedNat_of_dvd
      rw [hunit]
      exact one_dvd n
    have hleading : leading n = n * 2 ^ (52 - n.log2) := by
      have hzero : n.log2 + (52 - n.log2) - 52 = 0 := by omega
      rw [leading_eq (k := 52 - n.log2) (by omega), hzero, Nat.pow_zero,
        nearestQuotient_of_dvd Nat.one_pos (one_dvd _), Nat.div_one]
    rw [hrounded, hleading, Nat.mul_assoc, ← Nat.pow_add, Nat.sub_add_cancel h]
  · have hpow : 2 ^ n.log2 = 2 ^ (n.log2 - 52) * 2 ^ 52 := by
      rw [← Nat.pow_add, Nat.sub_add_cancel h]
    have hleading : leading n = nearestQuotient n (2 ^ (n.log2 - 52)) := by
      rw [leading_eq (k := 0) (by omega), Nat.pow_zero, Nat.mul_one, Nat.add_zero]
    unfold roundedNat
    rw [hleading, hpow, Nat.mul_assoc]

theorem leading_bounds {n : Nat} (hn : 0 < n) : 2 ^ 52 ≤ leading n ∧ leading n ≤ 2 ^ 53 := by
  have hlog : (n * 2 ^ 52).log2 = n.log2 + 52 := log2_mul_two_pow hn 52
  have hbounds := nearestQuotient_bounds (n := n * 2 ^ 52) (by positivity) (by omega)
  rwa [hlog, Nat.add_sub_cancel] at hbounds

theorem roundedNat_pos {n : Nat} (hn : 0 < n) : 0 < roundedNat n := by
  have hpos : 0 < roundedNat n * 2 ^ 52 := by
    rw [roundedNat_mul]
    have := (leading_bounds hn).1
    exact Nat.mul_pos (by omega) (Nat.two_pow_pos _)
  omega

theorem scaled_lt_iff {x y k l : Nat} (hx : 2 ^ 52 ≤ x) (hx' : x ≤ 2 ^ 53) (hy : 2 ^ 52 ≤ y)
    (hy' : y ≤ 2 ^ 53) : x * 2 ^ k < y * 2 ^ l ↔ k * 2 ^ 52 + x < l * 2 ^ 52 + y := by
  rcases lt_trichotomy k l with hlt | rfl | hgt
  · -- the greatest number of one power is the least of the next one
    rcases Nat.lt_or_ge (k + 1) l with hlt | hge
    · have hpow : 2 ^ (k + 2) = 2 ^ k * 2 ^ 2 := Nat.pow_add 2 k 2
      have hscaled : x * 2 ^ k < y * 2 ^ l :=
        calc x * 2 ^ k ≤ 2 ^ 53 * 2 ^ k := Nat.mul_le_mul_right _ hx'
          _ < 2 ^ 52 * 2 ^ (k + 2) := by
            have := Nat.two_pow_pos k
            omega
          _ ≤ y * 2 ^ l := Nat.mul_le_mul hy (Nat.pow_le_pow_right Nat.two_pos hlt)
      constructor
      · omega
      · exact fun _ => hscaled
    · obtain rfl : l = k + 1 := by omega
      rw [Nat.pow_succ', ← Nat.mul_assoc, Nat.mul_lt_mul_right (Nat.two_pow_pos k)]
      omega
  · rw [Nat.mul_lt_mul_right (Nat.two_pow_pos k)]
    omega
  · have hscaled : y * 2 ^ l ≤ x * 2 ^ k :=
      calc y * 2 ^ l ≤ 2 ^ 53 * 2 ^ l := Nat.mul_le_mul_right _ hy'
        _ = 2 ^ 52 * 2 ^ (l + 1) := by omega
        _ ≤ x * 2 ^ k := Nat.mul_le_mul hx (Nat.pow_le_pow_right Nat.two_pos hgt)
    omega

theorem roundedNat_lt_iff {m n : Nat} (hm : 0 < m) (hn : 0 < n) :
    roundedNat m < roundedNat n
      ↔
    m.log2 * 2 ^ 52 + leading m < n.log2 * 2 ^ 52 + leading n := by
  obtain ⟨hmge, hmle⟩ := leading_bounds hm
  obtain ⟨hnge, hnle⟩ := leading_bounds hn
  rw [← scaled_lt_iff hmge hmle hnge hnle, ← roundedNat_mul, ← roundedNat_mul,
    Nat.mul_lt_mul_right (Nat.two_pow_pos 52)]

theorem roundedNat_mono {m n : Nat} (h : m ≤ n) : roundedNat m ≤ roundedNat n := by
  rcases Nat.eq_zero_or_pos m with rfl | hm
  · exact Nat.zero_le _
  have hn : 0 < n := by omega
  have hlog : m.log2 ≤ n.log2 := by
    rw [Nat.log2_eq_log_two, Nat.log2_eq_log_two]
    exact Nat.log_mono_right h
  rw [← not_lt, roundedNat_lt_iff hn hm]
  rcases hlog.lt_or_eq with hlt | heq
  · have hmle := (leading_bounds hm).2
    have hnge := (leading_bounds hn).1
    omega
  · have hleading : leading m ≤ leading n := by
      unfold leading
      rw [heq]
      exact nearestQuotient_mono _ (Nat.mul_le_mul_right _ h)
    omega

theorem toBits_ofNat_zero : (Float.ofNat 0).toBits.toNat = 0 := by
  rfl

theorem toBits_ofNat_lt {n : Nat} (h : n < 2 ^ 64) :
    (Float.ofNat n).toBits.toNat < 2047 * 2 ^ 52 := by
  rcases Nat.eq_zero_or_pos n with rfl | hn
  · rw [toBits_ofNat_zero]
    decide
  · have hlog : n.log2 < 64 := by
      rw [Nat.log2_lt hn.ne']
      exact h
    have hle := (leading_bounds hn).2
    rw [toBits_ofNat hn h]
    omega

theorem toBits_ofNat_lt_iff {m n : Nat} (hm : m < 2 ^ 64) (hn : n < 2 ^ 64) :
    (Float.ofNat m).toBits.toNat < (Float.ofNat n).toBits.toNat ↔ roundedNat m < roundedNat n := by
  have hzero : roundedNat 0 = 0 := rfl
  rcases Nat.eq_zero_or_pos m with rfl | hmpos <;> rcases Nat.eq_zero_or_pos n with rfl | hnpos
  · simp
  · have hpos := roundedNat_pos hnpos
    rw [toBits_ofNat_zero, toBits_ofNat hnpos hn, hzero]
    omega
  · rw [toBits_ofNat_zero, hzero]
    omega
  · rw [toBits_ofNat hmpos hm, toBits_ofNat hnpos hn, roundedNat_lt_iff hmpos hnpos]
    omega

/-! ### Order -/

def rounded : Int → Int
  | .ofNat n => roundedNat n
  | .negSucc n => -roundedNat (n + 1)

theorem toBits_ofInt_negSucc {n : Nat} (h : n + 1 < 2 ^ 64) :
    (Float.ofInt (.negSucc n)).toBits.toNat = 2 ^ 63 + (Float.ofNat (n + 1)).toBits.toNat := by
  have hlt := toBits_ofNat_lt h
  have hnan : (Float.ofNat (n + 1)).isNaN = false := isNaN_of_toBits_lt (by omega)
  have hneg := toBits_neg hnan (by omega)
  exact hneg

theorem rank_ofInt_ofNat {n : Nat} (h : n < 2 ^ 64) :
    rank (Float.ofInt (.ofNat n)) = (Float.ofNat n).toBits.toNat := by
  have hlt := toBits_ofNat_lt h
  have hofInt : Float.ofInt (.ofNat n) = Float.ofNat n := rfl
  unfold rank
  simp only [Nat.pow_eq]
  rw [hofInt, if_neg (by omega)]

theorem rank_ofInt_negSucc {n : Nat} (h : n + 1 < 2 ^ 64) :
    rank (Float.ofInt (.negSucc n)) = -1 - (Float.ofNat (n + 1)).toBits.toNat := by
  unfold rank
  simp only [Nat.pow_eq]
  rw [toBits_ofInt_negSucc h, if_pos (by omega)]
  omega

theorem rank_ofInt_lt_iff {a b : Int} (ha : a.natAbs < 2 ^ 64) (hb : b.natAbs < 2 ^ 64) :
    rank (Float.ofInt a) < rank (Float.ofInt b) ↔ rounded a < rounded b := by
  cases a with
  | ofNat m =>
    change m < 2 ^ 64 at ha
    cases b with
    | ofNat n =>
      change n < 2 ^ 64 at hb
      have hlt := toBits_ofNat_lt_iff ha hb
      rw [rank_ofInt_ofNat ha, rank_ofInt_ofNat hb, rounded, rounded]
      omega
    | negSucc n =>
      rw [rank_ofInt_ofNat ha, rank_ofInt_negSucc hb, rounded, rounded]
      omega
  | negSucc m =>
    cases b with
    | ofNat n =>
      change n < 2 ^ 64 at hb
      have hpos := roundedNat_pos (n := m + 1) (by omega)
      rw [rank_ofInt_negSucc ha, rank_ofInt_ofNat hb, rounded, rounded]
      omega
    | negSucc n =>
      have hlt := toBits_ofNat_lt_iff (m := n + 1) (n := m + 1) hb ha
      rw [rank_ofInt_negSucc ha, rank_ofInt_negSucc hb, rounded, rounded]
      omega

theorem totalCompare_ofInt {a b : Int} (ha : a.natAbs < 2 ^ 64) (hb : b.natAbs < 2 ^ 64) :
    totalCompare (Float.ofInt a) (Float.ofInt b) = compare (rounded a) (rounded b) := by
  have hlt := rank_ofInt_lt_iff ha hb
  have hgt := rank_ofInt_lt_iff hb ha
  unfold totalCompare
  rcases lt_trichotomy (rounded a) (rounded b) with h | h | h
  · rw [compare_lt_iff_lt.mpr h, compare_lt_iff_lt, hlt]
    exact h
  · rw [compare_eq_iff_eq.mpr h, compare_eq_iff_eq]
    omega
  · rw [compare_gt_iff_gt.mpr h, compare_gt_iff_gt]
    exact hgt.mpr h

theorem toBits_ofInt {a : Int} (h : a.natAbs < 2 ^ 64) :
    (Float.ofInt a).toBits.toNat % 2 ^ 63 < 2047 * 2 ^ 52
      ∧
    (Float.ofInt a).toBits.toNat ≠ 2 ^ 63 := by
  cases a with
  | ofNat n =>
    have hlt := toBits_ofNat_lt (n := n) h
    change (Float.ofNat n).toBits.toNat % _ < _ ∧ (Float.ofNat n).toBits.toNat ≠ _
    omega
  | negSucc n =>
    have hlt := toBits_ofNat_lt (n := n + 1) h
    have hpos := toBits_ofNat (n := n + 1) (by omega) h
    rw [toBits_ofInt_negSucc h]
    omega

theorem isNaN_ofInt {a : Int} (h : a.natAbs < 2 ^ 64) : (Float.ofInt a).isNaN = false :=
  isNaN_of_toBits_lt (toBits_ofInt h).1

theorem not_areZeros_ofInt {a b : Int} (ha : a.natAbs < 2 ^ 64) (hb : b.natAbs < 2 ^ 64) :
    ¬ AreZeros (Float.ofInt a) (Float.ofInt b) := by
  rintro ⟨hx, hy, hne⟩
  rw [beq_zero_iff] at hx hy
  have hxbits := (toBits_ofInt ha).2
  have hybits := (toBits_ofInt hb).2
  have hxplace := hx.2
  have hyplace := hy.2
  unfold placeOf placeOfBits at hxplace hyplace
  apply hne
  apply eq_of_toNat_toBits
  split_ifs at hxplace hyplace <;> omega

theorem rounded_mono {a b : Int} (h : a ≤ b) : rounded a ≤ rounded b := by
  cases a with
  | ofNat m =>
    cases b with
    | ofNat n =>
      have hle := roundedNat_mono (Int.ofNat_le.mp h)
      rw [rounded, rounded]
      omega
    | negSucc n =>
      have hneg := Int.negSucc_lt_zero n
      have hnonneg := Int.natCast_nonneg m
      exact absurd (h.trans_lt hneg) (not_lt.mpr hnonneg)
  | negSucc m =>
    cases b with
    | ofNat n =>
      rw [rounded, rounded]
      omega
    | negSucc n =>
      have hle := roundedNat_mono (m := n + 1) (n := m + 1) (by omega)
      rw [rounded, rounded]
      omega

/--
A whole number with zeros behind its first 53 bits.
-/
def IsExact (a : Int) : Prop :=
  2 ^ (a.natAbs.log2 - 52) ∣ a.natAbs

theorem roundedNat_eq_self_iff {n : Nat} : roundedNat n = n ↔ 2 ^ (n.log2 - 52) ∣ n := by
  constructor
  · intro h
    exact Dvd.intro_left _ h
  · exact roundedNat_of_dvd

theorem rounded_eq_self_iff {a : Int} : rounded a = a ↔ IsExact a := by
  unfold IsExact
  rw [← roundedNat_eq_self_iff]
  cases a with
  | ofNat n => exact Int.ofNat_inj
  | negSucc n =>
    rw [rounded, Int.natAbs_negSucc, Nat.succ_eq_add_one]
    omega

theorem isExact_of_natAbs_le {a : Int} (h : a.natAbs ≤ 2 ^ 53) : IsExact a := by
  unfold IsExact
  rcases h.lt_or_eq with hlt | heq
  · have hlog : a.natAbs.log2 - 52 = 0 := by
      rcases Nat.eq_zero_or_pos a.natAbs with hzero | hpos
      · rw [hzero]
        rfl
      · have hlt := (Nat.log2_lt hpos.ne').mpr hlt
        omega
    rw [hlog]
    exact one_dvd _
  · rw [heq]
    decide

end Float64
end DerivedQuery
