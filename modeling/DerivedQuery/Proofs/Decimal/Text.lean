import DerivedQuery.Decimal.Decimal128
import DerivedQuery.Proofs.Text.Digits

/-!
This module contains that a decimal number is read from its own text: the digits and the power of
ten, not only the quantity.
-/

namespace DerivedQuery
namespace Decimal128

def IsBounded : Decimal128 → Prop
  | .finite _ coefficient exponent =>
    coefficient < 10 ^ maxDigits ∧ minExponent ≤ exponent ∧ exponent ≤ maxExponent
  | _ => True

/--
A number that is not a number shows neither its sign nor whether it signals.
-/
def IsShown : Decimal128 → Prop
  | .nan negative signaling => negative = false ∧ signaling = false
  | _ => True

/-! ### Digits -/

theorem nat?_toDigits (n : Nat) : nat? (Nat.toDigits 10 n) = some n := by
  have hdigits := Text.natOfDigits_toDigits n
  unfold nat?
  split
  next heq => exact absurd heq (Text.toDigits_ne_cons rfl _ _)
  next =>
    dsimp only
    rw [Text.isEmpty_toDigits, Text.all_isDigit_toDigits]
    exact congrArg some hdigits

theorem fit?_of_bounds {digits : List Char} {exponent : Int} (hdigits : digits.length ≤ maxDigits)
    (hlow : minExponent ≤ exponent) (hhigh : exponent ≤ maxExponent) :
    fit? digits exponent = some (digits, exponent) := by
  unfold fit?
  rw [if_neg (by omega), Option.bind_eq_bind, Option.bind_some]
  dsimp only
  rw [if_neg (by omega), Option.bind_some]
  dsimp only
  rw [if_neg (by omega)]

theorem significant_toDigits (zeros coefficient : Nat) {digits : List Char}
    (hdigits : digits = List.replicate zeros '0' ++ Nat.toDigits 10 coefficient) :
    (if (digits.dropWhile (· == '0')).isEmpty then ['0'] else digits.dropWhile (· == '0'))
      =
    Nat.toDigits 10 coefficient := by
  have hdrop : digits.dropWhile (· == '0')
      = (Nat.toDigits 10 coefficient).dropWhile (· == '0') := by
    rw [hdigits, List.dropWhile_append_of_pos]
    intro c hc
    rw [List.eq_of_mem_replicate hc]
    rfl
  rw [hdrop]
  by_cases hzero : coefficient = 0
  · subst hzero
    rfl
  · obtain ⟨c, cs, hcs, hc⟩ := Text.exists_toDigits_cons (Nat.pos_of_ne_zero hzero)
    rw [hcs, List.dropWhile_cons_of_neg (by simpa using hc)]
    rfl

/-! ### Layouts -/

inductive Tail : List Char → Int → Prop where
  | plain : Tail [] 0
  | scientific {tail : List Char} {e : Int} (h : int16? tail = some e) : Tail ('e' :: tail) e

inductive Pointed (whole fraction : List Char) : List Char → Prop where
  | whole (h : fraction = []) : Pointed whole fraction whole
  | point : Pointed whole fraction (whole ++ '.' :: fraction)

def IsLayout (coefficient : Nat) (exponent : Int) (s : List Char) : Prop :=
  ∃ zeros whole fraction number tail e,
    whole ++ fraction = List.replicate zeros '0' ++ Nat.toDigits 10 coefficient
      ∧ Pointed whole fraction number ∧ Tail tail e ∧ e - fraction.length = exponent
      ∧ s = number ++ tail

theorem bne_of_isDigit {c mark : Char} (hmark : mark.isDigit = false) (hc : c.isDigit = true) :
    (c != mark) = true := by
  rw [bne_iff_ne]
  rintro rfl
  rw [hmark] at hc
  contradiction

theorem Pointed.bne_mark {whole fraction number : List Char} (h : Pointed whole fraction number)
    (hdigits : ∀ c ∈ whole ++ fraction, c.isDigit = true) : ∀ c ∈ number, (c != 'e') = true := by
  intro c hc
  cases h with
  | whole => exact bne_of_isDigit rfl (hdigits c (List.mem_append_left _ hc))
  | point =>
    rw [List.mem_append, List.mem_cons] at hc
    rcases hc with hc | rfl | hc
    · exact bne_of_isDigit rfl (hdigits c (List.mem_append_left _ hc))
    · rfl
    · exact bne_of_isDigit rfl (hdigits c (List.mem_append_right _ hc))

theorem Tail.cut {tail : List Char} {e : Int} (h : Tail tail e) {number : List Char}
    (hnumber : ∀ c ∈ number, (c != 'e') = true) :
    (number ++ tail).takeWhile (· != 'e') = number
      ∧
    (number ++ tail).dropWhile (· != 'e') = tail := by
  rw [List.takeWhile_append_of_pos hnumber, List.dropWhile_append_of_pos hnumber]
  cases h <;> simp

theorem finite?_of_layout {negative : Bool} {coefficient : Nat} {exponent : Int} {s : List Char}
    (hbounded : (finite negative coefficient exponent).IsBounded)
    (h : IsLayout coefficient exponent s) :
    finite? negative s = some (.finite negative coefficient exponent) := by
  obtain ⟨hcoefficient, hlow, hhigh⟩ := hbounded
  obtain ⟨zeros, whole, fraction, number, tail, e, hdigits, hnumber, htail, hexponent, rfl⟩ := h
  have hdigit : ∀ c ∈ whole ++ fraction, c.isDigit = true := by
    intro c hc
    rw [hdigits, List.mem_append] at hc
    rcases hc with hc | hc
    · rw [List.eq_of_mem_replicate hc]
      rfl
    · exact Text.isDigit_of_mem_toDigits hc
  have hwhole : ∀ c ∈ whole, (c != '.') = true := fun c hc =>
    bne_of_isDigit rfl (hdigit c (List.mem_append_left _ hc))
  obtain ⟨htake, hdrop⟩ := htail.cut (hnumber.bne_mark hdigit)
  have hsignificant := significant_toDigits zeros coefficient hdigits
  have hrange : ¬ exponent < -32768 := by
    unfold minExponent at hlow
    omega
  have hlength : (Nat.toDigits 10 coefficient).length ≤ maxDigits :=
    Nat.toDigits_length _ _ _ (by decide) hcoefficient
  have hfit := fit?_of_bounds hlength hlow hhigh
  unfold finite?
  rw [htake, hdrop]
  cases hnumber with
  | whole h =>
    subst h
    have hnone : whole.dropWhile (· != '.') = [] := by
      rw [← List.append_nil whole, List.dropWhile_append_of_pos hwhole]
      rfl
    rw [List.append_nil] at hsignificant
    rw [List.length_nil, Int.natCast_zero, Int.sub_zero] at hexponent
    cases htail with
    | plain =>
      simp only [hnone, hexponent, if_neg hrange, hsignificant, hfit, nat?_toDigits,
        Option.bind_eq_bind, Option.bind_some, Option.pure_def]
    | scientific h =>
      simp only [h, hnone, hexponent, if_neg hrange, hsignificant, hfit, nat?_toDigits,
        Option.bind_eq_bind, Option.bind_some, Option.pure_def]
  | point =>
    have hpoint : (whole ++ '.' :: fraction).dropWhile (· != '.') = '.' :: fraction := by
      rw [List.dropWhile_append_of_pos hwhole]
      rfl
    have hbefore : (whole ++ '.' :: fraction).takeWhile (· != '.') = whole := by
      rw [List.takeWhile_append_of_pos hwhole]
      simp
    cases htail with
    | plain =>
      simp only [hpoint, hbefore, hexponent, if_neg hrange, hsignificant, hfit, nat?_toDigits,
        Option.bind_eq_bind, Option.bind_some, Option.pure_def]
    | scientific h =>
      simp only [h, hpoint, hbefore, hexponent, if_neg hrange, hsignificant, hfit, nat?_toDigits,
        Option.bind_eq_bind, Option.bind_some, Option.pure_def]

/-! ### Texts -/

theorem nat?_plus_toDigits (n : Nat) : nat? ('+' :: Nat.toDigits 10 n) = some n := by
  change (if ((Nat.toDigits 10 n).isEmpty || !(Nat.toDigits 10 n).all Char.isDigit) = true then none
    else some (Text.natOfDigits (Nat.toDigits 10 n))) = some n
  rw [Text.isEmpty_toDigits, Text.all_isDigit_toDigits, Text.natOfDigits_toDigits]
  rfl

theorem int16?_toString {e : Int} (hlow : -32768 ≤ e) (hhigh : e ≤ 32767) :
    int16? ((if 0 ≤ e then "+" else "").toList ++ (toString e).toList) = some e := by
  have hvalue : e = if 0 ≤ e then (e.toNat : Int) else -((-e).toNat : Int) := by
    split <;> omega
  rw [Int.toString_eq_repr, Int.repr_eq_if]
  split
  next hpos =>
    rw [if_pos hpos] at hvalue
    have hplus : int16? ('+' :: Nat.toDigits 10 e.toNat) = some e := by
      simp [int16?, nat?_plus_toDigits, ← hvalue, hlow, hhigh]
    rw [Nat.toList_repr]
    exact hplus
  next hneg =>
    rw [if_neg hneg] at hvalue
    have hminus : int16? ('-' :: Nat.toDigits 10 (-e).toNat) = some e := by
      unfold int16?
      split
      next heq => exact absurd (List.cons.inj heq).2 (Text.toDigits_ne_cons rfl _ _)
      next heq =>
        rw [← (List.cons.inj heq).2, nat?_toDigits]
        simp [hlow, hhigh]
        omega
      next hminus => exact absurd rfl (hminus _)
    rw [String.toList_append, Nat.toList_repr]
    exact hminus

theorem toLower_of_isDigit {c : Char} (h : c.isDigit = true) : c.toLower = c := by
  have hdigit : c.val ≤ '9'.val := by
    simp [Char.isDigit] at h
    exact h.2
  unfold Char.toLower
  rw [dif_neg]
  intro hupper
  have hle := UInt32.le_trans hupper.1 hdigit
  revert hle
  decide

theorem map_toLower_of_isDigit {cs : List Char} (h : ∀ c ∈ cs, c.isDigit = true) :
    cs.map Char.toLower = cs := by
  rw [List.map_congr_left fun c hc => toLower_of_isDigit (h c hc), List.map_id']

theorem map_toLower_toDigits (n : Nat) :
    (Nat.toDigits 10 n).map Char.toLower = Nat.toDigits 10 n :=
  map_toLower_of_isDigit fun _ hc => Text.isDigit_of_mem_toDigits hc

theorem map_toLower_toString (e : Int) :
    ((if 0 ≤ e then "+" else "").toList ++ (toString e).toList).map Char.toLower
      =
    (if 0 ≤ e then "+" else "").toList ++ (toString e).toList := by
  rw [Int.toString_eq_repr, Int.repr_eq_if]
  split
  next =>
    rw [Nat.toList_repr, List.map_append, map_toLower_toDigits]
    rfl
  next =>
    rw [String.toList_append, Nat.toList_repr, List.map_append, List.map_append,
      map_toLower_toDigits]
    rfl

section
variable {coefficient : Nat} {ds : List Char} (hds : Nat.toDigits 10 coefficient = ds)
include hds

theorem map_toLower_take (n : Nat) : (ds.take n).map Char.toLower = ds.take n := by
  rw [List.map_take, ← hds, map_toLower_toDigits]

theorem map_toLower_drop (n : Nat) : (ds.drop n).map Char.toLower = ds.drop n := by
  rw [List.map_drop, ← hds, map_toLower_toDigits]

theorem take_append_drop_eq_toDigits (n : Nat) :
    ds.take n ++ ds.drop n = List.replicate 0 '0' ++ Nat.toDigits 10 coefficient := by
  rw [List.take_append_drop, hds]
  rfl

theorem isLayout_digits : IsLayout coefficient 0 (ds.map Char.toLower) := by
  have hdigits : ds ++ [] = List.replicate 0 '0' ++ Nat.toDigits 10 coefficient := by simp [hds]
  refine ⟨0, ds, [], ds, [], 0, hdigits, .whole rfl, .plain, rfl, ?_⟩
  rw [← hds, map_toLower_toDigits, List.append_nil]

theorem isLayout_zeros {places : Nat} (h : ds.length ≤ places) :
    IsLayout coefficient (-places)
      (('0' :: '.' :: List.replicate (places - ds.length) '0' ++ ds).map Char.toLower) := by
  have hdigits : ['0'] ++ (List.replicate (places - ds.length) '0' ++ ds)
      = List.replicate (places - ds.length + 1) '0' ++ Nat.toDigits 10 coefficient := by
    rw [hds, List.replicate_succ]
    rfl
  refine ⟨_, _, _, _, [], 0, hdigits, .point, .plain, by simp; omega, ?_⟩
  rw [List.map_append, List.map_cons, List.map_cons, List.map_replicate, ← hds,
    map_toLower_toDigits, List.append_nil]
  rfl

theorem isLayout_point (whole : Nat) :
    IsLayout coefficient (-(ds.length - whole : Nat))
      ((ds.take whole ++ '.' :: ds.drop whole).map Char.toLower) := by
  refine ⟨0, _, _, _, [], 0, take_append_drop_eq_toDigits hds whole, .point, .plain, by simp, ?_⟩
  rw [List.map_append, List.map_cons, map_toLower_take hds, map_toLower_drop hds, List.append_nil]
  rfl

theorem isLayout_scientific {leading : Int} (hlow : -32768 ≤ leading) (hhigh : leading ≤ 32767) :
    IsLayout coefficient (leading - (ds.length - 1 : Nat))
      ((String.ofList (ds.take 1) ++
        (if ds.length = 1 then "" else "." ++ String.ofList (ds.drop 1)) ++
        "E" ++ (if 0 ≤ leading then "+" else "") ++ toString leading).toList.map Char.toLower) := by
  have htail := Tail.scientific (int16?_toString hlow hhigh)
  have hmark : "E".toList.map Char.toLower = ['e'] := rfl
  simp only [String.toList_append, List.append_assoc]
  rw [List.map_append, List.map_append, List.map_append, map_toLower_toString,
    String.toList_ofList, map_toLower_take hds, hmark]
  have hcut := take_append_drop_eq_toDigits hds 1
  split
  next hone =>
    have hfraction : ds.drop 1 = [] := List.drop_eq_nil_of_le (by omega)
    refine ⟨0, _, _, _, _, leading, hcut, .whole hfraction, htail, by simp, ?_⟩
    rfl
  next =>
    refine ⟨0, _, _, _, _, leading, hcut, .point, htail, by simp, ?_⟩
    have hpoint : ("." ++ String.ofList (ds.drop 1)).toList.map Char.toLower
        = '.' :: ds.drop 1 := by
      simp only [String.toList_append, String.toList_ofList, List.map_append,
        map_toLower_drop hds]
      rfl
    rw [hpoint, List.append_assoc]
    rfl

end

theorem isLayout_finiteText {coefficient : Nat} {exponent : Int}
    (hcoefficient : coefficient < 10 ^ maxDigits) (hlow : minExponent ≤ exponent)
    (hhigh : exponent ≤ maxExponent) :
    IsLayout coefficient exponent ((finiteText coefficient exponent).toList.map Char.toLower) := by
  have hpositive : 1 ≤ (Nat.toDigits 10 coefficient).length :=
    List.length_pos_iff.mpr Nat.toDigits_ne_nil
  have hlength : (Nat.toDigits 10 coefficient).length ≤ maxDigits :=
    Nat.toDigits_length _ _ _ (by decide) hcoefficient
  unfold minExponent at hlow
  unfold maxExponent at hhigh
  unfold maxDigits at hlength
  unfold finiteText
  dsimp only
  rw [Text.toList_toString]
  generalize hds : Nat.toDigits 10 coefficient = ds at hpositive hlength
  split
  next hplain =>
    obtain ⟨places, rfl⟩ : ∃ places : Nat, exponent = -places :=
      ⟨exponent.natAbs, by omega⟩
    rw [Int.natAbs_neg, Int.natAbs_natCast]
    split
    next hzero =>
      rw [hzero, String.toList_ofList]
      exact isLayout_digits hds
    next =>
      rw [apply_ite String.toList, String.toList_ofList, String.toList_ofList]
      split
      next hshort => exact isLayout_zeros hds hshort
      next hlong =>
        have hexponent : -(places : Int) = -(ds.length - (ds.length - places) : Nat) := by omega
        rw [hexponent]
        exact isLayout_point hds _
  next =>
    have hleading : exponent = exponent + ds.length - 1 - (ds.length - 1 : Nat) := by omega
    rw [congrArg (IsLayout coefficient) hleading]
    exact isLayout_scientific hds (by omega) (by omega)

theorem exists_finiteText_cons (coefficient : Nat) (exponent : Int) :
    ∃ c cs, (finiteText coefficient exponent).toList = c :: cs ∧ c.isDigit = true := by
  have hne : Nat.toDigits 10 coefficient ≠ [] := Nat.toDigits_ne_nil
  obtain ⟨c, cs, hds⟩ := List.exists_cons_of_ne_nil hne
  have hc : c.isDigit = true := Text.isDigit_of_mem_toDigits (hds ▸ List.mem_cons_self)
  unfold finiteText
  dsimp only
  rw [Text.toList_toString, hds]
  split
  next =>
    split
    next => exact ⟨c, cs, String.toList_ofList, hc⟩
    next =>
      split
      next => exact ⟨'0', _, String.toList_ofList, rfl⟩
      next hlong =>
        obtain ⟨whole, hwhole⟩ := Nat.exists_eq_add_one_of_ne_zero
          (show (c :: cs).length - exponent.natAbs ≠ 0 by omega)
        rw [hwhole, String.toList_ofList, List.take_succ_cons]
        exact ⟨c, _, rfl, hc⟩
  next =>
    simp only [String.toList_append, String.toList_ofList]
    exact ⟨c, _, rfl, hc⟩

theorem ofList_ne_name {c letter : Char} (hc : c.isDigit = true) (hletter : letter.isDigit = false)
    (cs letters : List Char) :
    String.ofList ((c :: cs).map Char.toLower) ≠ String.ofList (letter :: letters) := by
  intro heq
  rw [String.ofList_inj, List.map_cons, toLower_of_isDigit hc, List.cons.injEq] at heq
  rw [heq.1, hletter] at hc
  contradiction

theorem ofText?_finite {negative : Bool} {coefficient : Nat} {exponent : Int}
    (h : (finite negative coefficient exponent).IsBounded) :
    ofText? (finite negative coefficient exponent).text
      =
    some (finite negative coefficient exponent) := by
  have hread := finite?_of_layout h (isLayout_finiteText h.1 h.2.1 h.2.2)
  obtain ⟨c, cs, htext, hc⟩ := exists_finiteText_cons coefficient exponent
  rw [htext] at hread
  unfold ofText? text
  split
  next sign rest heq =>
    have hparts : sign = negative ∧ rest = c :: cs := by
      rw [String.toList_append, htext] at heq
      cases negative with
      | true => exact ⟨(Prod.mk.inj heq).1.symm, (Prod.mk.inj heq).2.symm⟩
      | false =>
        have hunsigned : (if false = true then "-" else "").toList ++ c :: cs = c :: cs := rfl
        rw [hunsigned] at heq
        split at heq
        next hminus =>
          rw [(List.cons.inj hminus).1] at hc
          contradiction
        next hplus =>
          rw [(List.cons.inj hplus).1] at hc
          contradiction
        next => exact ⟨(Prod.mk.inj heq).1.symm, (Prod.mk.inj heq).2.symm⟩
    obtain ⟨rfl, rfl⟩ := hparts
    dsimp only
    split
    next hname => exact absurd hname (ofList_ne_name hc rfl _ _)
    next hname => exact absurd hname (ofList_ne_name hc rfl _ _)
    next hname => exact absurd hname (ofList_ne_name hc rfl _ _)
    next hname => exact absurd hname (ofList_ne_name hc rfl _ _)
    next => exact hread

/--
A decimal number is read from its text.
-/
theorem ofText?_text {d : Decimal128} (hbounded : d.IsBounded) (hshown : d.IsShown) :
    ofText? d.text = some d := by
  cases d with
  | nan negative signaling =>
    obtain ⟨rfl, rfl⟩ := hshown
    decide +kernel
  | infinite negative => cases negative <;> decide +kernel
  | finite negative coefficient exponent => exact ofText?_finite hbounded

end Decimal128
end DerivedQuery
