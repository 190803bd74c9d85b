import DerivedQuery.Proofs.Text.Digits
import DerivedQuery.Value.Calendar
import Mathlib.Data.List.TakeWhile

/-!
This module contains that the calendar numbers every day once, and that a network date is read as
the instant that it was written for.
-/

namespace DerivedQuery
namespace CivilTime

/-! ### Days of an era -/

/--
The place of a day in its era of 400 years that begin in March: the century, the four years in it,
the year among these, and the day of the year. Only the last of four years has a leap day, and the
last four years of a century have one only at the end of the era.
-/
structure EraPlace (dayOfEra yearOfEra : Int) where
  century : Int
  four : Int
  year : Int
  day : Int
  century_mem : 0 ≤ century ∧ century ≤ 3
  four_mem : 0 ≤ four ∧ four ≤ 24
  year_mem : 0 ≤ year ∧ year ≤ 3
  day_mem : 0 ≤ day ∧ day ≤ 365
  leap : day = 365 → year = 3 ∧ (four < 24 ∨ century = 3)
  dayOfEra_eq : dayOfEra = 36524 * century + 1461 * four + 365 * year + day
  yearOfEra_eq : yearOfEra = 100 * century + 4 * four + year

theorem nonempty_eraPlace {dayOfEra yearOfEra : Int} (h0 : 0 ≤ dayOfEra) (h1 : dayOfEra ≤ 146096)
    (hyear : yearOfEra
      = (dayOfEra - dayOfEra / 1460 + dayOfEra / 36524 - dayOfEra / 146096) / 365) :
    Nonempty (EraPlace dayOfEra yearOfEra) := by
  by_cases hlast : dayOfEra = 146096
  · exact ⟨⟨3, 24, 3, 365, by omega, by omega, by omega, by omega, by omega, by omega, by omega⟩⟩
  · have hera : dayOfEra / 146096 = 0 := by omega
    have hcentury : 0 ≤ dayOfEra / 36524 ∧ dayOfEra / 36524 ≤ 3 := by omega
    generalize hc : dayOfEra / 36524 = c at *
    generalize hq : (dayOfEra - 36524 * c) / 1461 = q
    generalize he : (dayOfEra - 36524 * c) % 1461 = e
    -- the days that the divisor 1460 counts too many are those of the leap days before
    have h1460 : dayOfEra / 1460 = 25 * c + q + (24 * c + q + e) / 1460 := by omega
    have hyear' : yearOfEra = 100 * c + 4 * q + (e - (24 * c + q + e) / 1460) / 365 := by omega
    by_cases hleap : e < 1460
    · exact ⟨⟨c, q, e / 365, e % 365, hcentury, by omega, by omega, by omega, by omega, by omega,
        by omega⟩⟩
    · exact ⟨⟨c, q, 3, 365, hcentury, by omega, by omega, by omega, by omega, by omega, by omega⟩⟩

theorem EraPlace.dayOfYear_eq {dayOfEra yearOfEra : Int} (p : EraPlace dayOfEra yearOfEra) :
    dayOfEra - (365 * yearOfEra + yearOfEra / 4 - yearOfEra / 100) = p.day := by
  have := p.century_mem
  have := p.four_mem
  have := p.year_mem
  have := p.dayOfEra_eq
  have := p.yearOfEra_eq
  omega

/-! ### Days of the calendar -/

def monthFromMarch (dayOfYear : Int) : Int :=
  (5 * dayOfYear + 2) / 153

theorem exists_ofDays_eq (days : Int) :
    ∃ (era dayOfEra yearOfEra : Int) (p : EraPlace dayOfEra yearOfEra) (month : Nat),
      days + 719468 = era * 146097 + dayOfEra
        ∧
      (month : Int)
        = (if monthFromMarch p.day < 10 then monthFromMarch p.day + 3
            else monthFromMarch p.day - 9)
        ∧
      ofDays days
        = (yearOfEra + era * 400 + (if month ≤ 2 then 1 else 0), month,
            (p.day - (153 * monthFromMarch p.day + 2) / 5 + 1).toNat) := by
  have hdayOfEra : 0 ≤ days + 719468 - (days + 719468) / 146097 * 146097
      ∧ days + 719468 - (days + 719468) / 146097 * 146097 ≤ 146096 := by omega
  obtain ⟨p⟩ := nonempty_eraPlace hdayOfEra.1 hdayOfEra.2 rfl
  have hmonth : 0 ≤ monthFromMarch p.day ∧ monthFromMarch p.day ≤ 11 := by
    have := p.day_mem
    unfold monthFromMarch
    omega
  refine ⟨(days + 719468) / 146097, _, _, p, _, by omega, Int.toNat_of_nonneg ?_, ?_⟩
  · split <;> omega
  · unfold ofDays
    dsimp only
    rw [p.dayOfYear_eq]
    refine Prod.ext ?_ rfl
    dsimp only
    congr 1
    apply if_congr _ rfl rfl
    rw [monthFromMarch] at *
    by_cases hten : (5 * p.day + 2) / 153 < 10
    · rw [if_pos hten]
      omega
    · rw [if_neg hten]
      omega

theorem daysOf_ofDays (days : Int) :
    daysOf (ofDays days).1 (ofDays days).2.1 (ofDays days).2.2 = days := by
  obtain ⟨era, dayOfEra, yearOfEra, p, month, hdays, hmonth, heq⟩ := exists_ofDays_eq days
  have hyear := p.yearOfEra_eq
  have hday := p.dayOfYear_eq
  have := p.century_mem
  have := p.four_mem
  have := p.year_mem
  have := p.day_mem
  rw [heq]
  unfold daysOf
  dsimp only
  have hbefore : (if month ≤ 2
      then yearOfEra + era * 400 + (if month ≤ 2 then 1 else 0) - 1
      else yearOfEra + era * 400 + (if month ≤ 2 then 1 else 0)) = yearOfEra + era * 400 := by
    split <;> omega
  have hmarch : (if 2 < month then (month : Int) - 3 else month + 9) = monthFromMarch p.day := by
    have hm : 0 ≤ monthFromMarch p.day ∧ monthFromMarch p.day ≤ 11 := by
      unfold monthFromMarch
      omega
    split at hmonth <;> split <;> omega
  rw [hbefore, hmarch]
  have hera : (yearOfEra + era * 400) / 400 = era := by omega
  have hpos : 1 ≤ p.day - (153 * monthFromMarch p.day + 2) / 5 + 1 := by
    unfold monthFromMarch
    omega
  rw [hera, Int.toNat_of_nonneg (by omega)]
  omega

theorem isLeap_of_eraPlace {dayOfEra yearOfEra : Int} (p : EraPlace dayOfEra yearOfEra)
    (h : p.day = 365) (era : Int) : isLeap (yearOfEra + era * 400 + 1) = true := by
  obtain ⟨hyear, hfour⟩ := p.leap h
  have := p.yearOfEra_eq
  have := p.century_mem
  have := p.four_mem
  have hdiv4 : (yearOfEra + era * 400 + 1) % 4 = 0 := by omega
  have hdiv100 : (yearOfEra + era * 400 + 1) % 100 ≠ 0
      ∨ (yearOfEra + era * 400 + 1) % 400 = 0 := by omega
  unfold isLeap
  simpa [hdiv4] using hdiv100

theorem ofDays_mem (days : Int) :
    (1 ≤ (ofDays days).2.1 ∧ (ofDays days).2.1 ≤ 12)
      ∧
    (1 ≤ (ofDays days).2.2
      ∧ (ofDays days).2.2 ≤ daysInMonth (ofDays days).1 (ofDays days).2.1) := by
  obtain ⟨era, dayOfEra, yearOfEra, p, month, -, hmonth, heq⟩ := exists_ofDays_eq days
  have hday := p.day_mem
  rw [heq]
  dsimp only
  have hm : 0 ≤ monthFromMarch p.day ∧ monthFromMarch p.day ≤ 11 := by
    unfold monthFromMarch
    omega
  have hbound : 1 ≤ p.day - (153 * monthFromMarch p.day + 2) / 5 + 1 := by
    unfold monthFromMarch
    omega
  refine ⟨by split at hmonth <;> omega, by omega, ?_⟩
  rw [monthFromMarch] at *
  unfold daysInMonth
  by_cases hfebruary : month = 2
  · rw [if_pos hfebruary]
    by_cases hleap : p.day = 365
    · have hyear := isLeap_of_eraPlace p hleap era
      rw [if_pos (by omega : month ≤ 2), hyear, if_pos rfl]
      omega
    · have hlast : (p.day - (153 * ((5 * p.day + 2) / 153) + 2) / 5 + 1).toNat ≤ 28 := by
        split at hmonth <;> omega
      rw [if_pos (by omega : month ≤ 2)]
      split <;> omega
  · rw [if_neg hfebruary]
    split
    next hshort => split at hmonth <;> omega
    next => split at hmonth <;> omega

/-! ### Texts of dates -/

theorem digits?_append {ds : List Char} (hds : ∀ c ∈ ds, c.isDigit = true) (value : Nat)
    (rest : List Char) :
    digits? ds.length value (ds ++ rest) = some (Nat.ofDigitChars 10 ds value, rest) := by
  induction ds generalizing value with
  | nil => rfl
  | cons c ds ih =>
    rw [List.length_cons, List.cons_append, digits?, if_pos (hds c List.mem_cons_self),
      ih fun d hd => hds d (List.mem_cons_of_mem c hd)]
    rw [Nat.ofDigitChars_eq_foldl, Nat.ofDigitChars_eq_foldl, List.foldl_cons]

theorem length_padded {width n : Nat} (hwidth : 0 < width) (h : n < 10 ^ width) :
    (padded width n).length = width := by
  have hlength := Nat.toDigits_length 10 n width hwidth h
  unfold padded
  rw [Text.toList_toString, List.length_append, List.length_replicate]
  omega

theorem isDigit_of_mem_padded {width n : Nat} :
    ∀ c ∈ padded width n, c.isDigit = true := by
  intro c hc
  unfold padded at hc
  rw [Text.toList_toString] at hc
  obtain hc | hc := List.mem_append.mp hc
  · rw [List.eq_of_mem_replicate hc]
    rfl
  · exact Text.isDigit_of_mem_toDigits hc

theorem ofDigitChars_padded (width n : Nat) : Nat.ofDigitChars 10 (padded width n) 0 = n := by
  unfold padded
  rw [Text.toList_toString, Nat.ofDigitChars_append, Nat.ofDigitChars_replicate_zero, Nat.mul_zero,
    Nat.ofDigitChars_ten_toDigits]

theorem digits?_padded {width n : Nat} (hwidth : 0 < width) (h : n < 10 ^ width)
    (rest : List Char) : digits? width 0 (padded width n ++ rest) = some (n, rest) := by
  have hread : digits? (padded width n).length 0 (padded width n ++ rest) = _ :=
    digits?_append isDigit_of_mem_padded 0 rest
  rw [length_padded hwidth h, ofDigitChars_padded] at hread
  exact hread

theorem padded_nine_eq {nanos : Nat} (h : nanos < 10 ^ 9) :
    padded 9 nanos
      =
    fractionDigits nanos ++ List.replicate (9 - (fractionDigits nanos).length) '0' := by
  have hlength := length_padded (by decide) h
  unfold fractionDigits
  generalize hdigits : padded 9 nanos = digits at *
  have hsplit : digits = (digits.reverse.dropWhile (· == '0')).reverse
      ++ (digits.reverse.takeWhile (· == '0')).reverse := by
    rw [← List.reverse_append, List.takeWhile_append_dropWhile, List.reverse_reverse]
  have hzeros : (digits.reverse.takeWhile (· == '0')).reverse
      = List.replicate (digits.reverse.takeWhile (· == '0')).length '0' := by
    rw [List.eq_replicate_iff]
    refine ⟨List.length_reverse, ?_⟩
    intro c hc
    rw [List.mem_reverse] at hc
    simpa using List.mem_takeWhile_imp hc
  have htotal := congrArg List.length hsplit
  rw [List.length_append, hzeros, List.length_replicate, hlength] at htotal
  rw [hzeros] at hsplit
  conv_lhs => rw [hsplit]
  congr 2
  omega

theorem fraction?_text {nanos : Nat} (h : nanos < 10 ^ 9) (rest : List Char) :
    fraction? ((if (fractionDigits nanos).isEmpty then [] else '.' :: fractionDigits nanos)
      ++ 'Z' :: rest) = some (nanos, 'Z' :: rest) := by
  have hpadded := padded_nine_eq h
  split
  next hempty =>
    rw [List.isEmpty_iff] at hempty
    have hzero : nanos = 0 := by
      rw [← ofDigitChars_padded 9 nanos, hpadded, hempty]
      decide
    rw [hzero]
    rfl
  next hne =>
    rw [Bool.not_eq_true, List.isEmpty_eq_false_iff] at hne
    have hdigits : ∀ c ∈ fractionDigits nanos, c.isDigit = true := by
      intro c hc
      have hmem : c ∈ padded 9 nanos := by
        rw [hpadded]
        exact List.mem_append_left _ hc
      exact isDigit_of_mem_padded c hmem
    have hstop : ('Z' :: rest).takeWhile Char.isDigit = []
        ∧ ('Z' :: rest).dropWhile Char.isDigit = 'Z' :: rest := ⟨rfl, rfl⟩
    rw [List.cons_append, fraction?]
    rw [List.takeWhile_append_of_pos hdigits, List.dropWhile_append_of_pos hdigits, hstop.1,
      hstop.2, List.append_nil]
    have hnine : (fractionDigits nanos ++ List.replicate 9 '0').take 9 = padded 9 nanos := by
      have hlength := congrArg List.length hpadded
      rw [length_padded (by decide) h, List.length_append] at hlength
      rw [List.length_replicate] at hlength
      have hle : (fractionDigits nanos).length ≤ 9 := by
        clear h
        omega
      rw [hpadded, List.take_append, List.take_of_length_le hle, List.take_replicate,
        Nat.min_eq_left (Nat.sub_le 9 _)]
    have hread := digits?_padded (by decide) h []
    rw [List.append_nil] at hread
    dsimp only
    rw [hnine, hread, if_neg (by simpa using hne)]
    rfl

theorem ofMillis_mem (millis : Int) :
    (ofMillis millis).hour ≤ 23 ∧ (ofMillis millis).minute ≤ 59 ∧ (ofMillis millis).second ≤ 59
      ∧ (ofMillis millis).nanos < 10 ^ 9 := by
  have hday : (millis % dayMillis).toNat < 86400000 := by
    unfold dayMillis
    omega
  have hpow : 10 ^ 9 = 1000000000 := rfl
  unfold ofMillis
  dsimp only
  generalize (millis % dayMillis).toNat = inDay at *
  rw [hpow]
  omega

theorem shifted_ofMillis {millis : Int} (h : 0 ≤ millis) :
    ofNetworkText?.shifted (ofMillis millis) 0 = millis := by
  unfold ofNetworkText?.shifted
  have hdays : daysOf (ofMillis millis).year (ofMillis millis).month (ofMillis millis).day
      = millis / dayMillis := daysOf_ofDays (millis / dayMillis)
  rw [hdays]
  unfold ofMillis
  dsimp only
  have hsplit : millis = millis / dayMillis * 86400000 + (millis % dayMillis).toNat := by
    unfold dayMillis
    omega
  have hdays0 : 0 ≤ millis / dayMillis := by
    unfold dayMillis
    omega
  generalize (millis % dayMillis).toNat = inDay at *
  generalize millis / dayMillis = days at *
  have hnanos : (((days * 24 + (inDay / 3600000 : Nat)) * 60 + (inDay / 60000 % 60 : Nat) - 0) * 60
        + (inDay / 1000 % 60 : Nat)) * 1000000000 + (inDay % 1000 * 1000000 : Nat)
      = millis * 1000000 := by
    omega
  rw [hnanos, Int.mul_tdiv_cancel _ (by decide)]

theorem year_nonneg {millis : Int} (h : 0 ≤ millis) : 0 ≤ (ofMillis millis).year := by
  obtain ⟨era, dayOfEra, yearOfEra, p, month, hdays, -, heq⟩ :=
    exists_ofDays_eq (millis / dayMillis)
  have hyear : (ofMillis millis).year
      = yearOfEra + era * 400 + (if month ≤ 2 then 1 else 0) := by
    unfold ofMillis
    rw [heq]
  have := p.century_mem
  have := p.four_mem
  have := p.year_mem
  have := p.day_mem
  have := p.dayOfEra_eq
  have := p.yearOfEra_eq
  unfold dayMillis at hdays
  rw [hyear]
  split <;> omega

/--
A network date is read as the instant that it was written for.
-/
theorem ofNetworkText?_networkText {millis : Int} (h : 0 ≤ millis)
    (hyear : (ofMillis millis).year ≤ 9999) :
    ofNetworkText? (ofMillis millis).networkText = some millis := by
  obtain ⟨hmonth, hday⟩ := ofDays_mem (millis / dayMillis)
  obtain ⟨hhour, hminute, hsecond, hnanos⟩ := ofMillis_mem millis
  have hyear0 := year_nonneg h
  have hshifted := shifted_ofMillis h
  have hmonthEq : (ofDays (millis / dayMillis)).2.1 = (ofMillis millis).month := rfl
  have hdayEq : (ofDays (millis / dayMillis)).2.2 = (ofMillis millis).day := rfl
  have hyearEq : (ofDays (millis / dayMillis)).1 = (ofMillis millis).year := rfl
  rw [hmonthEq] at hmonth hday
  rw [hdayEq, hyearEq] at hday
  generalize ofMillis millis = t at *
  have hdays31 : daysInMonth t.year t.month ≤ 31 := by
    unfold daysInMonth
    split
    · split <;> omega
    · split <;> omega
  have hread : ∀ {n : Nat} (rest : List Char), n < 100 →
      digits? 2 0 (padded 2 n ++ rest) = some (n, rest) := by
    intro n rest hn
    exact digits?_padded (by decide) hn rest
  have hfour : ∀ rest, digits? 4 0 (yearText t.year ++ rest) = some (t.year.natAbs, rest) := by
    intro rest
    unfold yearText
    rw [if_pos ⟨hyear0, hyear⟩]
    exact digits?_padded (by decide) (by omega) rest
  have hexpect : ∀ (c : Char) (rest : List Char), expect? c (c :: rest) = some rest := by
    intro c rest
    rw [expect?, if_pos rfl]
  have hzone : offset? ['Z'] = some (0, []) := rfl
  unfold ofNetworkText? networkText dateText
  simp only [String.toList_ofList, List.append_assoc, List.cons_append]
  refine Option.bind_eq_some_iff.mpr ⟨_, hfour _, ?_⟩
  refine Option.bind_eq_some_iff.mpr ⟨_, hexpect _ _, ?_⟩
  refine Option.bind_eq_some_iff.mpr ⟨_, hread _ (by omega), ?_⟩
  refine Option.bind_eq_some_iff.mpr ⟨_, hexpect _ _, ?_⟩
  refine Option.bind_eq_some_iff.mpr ⟨_, hread _ (by omega), ?_⟩
  dsimp only
  rw [if_pos (by decide)]
  refine Option.bind_eq_some_iff.mpr ⟨_, rfl, ?_⟩
  refine Option.bind_eq_some_iff.mpr ⟨_, hread _ (by omega), ?_⟩
  refine Option.bind_eq_some_iff.mpr ⟨_, hexpect _ _, ?_⟩
  refine Option.bind_eq_some_iff.mpr ⟨_, hread _ (by omega), ?_⟩
  refine Option.bind_eq_some_iff.mpr ⟨_, hexpect _ _, ?_⟩
  refine Option.bind_eq_some_iff.mpr ⟨_, hread _ (by omega), ?_⟩
  refine Option.bind_eq_some_iff.mpr ⟨_, fraction?_text hnanos [], ?_⟩
  refine Option.bind_eq_some_iff.mpr ⟨_, hzone, ?_⟩
  have hleap : ¬ t.second = 60 := by omega
  have habs : (t.year.natAbs : Int) = t.year := Int.natAbs_of_nonneg hyear0
  dsimp only
  rw [habs, if_neg]
  · simp only [hleap, ↓reduceIte, decide_false, Bool.false_and, hshifted]
    rfl
  · rintro (hempty | hrange)
    · exact hempty rfl
    · omega

end CivilTime
end DerivedQuery
