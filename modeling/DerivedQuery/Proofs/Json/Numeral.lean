import DerivedQuery.Json.Reader
import DerivedQuery.Proofs.Text.Digits

/-!
This module contains that reading a number depends only on the characters that are taken, as long as
what follows cannot continue the number.
-/

namespace DerivedQuery
namespace Json
namespace Syntax

/--
What follows a number cannot be a part of it.
-/
def Stops (rest : List Char) : Prop :=
  ∀ c ∈ rest.head?, c.isDigit = false ∧ c ≠ '.' ∧ isExponentMark c = false

def isNumeral (c : Char) : Bool :=
  c.isDigit || c == '.' || isExponentMark c || c == '+' || c == '-'

/--
The reader takes characters of a number in front of the rest, and takes them in the same way in
front of any other text that cannot continue the number.
-/
def TakesNumeral (read : Reader Json) (s : List Char) (j : Json) (rest : List Char) : Prop :=
  ∃ cs, s = cs ++ rest ∧ (∀ c ∈ cs, isNumeral c = true)
    ∧ ∀ rest', Stops rest' → read (cs ++ rest') = .ok (j, rest')

theorem stops_nil : Stops [] := by
  intro c hc
  contradiction

theorem stops_cons_iff {c : Char} {rest : List Char} :
    Stops (c :: rest) ↔ c.isDigit = false ∧ c ≠ '.' ∧ isExponentMark c = false := by
  unfold Stops
  simp

theorem isNumeral_of_isDigit {c : Char} (h : c.isDigit = true) : isNumeral c = true := by
  unfold isNumeral
  rw [h]
  rfl

theorem isNumeral_of_isExponentMark {c : Char} (h : isExponentMark c = true) :
    isNumeral c = true := by
  unfold isNumeral
  rw [h]
  simp

theorem ne_of_isExponentMark {c : Char} (h : isExponentMark c = true) :
    c.isDigit = false ∧ c ≠ '.' := by
  unfold isExponentMark at h
  rw [Bool.or_eq_true, beq_iff_eq, beq_iff_eq] at h
  obtain rfl | rfl := h <;> decide

/-! ### Digits -/

theorem Stops.head_not_isDigit {rest : List Char} (h : Stops rest) :
    ∀ c ∈ rest.head?, c.isDigit = false := by
  intro c hc
  exact (h c hc).1

/--
The digits that are taken, and that they are taken in front of every text that begins in the same
way or with no digit.
-/
theorem exists_of_digits {value taken value' taken' : Nat} {s tail : List Char}
    (h : digits value taken s = (value', taken', tail)) :
    ∃ ds, s = ds ++ tail ∧ (∀ c ∈ ds, c.isDigit = true)
      ∧ ∀ tail', (tail'.head? = tail.head? ∨ ∀ c ∈ tail'.head?, c.isDigit = false)
        → digits value taken (ds ++ tail') = (value', taken', tail') := by
  induction s generalizing value taken with
  | nil =>
    cases h
    refine ⟨[], rfl, by simp, ?_⟩
    intro tail' htail'
    cases tail' with
    | nil => rfl
    | cons c tail' =>
      obtain hsame | hdigit := htail'
      · contradiction
      · have hc := hdigit c rfl
        simp [digits, hc]
  | cons c s ih =>
    rw [digits] at h
    split at h
    next hfits =>
      obtain ⟨ds, hs, hds, htail⟩ := ih h
      refine ⟨c :: ds, by rw [hs]; rfl, ?_, ?_⟩
      · intro d hd
        cases hd with
        | head => exact hfits.1
        | tail _ hd => exact hds d hd
      · intro tail' htail'
        rw [List.cons_append, digits, if_pos hfits]
        exact htail tail' htail'
    next hover =>
      cases h
      refine ⟨[], rfl, by simp, ?_⟩
      intro tail' htail'
      rw [List.nil_append]
      cases tail' with
      | nil => rfl
      | cons c' tail' =>
        rw [digits, if_neg]
        obtain hsame | hdigit := htail'
        · rw [List.head?_cons, List.head?_cons, Option.some.injEq] at hsame
          rw [hsame]
          exact hover
        · have hc := hdigit c' rfl
          simp [hc]

/-! ### Parts of numbers -/

theorem TakesNumeral.prepend {read read' : Reader Json} {s rest : List Char} {j : Json}
    (h : TakesNumeral read' s j rest) (cs : List Char) (hcs : ∀ c ∈ cs, isNumeral c = true)
    (hread : ∀ s', read (cs ++ s') = read' s') : TakesNumeral read (cs ++ s) j rest := by
  obtain ⟨more, hs, hmore, htake⟩ := h
  refine ⟨cs ++ more, by rw [hs, List.append_assoc], ?_, ?_⟩
  · intro c hc
    obtain hc | hc := List.mem_append.mp hc
    · exact hcs c hc
    · exact hmore c hc
  · intro rest' hstops
    rw [List.append_assoc, hread]
    exact htake rest' hstops

theorem takesNumeral_of_finish {read : Reader Json} {negative : Bool} {value : Nat} {exponent : Int}
    {s rest : List Char} {j : Json} (h : finish negative value exponent s = .ok (j, rest))
    (cs : List Char) (hcs : ∀ c ∈ cs, isNumeral c = true)
    (hread : ∀ rest', Stops rest' → read (cs ++ rest') = finish negative value exponent rest') :
    TakesNumeral read (cs ++ s) j rest := by
  unfold finish at h
  split at h
  next x hscale =>
    cases h
    refine ⟨cs, rfl, hcs, ?_⟩
    intro rest' hstops
    rw [hread rest' hstops, finish, hscale]
  next => contradiction

theorem exponentDigits_of_stops {negative : Bool} {value : Nat} {start : Int} {down : Bool}
    {exponent : Nat} {rest : List Char} (h : Stops rest) :
    exponentDigits negative value start down exponent rest
      =
    finish negative value (exponentDigits.total start down exponent) rest := by
  cases rest with
  | nil => rfl
  | cons c rest =>
    rw [exponentDigits, (stops_cons_iff.mp h).1]
    rfl

theorem takesNumeral_exponentDigits {negative : Bool} {value : Nat} {start : Int} {down : Bool}
    {exponent : Nat} {s rest : List Char} {j : Json}
    (h : exponentDigits negative value start down exponent s = .ok (j, rest)) :
    TakesNumeral (exponentDigits negative value start down exponent) s j rest := by
  induction s generalizing exponent with
  | nil => exact takesNumeral_of_finish h [] (by simp) fun _ => exponentDigits_of_stops
  | cons c s ih =>
    rw [exponentDigits] at h
    split at h
    next hdigit =>
      have hc : ∀ d ∈ [c], isNumeral d = true := by
        intro d hd
        rw [List.mem_singleton.mp hd]
        exact isNumeral_of_isDigit hdigit
      split at h
      next hover =>
        split at h
        next => contradiction
        next hrange =>
          obtain ⟨ds, hs, hds, -⟩ := Text.exists_dropWhile_isDigit s
          rw [Except.ok.injEq, Prod.mk.injEq] at h
          obtain ⟨rfl, rfl⟩ := h
          refine ⟨c :: ds, by rw [List.cons_append, ← hs], ?_, ?_⟩
          · intro d hd
            cases hd with
            | head => exact isNumeral_of_isDigit hdigit
            | tail _ hd => exact isNumeral_of_isDigit (hds d hd)
          · intro rest' hstops
            rw [List.cons_append, exponentDigits, if_pos hdigit, if_pos hover, if_neg hrange,
              (Text.takeWhile_isDigit_append hds hstops.head_not_isDigit).2]
      next hfits =>
        refine (ih h).prepend [c] hc ?_
        intro s'
        rw [List.singleton_append, exponentDigits, if_pos hdigit, if_neg hfits]
    next => exact takesNumeral_of_finish h [] (by simp) fun _ => exponentDigits_of_stops

theorem exponentPart_of_isDigit {negative : Bool} {value : Nat} {start : Int} {c : Char}
    (hc : c.isDigit = true) (s : List Char) :
    exponentPart negative value start (c :: s)
      =
    exponentDigits negative value start false (Text.digitValue c) s := by
  unfold exponentPart
  split
  next down rest heq =>
    split at heq
    next heq' =>
      cases heq'
      contradiction
    next heq' =>
      cases heq'
      contradiction
    next =>
      cases heq
      exact if_pos hc

theorem exists_of_exponentPart_eq_ok {negative : Bool} {value : Nat} {start : Int}
    {s : List Char} {r : Json × List Char} (h : exponentPart negative value start s = .ok r) :
    ∃ sign down c more, (sign = [] ∨ sign = ['+'] ∨ sign = ['-']) ∧ s = sign ++ c :: more
      ∧ c.isDigit = true
      ∧ exponentDigits negative value start down (Text.digitValue c) more = .ok r
      ∧ ∀ s', exponentPart negative value start (sign ++ c :: s')
        = exponentDigits negative value start down (Text.digitValue c) s' := by
  unfold exponentPart at h
  split at h
  next down tail heq =>
    split at h
    next => contradiction
    next c more =>
      split at h
      next hc =>
        split at heq
        next =>
          cases heq
          exact ⟨['+'], false, c, more, by simp, rfl, hc, h, fun _ => if_pos hc⟩
        next =>
          cases heq
          exact ⟨['-'], true, c, more, by simp, rfl, hc, h, fun _ => if_pos hc⟩
        next =>
          cases heq
          exact ⟨[], false, c, more, by simp, rfl, hc, h, exponentPart_of_isDigit hc⟩
      next => contradiction

theorem takesNumeral_exponentPart {negative : Bool} {value : Nat} {start : Int}
    {s rest : List Char} {j : Json} (h : exponentPart negative value start s = .ok (j, rest)) :
    TakesNumeral (exponentPart negative value start) s j rest := by
  obtain ⟨sign, down, c, more, hsign, rfl, hc, hmore, hread⟩ := exists_of_exponentPart_eq_ok h
  rw [List.append_cons]
  apply (takesNumeral_exponentDigits hmore).prepend (sign ++ [c])
  · intro d hd
    obtain hd | hd := List.mem_append.mp hd
    · obtain rfl | rfl | rfl := hsign
      · contradiction
      all_goals
        rw [List.mem_singleton.mp hd]
        rfl
    · rw [List.mem_singleton.mp hd]
      exact isNumeral_of_isDigit hc
  · intro s'
    rw [← List.append_cons]
    exact hread s'

theorem isNumeral_of_isDigits {cs : List Char} (h : ∀ c ∈ cs, c.isDigit = true) :
    ∀ c ∈ cs, isNumeral c = true := by
  intro c hc
  exact isNumeral_of_isDigit (h c hc)

theorem exists_digits_dropWhile {value taken value' taken' : Nat} {s tail : List Char}
    (h : digits value taken s = (value', taken', tail)) :
    ∃ ds es, s = ds ++ (es ++ tail.dropWhile Char.isDigit) ∧ (∀ c ∈ ds ++ es, c.isDigit = true)
      ∧ ∀ rest', (∀ c ∈ rest'.head?, c.isDigit = false)
        → digits value taken (ds ++ (es ++ rest')) = (value', taken', es ++ rest')
          ∧ (es ++ rest').dropWhile Char.isDigit = rest' := by
  obtain ⟨ds, hs, hds, htail⟩ := exists_of_digits h
  obtain ⟨es, htailEq, hes, -⟩ := Text.exists_dropWhile_isDigit tail
  refine ⟨ds, es, by rw [← htailEq, ← hs], ?_, ?_⟩
  · intro c hc
    obtain hc | hc := List.mem_append.mp hc
    · exact hds c hc
    · exact hes c hc
  · intro rest' hrest'
    refine ⟨htail _ ?_, (Text.takeWhile_isDigit_append hes hrest').2⟩
    cases es with
    | nil => exact .inr hrest'
    | cons e es =>
      rw [htailEq]
      exact .inl rfl

def afterFraction (negative : Bool) (value : Nat) (exponent : Int) : Reader Json
  | mark :: more =>
    if isExponentMark mark then exponentPart negative value exponent more
    else finish negative value exponent (mark :: more)
  | [] => finish negative value exponent []

theorem takesNumeral_afterFraction {read : Reader Json} {negative : Bool} {value : Nat}
    {exponent : Int} {cs s rest : List Char} {j : Json}
    (h : afterFraction negative value exponent s = .ok (j, rest))
    (hcs : ∀ c ∈ cs, isNumeral c = true)
    (hread : ∀ s', (∀ c ∈ s'.head?, c.isDigit = false ∧ c ≠ '.')
      → read (cs ++ s') = afterFraction negative value exponent s') :
    TakesNumeral read (cs ++ s) j rest := by
  have hstop : ∀ rest', Stops rest' →
      read (cs ++ rest') = finish negative value exponent rest' := by
    intro rest' hstops
    rw [hread rest' fun c hc => ⟨(hstops c hc).1, (hstops c hc).2.1⟩]
    cases rest' with
    | nil => rfl
    | cons c rest' =>
      rw [afterFraction, (stops_cons_iff.mp hstops).2.2]
      rfl
  cases s with
  | nil => exact takesNumeral_of_finish h cs hcs hstop
  | cons mark more =>
    rw [afterFraction] at h
    split at h
    next hmark =>
      rw [List.append_cons]
      apply (takesNumeral_exponentPart h).prepend (cs ++ [mark])
      · intro c hc
        obtain hc | hc := List.mem_append.mp hc
        · exact hcs c hc
        · rw [List.mem_singleton.mp hc]
          exact isNumeral_of_isExponentMark hmark
      · intro s'
        rw [← List.append_cons, hread, afterFraction, if_pos hmark]
        intro c hc
        cases hc
        exact ne_of_isExponentMark hmark
    next => exact takesNumeral_of_finish h cs hcs hstop

theorem fractionPart_of_digits {negative : Bool} {value value' taken : Nat} {start : Int}
    {c : Char} {s tail : List Char} (hc : c.isDigit = true)
    (h : digits value 0 (c :: s) = (value', taken, tail)) :
    fractionPart negative value start (c :: s)
      =
    afterFraction negative value' (start - taken) (tail.dropWhile Char.isDigit) := by
  unfold fractionPart
  rw [h]
  dsimp only
  rw [if_pos hc]
  cases tail.dropWhile Char.isDigit <;> rfl

theorem exists_of_fractionPart_eq_ok {negative : Bool} {value : Nat} {start : Int}
    {s : List Char} {r : Json × List Char} (h : fractionPart negative value start s = .ok r) :
    ∃ d ds tail value' exponent, s = d :: ds ++ tail ∧ (∀ c ∈ d :: ds, c.isDigit = true)
      ∧ afterFraction negative value' exponent tail = .ok r
      ∧ ∀ s', (∀ c ∈ s'.head?, c.isDigit = false) →
        fractionPart negative value start (d :: ds ++ s')
          = afterFraction negative value' exponent s' := by
  cases s with
  | nil =>
    unfold fractionPart at h
    contradiction
  | cons c s =>
    cases hc : c.isDigit with
    | false =>
      unfold fractionPart at h
      simp [hc, failAfter] at h
    | true =>
      rcases hdigits : digits value 0 (c :: s) with ⟨value', taken, tail⟩
      rw [fractionPart_of_digits hc hdigits] at h
      obtain ⟨ds, es, hs, hds, hread⟩ := exists_digits_dropWhile hdigits
      obtain ⟨_, -, -, hdrop⟩ := Text.exists_dropWhile_isDigit tail
      rw [← List.append_assoc] at hs
      cases hfirst : ds ++ es with
      | nil =>
        -- the first digit is among those that are taken or dropped
        rw [hfirst, List.nil_append] at hs
        rw [← hs] at hdrop
        have hnot := hdrop c rfl
        rw [hc] at hnot
        contradiction
      | cons d more =>
        rw [hfirst] at hs hds
        refine ⟨d, more, _, value', start - taken, hs, hds, h, ?_⟩
        intro s' hs'
        obtain ⟨hdigits', hdrop'⟩ := hread s' hs'
        rw [← List.append_assoc, hfirst] at hdigits'
        rw [List.cons_append] at hdigits' ⊢
        rw [fractionPart_of_digits (hds d List.mem_cons_self) hdigits', hdrop']

theorem takesNumeral_fractionPart {negative : Bool} {value : Nat} {start : Int}
    {s rest : List Char} {j : Json} (h : fractionPart negative value start s = .ok (j, rest)) :
    TakesNumeral (fractionPart negative value start) s j rest := by
  obtain ⟨d, ds, tail, value', exponent, rfl, hds, hafter, hread⟩ :=
    exists_of_fractionPart_eq_ok h
  apply takesNumeral_afterFraction hafter (isNumeral_of_isDigits hds)
  intro s' hs'
  exact hread s' fun c hc => (hs' c hc).1

theorem longInteger_point {negative : Bool} {value : Nat} {ds : List Char}
    (hds : ∀ c ∈ ds, c.isDigit = true) (s : List Char) :
    longInteger negative value (ds ++ '.' :: s) = fractionPart negative value ds.length s := by
  have hpoint : ∀ c ∈ ('.' :: s).head?, c.isDigit = false := by simp
  obtain ⟨htake, hdrop⟩ := Text.takeWhile_isDigit_append hds hpoint
  unfold longInteger
  rw [htake, hdrop]
  rfl

theorem longInteger_of_ne_point {negative : Bool} {value : Nat} {ds s : List Char}
    (hds : ∀ c ∈ ds, c.isDigit = true) (hs : ∀ c ∈ s.head?, c.isDigit = false ∧ c ≠ '.') :
    longInteger negative value (ds ++ s) = afterFraction negative value ds.length s := by
  obtain ⟨htake, hdrop⟩ := Text.takeWhile_isDigit_append hds fun c hc => (hs c hc).1
  unfold longInteger
  rw [htake, hdrop]
  cases s with
  | nil => rfl
  | cons c s =>
    dsimp only
    split
    next heq =>
      cases heq
      exact absurd rfl (hs '.' rfl).2
    next heq =>
      cases heq
      rfl
    next => contradiction

theorem takesNumeral_of_longInteger {read : Reader Json} {negative : Bool} {value : Nat} {c : Char}
    {s rest : List Char} {j : Json} (hc : c.isDigit = true)
    (hread : ∀ s', read (c :: s') = longInteger negative value (c :: s'))
    (h : read (c :: s) = .ok (j, rest)) : TakesNumeral read (c :: s) j rest := by
  obtain ⟨ds, hs, hds, hdrop⟩ := Text.exists_dropWhile_isDigit s
  generalize s.dropWhile Char.isDigit = tail at hs hdrop
  subst hs
  have hall : ∀ d ∈ c :: ds, d.isDigit = true := by
    intro d hd
    cases hd with
    | head => exact hc
    | tail _ hd => exact hds d hd
  rw [← List.cons_append] at h ⊢
  by_cases hpoint : ∃ more, tail = '.' :: more
  · obtain ⟨more, rfl⟩ := hpoint
    rw [List.cons_append, hread, ← List.cons_append, longInteger_point hall] at h
    rw [List.append_cons]
    apply (takesNumeral_fractionPart h).prepend (c :: ds ++ ['.'])
    · intro d hd
      obtain hd | hd := List.mem_append.mp hd
      · exact isNumeral_of_isDigit (hall d hd)
      · rw [List.mem_singleton.mp hd]
        rfl
    · intro s'
      rw [← List.append_cons, List.cons_append, hread, ← List.cons_append, longInteger_point hall]
  · have hafter : ∀ s', (∀ d ∈ s'.head?, d.isDigit = false ∧ d ≠ '.') →
        read (c :: ds ++ s')
          =
        afterFraction negative value (c :: ds).length s' := by
      intro s' hs'
      rw [List.cons_append, hread, ← List.cons_append, longInteger_of_ne_point hall hs']
    rw [hafter] at h
    · exact takesNumeral_afterFraction h (isNumeral_of_isDigits hall) hafter
    · intro d hd
      refine ⟨hdrop d hd, ?_⟩
      rintro rfl
      cases tail with
      | nil => cases hd
      | cons d more =>
        cases hd
        exact hpoint ⟨more, rfl⟩

/-! ### Numbers -/

theorem afterInteger_of_stops {negative : Bool} {value : Nat} {rest : List Char}
    (h : Stops rest) : afterInteger negative value rest = .ok (integer negative value, rest) := by
  cases rest with
  | nil => rfl
  | cons c rest =>
    obtain ⟨hdigit, hpoint, hmark⟩ := stops_cons_iff.mp h
    simp [afterInteger, hdigit, hpoint, hmark]

theorem takesNumeral_afterInteger {negative : Bool} {value : Nat}
    {s rest : List Char} {j : Json} (h : afterInteger negative value s = .ok (j, rest)) :
    TakesNumeral (afterInteger negative value) s j rest := by
  have hstop : ∀ s, TakesNumeral (afterInteger negative value) s (integer negative value) s := by
    intro s
    exact ⟨[], rfl, by simp, fun _ => afterInteger_of_stops⟩
  cases s with
  | nil =>
    cases h
    exact hstop []
  | cons c s =>
    have hread := h
    rw [afterInteger] at h
    split at h
    next hpoint =>
      subst hpoint
      exact (takesNumeral_fractionPart h).prepend ['.'] (by simp [isNumeral])
        fun _ => rfl
    next hpoint =>
      split at h
      next hmark =>
        refine (takesNumeral_exponentPart h).prepend [c] ?_ ?_
        · intro d hd
          rw [List.mem_singleton.mp hd]
          exact isNumeral_of_isExponentMark hmark
        · intro s'
          rw [List.singleton_append, afterInteger, if_neg hpoint, if_pos hmark]
      next hmark =>
        split at h
        next hdigit =>
          have hlong : ∀ s', afterInteger negative value (c :: s')
              = longInteger negative value (c :: s') := by
            intro s'
            rw [afterInteger, if_neg hpoint, if_neg hmark, if_pos hdigit]
          exact takesNumeral_of_longInteger hdigit hlong hread
        next =>
          cases h
          exact hstop (c :: s)

theorem number_zero {negative : Bool} {s : List Char} (h : ∀ c ∈ s.head?, c.isDigit = false) :
    number negative ('0' :: s) = afterInteger negative 0 s := by
  cases s with
  | nil => rfl
  | cons c s =>
    have hc := h c rfl
    simp [number, hc]

theorem number_of_digits {negative : Bool} {c : Char} {s tail : List Char} {value taken : Nat}
    (hzero : c ≠ '0') (hdigit : c.isDigit = true)
    (h : digits (Text.digitValue c) 0 s = (value, taken, tail)) :
    number negative (c :: s) = afterInteger negative value tail := by
  unfold number
  simp [hzero, hdigit, h]

theorem head?_append_of_stops (cs rest : List Char) {rest' : List Char} (h : Stops rest') :
    (cs ++ rest').head? = (cs ++ rest).head? ∨ ∀ c ∈ (cs ++ rest').head?, c.isDigit = false := by
  cases cs with
  | nil => exact .inr h.head_not_isDigit
  | cons c cs => exact .inl rfl

theorem exists_of_number_eq_ok {negative : Bool} {s : List Char} {r : Json × List Char}
    (h : number negative s = .ok r) :
    (∃ tail, s = '0' :: tail ∧ (∀ c ∈ tail.head?, c.isDigit = false)
      ∧ afterInteger negative 0 tail = .ok r)
      ∨
    ∃ c more value taken tail, s = c :: more ∧ c ≠ '0' ∧ c.isDigit = true
      ∧ digits (Text.digitValue c) 0 more = (value, taken, tail)
      ∧ afterInteger negative value tail = .ok r := by
  cases s with
  | nil =>
    rw [number] at h
    contradiction
  | cons c s =>
    unfold number at h
    dsimp only at h
    split at h
    next hzero =>
      subst hzero
      left
      cases s with
      | nil => exact ⟨[], rfl, by simp, h⟩
      | cons d s =>
        dsimp only at h
        split at h
        next => contradiction
        next hdigit =>
          rw [Bool.not_eq_true] at hdigit
          exact ⟨d :: s, rfl, by simpa using hdigit, h⟩
    next hzero =>
      split at h
      next hdigit => exact .inr ⟨c, s, _, _, _, rfl, hzero, hdigit, rfl, h⟩
      next => contradiction

theorem takesNumeral_number {negative : Bool} {s rest : List Char} {j : Json}
    (h : number negative s = .ok (j, rest)) : TakesNumeral (number negative) s j rest := by
  obtain ⟨tail, rfl, hhead, hafter⟩
    | ⟨c, more, value, taken, tail, rfl, hzero, hdigit, hdigits, hafter⟩ := exists_of_number_eq_ok h
  · obtain ⟨cs, rfl, hcs, htake⟩ := takesNumeral_afterInteger hafter
    refine ⟨'0' :: cs, rfl, ?_, ?_⟩
    · intro d hd
      cases hd with
      | head => rfl
      | tail _ hd => exact hcs d hd
    · intro rest' hstops
      rw [List.cons_append, number_zero]
      · exact htake rest' hstops
      · obtain hsame | hdigit := head?_append_of_stops cs rest hstops
        · rw [hsame]
          exact hhead
        · exact hdigit
  · obtain ⟨ds, rfl, hds, htail⟩ := exists_of_digits hdigits
    obtain ⟨cs, rfl, hcs, htake⟩ := takesNumeral_afterInteger hafter
    refine ⟨c :: (ds ++ cs), by simp, ?_, ?_⟩
    · intro d hd
      cases hd with
      | head => exact isNumeral_of_isDigit hdigit
      | tail _ hd =>
        obtain hd | hd := List.mem_append.mp hd
        · exact isNumeral_of_isDigit (hds d hd)
        · exact hcs d hd
    · intro rest' hstops
      have htail' := htail _ (head?_append_of_stops cs rest hstops)
      rw [List.cons_append, List.append_assoc, number_of_digits hzero hdigit htail']
      exact htake rest' hstops

def whole? : Except Fault (Json × List Char) → Option Json
  | .ok (j, []) => some j
  | _ => none

def numeral? : List Char → Option Json
  | '-' :: cs => whole? (number true cs)
  | cs => whole? (number false cs)

theorem whole?_eq_some_iff {result : Except Fault (Json × List Char)} {j : Json} :
    whole? result = some j ↔ result = .ok (j, []) := by
  unfold whole?
  split
  next => simp
  next h =>
    constructor
    · intro hnone
      contradiction
    · rintro rfl
      exact absurd rfl (h j)

theorem number_append {negative : Bool} {cs : List Char} {j : Json}
    (h : number negative cs = .ok (j, [])) {rest : List Char} (hrest : Stops rest) :
    number negative (cs ++ rest) = .ok (j, rest) := by
  obtain ⟨taken, hcs, -, htake⟩ := takesNumeral_number h
  rw [List.append_nil] at hcs
  subst hcs
  exact htake rest hrest

theorem numeral?_of_number {cs : List Char} {j : Json} (h : number false cs = .ok (j, [])) :
    numeral? cs = some j := by
  unfold numeral?
  split
  next => contradiction
  next => exact whole?_eq_some_iff.mpr h

theorem exists_numeral {s rest : List Char} {j : Json} (h : number false s = .ok (j, rest)) :
    ∃ cs, s = cs ++ rest ∧ (∀ c ∈ cs, isNumeral c = true) ∧ numeral? cs = some j := by
  obtain ⟨cs, hs, hcs, htake⟩ := takesNumeral_number h
  have hnumber := htake [] stops_nil
  rw [List.append_nil] at hnumber
  exact ⟨cs, hs, hcs, numeral?_of_number hnumber⟩

theorem exists_numeral_minus {s rest : List Char} {j : Json} (h : number true s = .ok (j, rest)) :
    ∃ cs, s = cs ++ rest ∧ (∀ c ∈ '-' :: cs, isNumeral c = true)
      ∧ numeral? ('-' :: cs) = some j := by
  obtain ⟨cs, hs, hcs, htake⟩ := takesNumeral_number h
  have hnumber := htake [] stops_nil
  rw [List.append_nil] at hnumber
  refine ⟨cs, hs, ?_, whole?_eq_some_iff.mpr hnumber⟩
  intro c hc
  cases hc with
  | head => rfl
  | tail _ hc => exact hcs c hc

end Syntax
end Json
end DerivedQuery
