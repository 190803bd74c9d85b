import DerivedQuery.Pattern.CharClass
import DerivedQuery.Proofs.Text.Letters
import Mathlib.Data.List.Forall2

/-!
This module contains that folding a class forgets the case of ASCII letters: the folded class of a
letter holds the characters that share their folded form with it, which is its small form.
-/

namespace DerivedQuery
namespace Text

/-! ### Letters of ASCII -/

theorem sameLetter_iff {a b : Char} :
    sameLetter a b = true ↔ a.toLower.toNat = b.toLower.toNat := by
  rw [sameLetter, beq_iff_eq, Char.toNat_inj]

theorem isAlpha_of_sameLetter {a b : Char} (h : sameLetter a b = true) (hne : a ≠ b) :
    a.isAlpha = true ∧ b.isAlpha = true := by
  rw [sameLetter_iff, toNat_toLower, toNat_toLower] at h
  rw [ne_eq, ← Char.toNat_inj] at hne
  rw [isAlpha_iff, isAlpha_iff]
  split at h <;> split at h <;> omega

theorem eq_iff_of_sameLetter {a b m : Char} (h : sameLetter a b = true) (hm : m.isAlpha = false) :
    a = m ↔ b = m := by
  by_cases hab : a = b
  · rw [hab]
  · obtain ⟨ha, hb⟩ := isAlpha_of_sameLetter h hab
    constructor
    · rintro rfl
      simp [ha] at hm
    · rintro rfl
      simp [hb] at hm

def SameLetters (s t : List Char) : Prop :=
  List.Forall₂ (fun a b => sameLetter a b = true) s t

instance (s t : List Char) : Decidable (SameLetters s t) :=
  inferInstanceAs (Decidable (List.Forall₂ _ s t))

namespace SameLetters

variable {s t : List Char} {m : Char}

theorem head?_eq_iff (h : SameLetters s t) (hm : m.isAlpha = false) :
    s.head? = some m ↔ t.head? = some m := by
  cases h with
  | nil => rfl
  | cons hfirst _ =>
    simp only [List.head?_cons, Option.some.injEq]
    exact eq_iff_of_sameLetter hfirst hm

theorem getLast?_eq_iff (h : SameLetters s t) (hm : m.isAlpha = false) :
    s.getLast? = some m ↔ t.getLast? = some m := by
  rw [← List.head?_reverse, ← List.head?_reverse]
  exact head?_eq_iff (List.forall₂_reverse_iff.mpr h) hm

end SameLetters

/-! ### Folded forms -/

def asciiRun : FoldRun := ⟨0x41, 0x5A, 1, 32⟩

theorem foldRuns_eq_cons : foldRuns = asciiRun :: foldRuns.tail := rfl

theorem le_first_of_mem_tail : ∀ run ∈ foldRuns.tail, 128 ≤ run.first := by
  decide +kernel

theorem lt_first_add_offset : ∀ run ∈ foldRuns, (90 : Int) < run.first + run.offset := by
  decide +kernel

theorem contains_asciiRun {point : Int} :
    asciiRun.contains point = true ↔ 65 ≤ point ∧ point ≤ 90 := by
  simp only [FoldRun.contains, Bool.and_eq_true, decide_eq_true_eq]
  simp [asciiRun]

theorem FoldRun.le_of_contains {run : FoldRun} {point : Int} (h : run.contains point = true) :
    (run.first : Int) ≤ point := by
  simp only [FoldRun.contains, Bool.and_eq_true, decide_eq_true_eq] at h
  exact h.1.1

theorem eq_asciiRun_of_contains {run : FoldRun} {point : Int} (hrun : run ∈ foldRuns)
    (h : run.contains point = true) (hpoint : point < 128) : run = asciiRun := by
  rw [foldRuns_eq_cons, List.mem_cons] at hrun
  rcases hrun with rfl | hrun
  · rfl
  · have hfirst := le_first_of_mem_tail run hrun
    have hle := FoldRun.le_of_contains h
    omega

theorem foldCase_of_lt {c : Char} (h : c.toNat < 128) : foldCase c.toNat = c.toLower.toNat := by
  rw [toNat_toLower, foldCase]
  split
  next run hfind =>
    have hcontains := List.find?_some hfind
    have hrun := eq_asciiRun_of_contains (List.mem_of_find?_eq_some hfind) hcontains (by omega)
    rw [hrun, contains_asciiRun] at hcontains
    rw [if_pos (by omega), hrun]
    rfl
  next hfind =>
    rw [List.find?_eq_none] at hfind
    have hout := hfind asciiRun (by rw [foldRuns_eq_cons]; exact List.mem_cons_self)
    rw [contains_asciiRun] at hout
    rw [if_neg (by omega)]

theorem lt_foldCase_of_le {c : Char} (h : 128 ≤ c.toNat) : 90 < foldCase c.toNat := by
  unfold foldCase
  split
  next run hfind =>
    have hbound := lt_first_add_offset run (List.mem_of_find?_eq_some hfind)
    have hcontains := List.find?_some hfind
    have hle := FoldRun.le_of_contains hcontains
    omega
  next => omega

/-! ### Cases -/

theorem mem_asciiCases_iff {a c : Char} (ha : a.isAlpha = true) (hc : c.isAlpha = true) :
    a ∈ asciiCases c ↔ a ≠ c ∧ sameLetter c a = true := by
  have hother : a ∈ asciiCases c ↔ a = if c.isUpper then c.toLower else c.toUpper := by
    have hk : a ≠ '\u212A' := by
      rintro rfl
      contradiction
    have hs : a ≠ '\u017F' := by
      rintro rfl
      contradiction
    unfold asciiCases
    dsimp only
    split <;> simp [hk, hs]
  rw [hother, ← Char.toNat_inj, ne_eq, ← Char.toNat_inj, sameLetter_iff, toNat_toLower,
    toNat_toLower]
  rw [isAlpha_iff] at ha hc
  split
  next hupper =>
    rw [isUpper_iff] at hupper
    rw [toNat_toLower]
    grind
  next hupper =>
    rw [isUpper_iff] at hupper
    rw [toNat_toUpper]
    grind

theorem ofNat_toNat_eq_iff {a : Char} {point : Int} (ha : a.isAlpha = true) (h : 0 ≤ point) :
    Char.ofNat point.toNat = a ↔ point = a.toNat := by
  constructor
  · intro heq
    by_cases hvalid : point.toNat.isValidChar
    · rw [Char.ofNat, dif_pos hvalid] at heq
      rw [← heq]
      exact (Int.toNat_of_nonneg h).symm
    · rw [Char.ofNat, dif_neg hvalid] at heq
      subst heq
      contradiction
  · rintro rfl
    rw [Int.toNat_natCast, Char.ofNat_toNat]

theorem mem_cases_iff_of_le {a c : Char} (ha : a.isAlpha = true) (hc : 128 ≤ c.toNat) :
    a ∈ cases c ↔ foldCase c.toNat = a.toLower.toNat := by
  have hfold := lt_foldCase_of_le hc
  unfold cases
  rw [if_neg (by omega)]
  dsimp only
  generalize foldCase c.toNat = folded at hfold
  have hlower := toNat_toLower a
  have halpha := isAlpha_iff.mp ha
  simp only [List.map_cons, List.mem_cons, List.mem_map, List.mem_filterMap,
    Option.ite_none_right_eq_some, Option.some.injEq]
  constructor
  · -- A letter is the folded form itself, or a source of it in the run of the capital letters.
    rintro (heq | ⟨point, ⟨run, hrun, hcontains, rfl⟩, heq⟩)
    · rw [eq_comm, ofNat_toNat_eq_iff ha (by omega)] at heq
      split at hlower <;> omega
    · rw [ofNat_toNat_eq_iff ha (by have := FoldRun.le_of_contains hcontains; omega)] at heq
      obtain rfl := eq_asciiRun_of_contains hrun hcontains (by omega)
      rw [contains_asciiRun] at hcontains
      rw [if_pos (by omega)] at hlower
      simp only [asciiRun] at heq
      omega
  · intro heq
    split at hlower
    next hupper =>
      refine .inr ⟨folded - asciiRun.offset, ⟨asciiRun, ?_, ?_, rfl⟩, ?_⟩
      · rw [foldRuns_eq_cons]
        exact List.mem_cons_self
      · rw [contains_asciiRun]
        simp only [asciiRun]
        omega
      · rw [ofNat_toNat_eq_iff ha (by simp only [asciiRun]; omega)]
        simp only [asciiRun]
        omega
    next =>
      refine .inl ?_
      rw [eq_comm, ofNat_toNat_eq_iff ha (by omega)]
      omega

end Text

namespace CharClass

theorem contains_single {a c : Char} : (single a).contains c = true ↔ c = a := by
  simp only [single, contains, Bool.and_eq_true, decide_eq_true_eq]
  exact ⟨fun h => Char.le_antisymm h.2 h.1, fun h => h ▸ ⟨Char.le_refl _, Char.le_refl _⟩⟩

theorem contains_folded_single {a c : Char} :
    (folded (single a)).contains c = true ↔ c = a ∨ a ∈ Text.cases c := by
  rw [contains, Bool.or_eq_true, contains_single, List.any_eq_true]
  simp only [contains_single, exists_eq_right]

theorem contains_folded_single_of_isAlpha {a c : Char} (ha : a.isAlpha = true) :
    (folded (single a)).contains c = true ↔ Text.foldCase c.toNat = a.toLower.toNat := by
  rw [contains_folded_single]
  by_cases hc : c.toNat < 128
  · rw [Text.foldCase_of_lt hc, Int.ofNat_inj, ← Text.sameLetter_iff, Text.cases, if_pos hc]
    split
    next halpha =>
      rw [Text.mem_asciiCases_iff ha halpha]
      by_cases heq : c = a
      · simp [heq, Text.sameLetter]
      · simp [heq, Ne.symm heq]
    next halpha =>
      have hne : c ≠ a := fun heq => halpha (heq ▸ ha)
      simp only [hne, List.not_mem_nil, or_self, false_iff]
      exact fun h => halpha (Text.isAlpha_of_sameLetter h hne).1
  · rw [Text.mem_cases_iff_of_le ha (Nat.le_of_not_lt hc)]
    refine or_iff_right_of_imp ?_
    rintro rfl
    rw [Text.isAlpha_iff] at ha
    omega

theorem contains_folded_single_of_sameLetter {a b : Char} (h : Text.sameLetter a b = true)
    (c : Char) : (folded (single a)).contains c = (folded (single b)).contains c := by
  by_cases hab : a = b
  · rw [hab]
  · obtain ⟨ha, hb⟩ := Text.isAlpha_of_sameLetter h hab
    rw [Bool.eq_iff_iff, contains_folded_single_of_isAlpha ha,
      contains_folded_single_of_isAlpha hb, Text.sameLetter_iff.mp h]

theorem cost_single_of_sameLetter {a b : Char} (h : Text.sameLetter a b = true) :
    (single a).cost = (single b).cost := by
  by_cases hab : a = b
  · rw [hab]
  · obtain ⟨ha, hb⟩ := Text.isAlpha_of_sameLetter h hab
    rw [Text.isAlpha_iff] at ha hb
    rw [single, single, cost, cost, if_pos (by omega), if_pos (by omega)]

end CharClass
end DerivedQuery
