import DerivedQuery.Method.Keyword
import Mathlib.Data.List.Infix

/-!
This module contains what the search for keywords does with a text. Cutting and splitting lose
nothing, and pieces in which the keyword does not occur are found again between its occurrences.
-/

namespace DerivedQuery
namespace Keyword

theorem isAt_eq_true_iff (keyword s : List Char) :
    isAt keyword s = true
      ↔
    ∃ rest, s = keyword ++ rest ∧ (rest = [] ∨ startsCapital rest = true) := by
  unfold isAt
  cases h : Text.dropStart? keyword s with
  | none =>
    simp only [Bool.false_eq_true, false_iff]
    rintro ⟨rest, hs, -⟩
    rw [← Text.dropStart?_eq_some_iff, h] at hs
    contradiction
  | some rest =>
    rw [Text.dropStart?_eq_some_iff] at h
    subst h
    simp

theorem isAt_nil {keyword : List Char} (hk : keyword ≠ []) : isAt keyword [] = false := by
  cases keyword with
  | nil => contradiction
  | cons => rfl

theorem isAt_append_self (keyword : List Char) {s : List Char}
    (hs : s = [] ∨ startsCapital s = true) : isAt keyword (keyword ++ s) = true := by
  rw [isAt_eq_true_iff]
  exact ⟨s, rfl, hs⟩

/-! ### Cutting -/

theorem eq_of_cut?_eq_some {keyword s before after : List Char}
    (h : cut? keyword s = some (before, after)) : s = before ++ (keyword ++ after) := by
  induction s generalizing before after with
  | nil => simp [cut?] at h
  | cons c cs ih =>
    unfold cut? at h
    split at h
    next hat =>
      rw [isAt_eq_true_iff] at hat
      obtain ⟨rest, hs, -⟩ := hat
      simp only [Option.some.injEq, Prod.mk.injEq] at h
      rw [← h.1, ← h.2, hs]
      simp
    next =>
      rw [Option.map_eq_some_iff] at h
      obtain ⟨⟨front, back⟩, hcut, heq⟩ := h
      simp only [Prod.mk.injEq] at heq
      rw [← heq.1, ← heq.2, ih hcut]
      simp

/-! ### Splitting -/

theorem splitFrom_ne_nil (keyword s : List Char) (skipped : Nat) :
    splitFrom keyword skipped s ≠ [] := by
  induction s generalizing skipped with
  | nil => simp [splitFrom]
  | cons c cs ih =>
    cases skipped with
    | succ skipped =>
      rw [splitFrom]
      apply ih
    | zero =>
      rw [splitFrom]
      split
      · simp
      · cases splitFrom keyword 0 cs <;> simp [consHead]

theorem intercalate_consHead (keyword : List Char) (c : Char) {pieces : List (List Char)}
    (h : pieces ≠ []) :
    List.intercalate keyword (consHead c pieces) = c :: List.intercalate keyword pieces := by
  cases pieces with
  | nil => contradiction
  | cons piece pieces => cases pieces <;> simp [consHead]

theorem intercalate_splitFrom {keyword : List Char} (hk : keyword ≠ []) (s : List Char)
    (skipped : Nat) :
    List.intercalate keyword (splitFrom keyword skipped s) = s.drop skipped := by
  induction s generalizing skipped with
  | nil => simp [splitFrom]
  | cons c cs ih =>
    cases skipped with
    | succ skipped =>
      rw [splitFrom, ih, List.drop_succ_cons]
    | zero =>
      rw [splitFrom]
      split
      next hat =>
        rw [isAt_eq_true_iff] at hat
        obtain ⟨rest, hs, -⟩ := hat
        rw [List.intercalate_cons_of_ne_nil (splitFrom_ne_nil _ _ _), ih, hs]
        cases keyword with
        | nil => contradiction
        | cons k ks =>
          rw [List.cons_append, List.cons.injEq] at hs
          simp [hs.2]
      next =>
        rw [intercalate_consHead keyword c (splitFrom_ne_nil _ _ _), ih]
        simp

theorem intercalate_split {keyword : List Char} (hk : keyword ≠ []) (s : List Char) :
    List.intercalate keyword (split keyword s) = s := by
  unfold split
  rw [intercalate_splitFrom hk]
  simp

/-! ### Absence -/

/--
The keyword does not occur in the text where a word ends.
-/
def Free (keyword s : List Char) : Prop :=
  ∀ before after, s = before ++ keyword ++ after → after ≠ [] ∧ startsCapital after = false

/--
The same, where the keyword may stand at the beginning.
-/
def FreeInside (keyword s : List Char) : Prop :=
  ∀ before after, before ≠ [] → s = before ++ keyword ++ after →
    after ≠ [] ∧ startsCapital after = false

theorem freeInside_cons_iff {keyword s : List Char} {c : Char} :
    FreeInside keyword (c :: s) ↔ Free keyword s := by
  constructor
  · intro h before after hs
    apply h (c :: before) after (List.cons_ne_nil c before)
    rw [hs]
    rfl
  · intro h before after hne hs
    cases before with
    | nil => contradiction
    | cons d before =>
      rw [List.cons_append, List.cons_append, List.cons.injEq] at hs
      exact h before after hs.2

theorem free_iff_isAt {keyword s : List Char} :
    Free keyword s ↔ ∀ rest, rest <:+ s → isAt keyword rest = false := by
  constructor
  · intro h rest hsuffix
    obtain ⟨before, hs⟩ := hsuffix
    rw [← Bool.not_eq_true, isAt_eq_true_iff]
    rintro ⟨after, hrest, hend⟩
    obtain ⟨hne, hcapital⟩ := h before after (by rw [← hs, hrest, List.append_assoc])
    rcases hend with rfl | hend
    · contradiction
    · simp [hcapital] at hend
  · intro h before after hs
    have hat : isAt keyword (keyword ++ after) = false := by
      apply h
      exact ⟨before, by rw [hs, List.append_assoc]⟩
    rw [← Bool.not_eq_true, isAt_eq_true_iff] at hat
    rw [← Bool.not_eq_true]
    constructor
    · intro hnil
      exact hat ⟨after, rfl, .inl hnil⟩
    · intro hcapital
      exact hat ⟨after, rfl, .inr hcapital⟩

instance (keyword s : List Char) : Decidable (Free keyword s) :=
  decidable_of_iff (∀ rest ∈ s.tails, isAt keyword rest = false) <| by
    simp only [free_iff_isAt, List.mem_tails]

instance (keyword : List Char) : (s : List Char) → Decidable (FreeInside keyword s)
  | [] => .isTrue fun before after hne hs => by
    rw [List.append_assoc, List.nil_eq, List.append_eq_nil_iff] at hs
    exact absurd hs.1 hne
  | _ :: s => decidable_of_iff (Free keyword s) freeInside_cons_iff.symm

theorem Free.isAt_eq_false {keyword s rest : List Char} (h : Free keyword s) (hs : rest <:+ s) :
    isAt keyword rest = false := by
  rw [free_iff_isAt] at h
  exact h rest hs

theorem Free.of_suffix {keyword s rest : List Char} (h : Free keyword s) (hs : rest <:+ s) :
    Free keyword rest := by
  rw [free_iff_isAt]
  intro suffix hsuffix
  exact h.isAt_eq_false (hsuffix.trans hs)

/--
No occurrence of the keyword begins in `a` and goes on into `b`.
-/
def Apart (keyword a b : List Char) : Prop :=
  ∀ front c back, keyword = front ++ c :: back → front ≠ [] → front <:+ a → b.head? ≠ some c

theorem Apart.of_head {keyword a b : List Char} (h : ∀ c ∈ keyword.tail, b.head? ≠ some c) :
    Apart keyword a b := by
  intro front c back hk hne _
  apply h
  rw [hk]
  cases front with
  | nil => contradiction
  | cons => simp

theorem Apart.of_suffix {keyword a b rest : List Char} (h : Apart keyword a b) (hs : rest <:+ a) :
    Apart keyword rest b := by
  intro front c back hk hne hfront
  exact h front c back hk hne (hfront.trans hs)

/--
What begins with a capital letter can only go on a keyword that has a capital letter inside.
-/
theorem Apart.of_startsCapital {keyword a b : List Char}
    (h : ∀ i, ∀ hi : i < keyword.length, 0 < i → keyword[i].isUpper = true →
      ¬ keyword.take i <:+ a)
    (hb : startsCapital b = true) : Apart keyword a b := by
  intro front c back hk hne hfront hhead
  cases b with
  | nil => simp at hhead
  | cons d b =>
    simp only [List.head?_cons, Option.some.injEq] at hhead
    simp only [startsCapital] at hb
    subst hk hhead
    apply h front.length (by simp) (List.length_pos_iff.mpr hne)
    · simpa using hb
    · simpa using hfront

theorem Apart.of_capital {keyword a b : List Char} (hk : ∀ c ∈ keyword.tail, c.isUpper = false)
    (hb : startsCapital b = true) : Apart keyword a b := by
  apply Apart.of_startsCapital _ hb
  intro i hi hpos hupper
  cases keyword with
  | nil => simp at hi
  | cons k ks =>
    cases i with
    | zero => omega
    | succ i =>
      have hlt : i < ks.length := by
        rw [List.length_cons] at hi
        omega
      have hsmall : ks[i].isUpper = false := hk _ (List.getElem_mem hlt)
      rw [List.getElem_cons_succ, hsmall] at hupper
      contradiction

/--
An occurrence that begins in the first text lies in it, and then the next character only shows that
a word ends.
-/
theorem isAt_append_eq_false {keyword a b : List Char} (ha : a ≠ []) (hfree : Free keyword a)
    (happart : Apart keyword a b) : isAt keyword (a ++ b) = false := by
  rw [← Bool.not_eq_true, isAt_eq_true_iff]
  rintro ⟨after, happ, hend⟩
  rcases List.append_eq_append_iff.mp happ with ⟨back, hk, hb⟩ | ⟨front, hfront, hafter⟩
  · cases back with
    | nil =>
      rw [List.append_nil] at hk
      exact (hfree [] [] (by simp [hk])).1 rfl
    | cons c back =>
      apply happart a c back hk ha (List.suffix_refl a)
      rw [hb]
      rfl
  · obtain ⟨hne, hcapital⟩ := hfree [] front (by simp [hfront])
    rcases hend with hnil | hend
    · rw [hnil] at hafter
      simp_all
    · rw [hafter] at hend
      cases front with
      | nil => contradiction
      | cons c front => simp_all [startsCapital]

theorem Free.append {keyword a b : List Char} (ha : Free keyword a) (hb : Free keyword b)
    (happart : Apart keyword a b) : Free keyword (a ++ b) := by
  rw [free_iff_isAt]
  rintro rest ⟨before, hs⟩
  -- what is left begins in `a` or in `b`
  rcases List.append_eq_append_iff.mp hs with ⟨front, ha', hrest⟩ | ⟨front, -, hb'⟩
  · cases front with
    | nil =>
      apply hb.isAt_eq_false
      rw [hrest]
      exact List.suffix_refl b
    | cons c front =>
      have hsuffix : c :: front <:+ a := ⟨before, ha'.symm⟩
      rw [hrest]
      apply isAt_append_eq_false
      · simp
      · exact ha.of_suffix hsuffix
      · exact happart.of_suffix hsuffix
  · exact hb.isAt_eq_false ⟨front, hb'.symm⟩

/-! ### Finding what was put together -/

theorem cut?_eq_none {keyword s : List Char} (h : Free keyword s) : cut? keyword s = none := by
  induction s with
  | nil => rfl
  | cons c cs ih =>
    rw [cut?, h.isAt_eq_false (List.suffix_refl _), ih (h.of_suffix (List.suffix_cons c cs))]
    rfl

theorem cut?_append {keyword a b : List Char} (hk : keyword ≠ []) (hfree : Free keyword a)
    (happart : Apart keyword a (keyword ++ b)) (hb : b = [] ∨ startsCapital b = true) :
    cut? keyword (a ++ (keyword ++ b)) = some (a, b) := by
  induction a with
  | nil =>
    have hat := isAt_append_self keyword hb
    cases keyword with
    | nil => contradiction
    | cons k ks =>
      rw [List.cons_append] at hat
      rw [List.nil_append, List.cons_append, cut?, hat]
      simp
  | cons c a ih =>
    have hsuffix : a <:+ c :: a := List.suffix_cons c a
    have hat := isAt_append_eq_false (List.cons_ne_nil c a) hfree happart
    rw [List.cons_append] at hat
    rw [List.cons_append, cut?, hat, ih (hfree.of_suffix hsuffix) (happart.of_suffix hsuffix)]
    simp

theorem splitFrom_length_append (keyword front s : List Char) :
    splitFrom keyword front.length (front ++ s) = splitFrom keyword 0 s := by
  induction front with
  | nil => rfl
  | cons c front ih =>
    rw [List.cons_append, List.length_cons, splitFrom]
    exact ih

theorem split_append {keyword a b : List Char} (hk : keyword ≠ []) (hfree : Free keyword a)
    (happart : Apart keyword a (keyword ++ b)) (hb : b = [] ∨ startsCapital b = true) :
    split keyword (a ++ (keyword ++ b)) = a :: split keyword b := by
  induction a with
  | nil =>
    have hat := isAt_append_self keyword hb
    cases keyword with
    | nil => contradiction
    | cons k ks =>
      rw [List.cons_append] at hat
      unfold split
      rw [List.nil_append, List.cons_append, splitFrom, hat]
      simp [splitFrom_length_append]
  | cons c a ih =>
    have hsuffix : a <:+ c :: a := List.suffix_cons c a
    have hat := isAt_append_eq_false (List.cons_ne_nil c a) hfree happart
    specialize ih (hfree.of_suffix hsuffix) (happart.of_suffix hsuffix)
    unfold split at ih ⊢
    rw [List.cons_append] at hat
    rw [List.cons_append, splitFrom, hat, ih]
    simp [consHead]

theorem split_eq_singleton {keyword s : List Char} (h : Free keyword s) :
    split keyword s = [s] := by
  unfold split
  induction s with
  | nil => rfl
  | cons c cs ih =>
    rw [splitFrom, h.isAt_eq_false (List.suffix_refl _), ih (h.of_suffix (List.suffix_cons c cs))]
    simp [consHead]

/-! ### Pieces and separators -/

theorem startsCapital_append {a : List Char} (b : List Char) (h : startsCapital a = true) :
    startsCapital (a ++ b) = true := by
  cases a with
  | nil => simp [startsCapital] at h
  | cons => exact h

theorem startsCapital_intercalate (sep : List Char) {pieces : List (List Char)}
    (hne : pieces ≠ []) (h : ∀ piece ∈ pieces, startsCapital piece = true) :
    startsCapital (List.intercalate sep pieces) = true := by
  cases pieces with
  | nil => contradiction
  | cons piece pieces =>
    have hpiece := h piece (by simp)
    cases pieces with
    | nil => simpa using hpiece
    | cons next pieces =>
      rw [List.intercalate_cons_cons, List.append_assoc]
      exact startsCapital_append _ hpiece

theorem split_intercalate {keyword : List Char} {pieces : List (List Char)}
    (hcapital : startsCapital keyword = true) (hsmall : ∀ c ∈ keyword.tail, c.isUpper = false)
    (hne : pieces ≠ []) (hpieces : ∀ piece ∈ pieces, startsCapital piece = true)
    (hfree : ∀ piece ∈ pieces, Free keyword piece) :
    split keyword (List.intercalate keyword pieces) = pieces := by
  induction pieces with
  | nil => contradiction
  | cons piece pieces ih =>
    cases pieces with
    | nil =>
      rw [List.intercalate_singleton]
      exact split_eq_singleton (hfree piece (by simp))
    | cons next pieces =>
      have hrest := startsCapital_intercalate keyword (List.cons_ne_nil next pieces)
        (fun p hp => hpieces p (List.mem_cons_of_mem _ hp))
      rw [List.intercalate_cons_cons, List.append_assoc, split_append]
      · rw [ih (by simp)]
        · intro p hp
          exact hpieces p (List.mem_cons_of_mem _ hp)
        · intro p hp
          exact hfree p (List.mem_cons_of_mem _ hp)
      · intro hnil
        simp [hnil, startsCapital] at hcapital
      · exact hfree piece (by simp)
      · exact Apart.of_capital hsmall (startsCapital_append _ hcapital)
      · exact .inr hrest

/--
Between pieces that begin with capital letters the separator makes no occurrence of the keyword.
-/
structure Clear (keyword sep : List Char) : Prop where
  free : Free keyword sep
  head : ∀ rest, ∀ c ∈ keyword.tail, (sep ++ rest).head? ≠ some c
  apart : ∀ rest, startsCapital rest = true → Apart keyword sep rest

theorem free_intercalate {keyword sep : List Char} {pieces : List (List Char)}
    (hk : keyword ≠ []) (hclear : Clear keyword sep)
    (hpieces : ∀ piece ∈ pieces, startsCapital piece = true)
    (hfree : ∀ piece ∈ pieces, Free keyword piece) :
    Free keyword (List.intercalate sep pieces) := by
  induction pieces with
  | nil =>
    rw [List.intercalate_nil, free_iff_isAt]
    intro rest hrest
    rw [List.suffix_nil.mp hrest]
    exact isAt_nil hk
  | cons piece pieces ih =>
    cases pieces with
    | nil =>
      rw [List.intercalate_singleton]
      exact hfree piece (by simp)
    | cons next pieces =>
      have htail : ∀ p ∈ next :: pieces, startsCapital p = true := by
        intro p hp
        exact hpieces p (List.mem_cons_of_mem _ hp)
      have hrest := startsCapital_intercalate sep (List.cons_ne_nil next pieces) htail
      rw [List.intercalate_cons_cons, List.append_assoc]
      apply Free.append
      · exact hfree piece (by simp)
      · apply Free.append hclear.free
        · apply ih htail
          intro p hp
          exact hfree p (List.mem_cons_of_mem _ hp)
        · exact hclear.apart _ hrest
      · exact Apart.of_head (hclear.head _)

theorem small_and : ∀ c ∈ and_.tail, c.isUpper = false := by
  unfold and_
  simp

theorem small_or : ∀ c ∈ or_.tail, c.isUpper = false := by
  unfold or_
  simp

theorem clear_or_and : Clear or_ and_ where
  free := by decide
  head := by
    intro rest
    show ∀ c ∈ or_.tail, some 'A' ≠ some c
    unfold or_
    simp
  apart := by
    intro rest hrest
    exact Apart.of_capital small_or hrest

theorem clear_orderBy_and : Clear orderBy and_ where
  free := by decide
  head := by
    intro rest
    show ∀ c ∈ orderBy.tail, some 'A' ≠ some c
    unfold orderBy
    simp
  apart := by
    intro rest hrest
    exact Apart.of_startsCapital (by decide) hrest

theorem clear_orderBy_or : Clear orderBy or_ where
  free := by decide
  head := by
    intro rest
    show ∀ c ∈ orderBy.tail, some 'O' ≠ some c
    unfold orderBy
    simp
  apart := by
    intro rest hrest
    exact Apart.of_startsCapital (by decide) hrest

/-! ### Endings -/

theorem eq_of_dropEnding_eq {endings : List String} {s rest : List Char} {ending : Option String}
    (h : dropEnding endings s = (rest, ending)) :
    s = rest ++ ending.elim [] String.toList := by
  induction endings with
  | nil =>
    simp only [dropEnding, Prod.mk.injEq] at h
    rw [← h.1, ← h.2]
    simp
  | cons e endings ih =>
    unfold dropEnding at h
    split at h
    next front hdrop =>
      simp only [Prod.mk.injEq] at h
      rw [Text.dropEnd?_eq_some_iff] at hdrop
      rw [← h.1, ← h.2, hdrop]
      simp
    next => exact ih h

theorem dropEnding_eq_self {endings : List String} {s : List Char}
    (h : ∀ ending ∈ endings, ¬ ending.toList <:+ s) : dropEnding endings s = (s, none) := by
  induction endings with
  | nil => rfl
  | cons e endings ih =>
    have hnone : Text.dropEnd? e.toList s = none := by
      cases hdrop : Text.dropEnd? e.toList s with
      | none => rfl
      | some front =>
        rw [Text.dropEnd?_eq_some_iff] at hdrop
        exact absurd ⟨front, hdrop.symm⟩ (h e (by simp))
    rw [dropEnding, hnone]
    apply ih
    intro ending hmem
    exact h ending (by simp [hmem])

theorem exists_intercalate_eq_append (sep : List Char) {pieces : List (List Char)}
    (hne : pieces ≠ []) :
    ∃ front,
      List.intercalate sep pieces = front ++ pieces.getLast hne ∧ (front = [] ∨ sep <:+ front) := by
  induction pieces with
  | nil => contradiction
  | cons piece pieces ih =>
    cases pieces with
    | nil => exact ⟨[], by simp, .inl rfl⟩
    | cons next pieces =>
      obtain ⟨front, hfront, hsep⟩ := ih (List.cons_ne_nil next pieces)
      refine ⟨piece ++ sep ++ front, ?_, ?_⟩
      · rw [List.intercalate_cons_cons, hfront, List.getLast_cons_cons, List.append_assoc _ front]
      · right
        rcases hsep with rfl | hsep
        · simp
        · exact hsep.trans (List.suffix_append _ _)

theorem suffix_getLast_of_suffix_intercalate {sep ending : List Char} {pieces : List (List Char)}
    (hne : pieces ≠ []) (hsep : sep ≠ [])
    (hbreak : ∀ i < ending.length, 0 < i → startsCapital (ending.drop i) = true →
      (ending.take i).getLast? ≠ sep.getLast?)
    (hcapital : startsCapital (pieces.getLast hne) = true)
    (h : ending <:+ List.intercalate sep pieces) : ending <:+ pieces.getLast hne := by
  obtain ⟨front, heq, hfront⟩ := exists_intercalate_eq_append sep hne
  generalize pieces.getLast hne = last at heq hcapital ⊢
  rw [heq] at h
  rcases List.suffix_or_suffix_of_suffix h (List.suffix_append front last) with hlast | ⟨a, ha⟩
  · exact hlast
  · cases a with
    | nil =>
      rw [List.nil_append] at ha
      rw [ha]
    | cons c a =>
      -- then the last piece begins behind the end of a separator
      subst ha
      rw [List.suffix_append_self_iff] at h
      rcases hfront with rfl | hfront
      · rw [List.suffix_nil] at h
        contradiction
      · have hlast : (c :: a).getLast? = sep.getLast? := by
          rw [List.getLast?_eq_some_getLast hsep,
            List.getLast?_eq_some_getLast (List.cons_ne_nil c a), hfront.getLast hsep,
            h.getLast (List.cons_ne_nil c a)]
        apply absurd hlast
        have hlength : (c :: a).length < (c :: a ++ last).length := by
          cases last with
          | nil => simp [startsCapital] at hcapital
          | cons => simp
        have hnot := hbreak (c :: a).length hlength (by simp) (by simpa using hcapital)
        rwa [List.take_left] at hnot

end Keyword
end DerivedQuery
