import DerivedQuery.Pattern.Basic
import Mathlib.Data.List.Basic

/-!
This module contains what it means that a part of a text matches a pattern, without marks. The marks
that a run leaves are the ends of such parts, for patterns of every kind, and so a search succeeds
exactly if some part of the text matches.
-/

namespace DerivedQuery

namespace Spot

theorem length_ofCharsAfter (before : Option Char) (s : List Char) :
    (ofCharsAfter before s).length = s.length + 1 := by
  induction s generalizing before with
  | nil => rfl
  | cons c s ih => rw [ofCharsAfter, List.length_cons, ih, List.length_cons]

theorem getElem?_ofCharsAfter (before : Option Char) {s : List Char} {i : Nat}
    (h : i ≤ s.length) :
    (ofCharsAfter before s)[i]? = some ⟨if i = 0 then before else s[i - 1]?, s[i]?⟩ := by
  induction s generalizing before i with
  | nil =>
    obtain rfl := Nat.le_zero.mp h
    rfl
  | cons c s ih =>
    rw [ofCharsAfter]
    cases i with
    | zero => rfl
    | succ i =>
      rw [List.getElem?_cons_succ, ih (some c) (Nat.le_of_succ_le_succ h)]
      cases i <;> simp

theorem length_ofChars (s : List Char) : (ofChars s).length = s.length + 1 :=
  length_ofCharsAfter none s

theorem getElem?_ofChars {s : List Char} {i : Nat} (h : i ≤ s.length) :
    (ofChars s)[i]? = some ⟨if i = 0 then none else s[i - 1]?, s[i]?⟩ :=
  getElem?_ofCharsAfter none h

end Spot

namespace Pattern

/-! ### Parts that match -/

def Steps (r : Nat → Nat → Prop) : Nat → Nat → Nat → Prop
  | 0, i, j => i = j
  | n + 1, i, j => ∃ k, r i k ∧ Steps r n k j

theorem steps_add {r : Nat → Nat → Prop} {m n i j : Nat} :
    Steps r (m + n) i j ↔ ∃ k, Steps r m i k ∧ Steps r n k j := by
  induction m generalizing i with
  | zero => simp [Steps]
  | succ m ih =>
    rw [Nat.succ_add]
    simp only [Steps, ih]
    constructor
    · rintro ⟨k, hfirst, l, hsteps, hrest⟩
      exact ⟨l, ⟨k, hfirst, hsteps⟩, hrest⟩
    · rintro ⟨l, ⟨k, hfirst, hsteps⟩, hrest⟩
      exact ⟨k, hfirst, l, hsteps, hrest⟩

def Matches (s : List Char) : Pattern → Nat → Nat → Prop
  | .empty, i, j => i = j
  | .one c, i, j => j = i + 1 ∧ ∃ a, s[i]? = some a ∧ c.contains a = true
  | .look l, i, j => i = j ∧ ∃ spot, (Spot.ofChars s)[i]? = some spot ∧ l.holds spot = true
  | .seq a b, i, j => ∃ k, Matches s a i k ∧ Matches s b k j
  | .alt a b, i, j => Matches s a i j ∨ Matches s b i j
  | .repeated a least most, i, j =>
    ∃ n, least ≤ n ∧ (∀ m ∈ most, n ≤ max least m) ∧ Steps (Matches s a) n i j

/-! ### Marks -/

def Marked (marks : List Bool) (i : Nat) : Prop :=
  marks[i]? = some true

variable {n : Nat} {marks other : List Bool} {r r' : Nat → Nat → Prop}
  {step step' : List Bool → List Bool}

theorem Marked.lt_length {i : Nat} (h : Marked marks i) : i < marks.length :=
  (List.getElem?_eq_some_iff.mp h).1

theorem mem_iff_exists_marked : true ∈ marks ↔ ∃ i, Marked marks i :=
  List.mem_iff_getElem?

theorem marked_join {j : Nat} (h : marks.length = other.length) :
    Marked (join marks other) j ↔ Marked marks j ∨ Marked other j := by
  unfold Marked join
  rw [List.getElem?_zipWith]
  by_cases hj : j < marks.length
  · rw [List.getElem?_eq_getElem hj, List.getElem?_eq_getElem (h ▸ hj)]
    simp
  · rw [List.getElem?_eq_none (Nat.le_of_not_lt hj),
      List.getElem?_eq_none (h ▸ Nat.le_of_not_lt hj)]
    simp

theorem length_join (h : marks.length = other.length) :
    (join marks other).length = marks.length := by
  rw [join, List.length_zipWith, ← h, Nat.min_self]

theorem marked_keep {test : Spot → Bool} {spots : List Spot} {j : Nat} :
    Marked (keep test spots marks) j
      ↔
    Marked marks j ∧ ∃ spot, spots[j]? = some spot ∧ test spot = true := by
  unfold Marked keep
  rw [List.getElem?_zipWith]
  cases spots[j]? <;> cases marks[j]? <;> simp

theorem length_advance {test : Char → Bool} {carry : Bool} {spots : List Spot}
    (h : marks.length = spots.length) : (advance test carry spots marks).length = spots.length := by
  induction spots generalizing carry marks with
  | nil => rfl
  | cons spot spots ih =>
    obtain ⟨mark, marks, rfl⟩ := List.exists_cons_of_length_eq_add_one h
    rw [advance, List.length_cons, ih (Nat.succ.inj h), List.length_cons]

theorem marked_advance {test : Char → Bool} {carry : Bool} {spots : List Spot} {j : Nat}
    (h : marks.length = spots.length) :
    Marked (advance test carry spots marks) j
      ↔
    j < spots.length ∧ (j = 0 ∧ carry = true
      ∨ ∃ i, j = i + 1 ∧ Marked marks i
        ∧ ∃ spot, spots[i]? = some spot ∧ spot.after.any test = true) := by
  induction spots generalizing carry marks j with
  | nil => simp [advance, Marked]
  | cons spot spots ih =>
    obtain ⟨mark, marks, rfl⟩ := List.exists_cons_of_length_eq_add_one h
    rw [advance]
    cases j with
    | zero => simp [Marked]
    | succ j =>
      have htail : Marked (carry :: advance test (mark && spot.after.any test) spots marks) (j + 1)
          ↔ Marked (advance test (mark && spot.after.any test) spots marks) j := Iff.rfl
      rw [htail, ih (Nat.succ.inj h), List.length_cons, Nat.add_lt_add_iff_right]
      refine and_congr_right fun _ => ?_
      -- the mark that is moved is the first one, or one of the others
      constructor
      · rintro (⟨rfl, hfirst⟩ | ⟨i, rfl, hmark, hspot⟩)
        · rw [Bool.and_eq_true] at hfirst
          exact .inr ⟨0, rfl, congrArg some hfirst.1, spot, rfl, hfirst.2⟩
        · exact .inr ⟨i + 1, rfl, hmark, hspot⟩
      · rintro (⟨hzero, -⟩ | ⟨i, hi, hmark, spot', hspot, htest⟩)
        · contradiction
        · obtain rfl := Nat.succ.inj hi
          cases j with
          | zero =>
            cases hspot
            refine .inl ⟨rfl, ?_⟩
            rw [Option.some.inj hmark, htest]
            rfl
          | succ i => exact .inr ⟨i, rfl, hmark, spot', hspot, htest⟩

/-! ### Steps -/

/--
The step moves the marks of `n` places along the relation.
-/
structure Carries (n : Nat) (r : Nat → Nat → Prop) (step : List Bool → List Bool) : Prop where
  length : ∀ {marks}, marks.length = n → (step marks).length = n
  marked : ∀ {marks}, marks.length = n → ∀ {j}, Marked (step marks) j ↔ ∃ i, Marked marks i ∧ r i j

theorem carries_id : Carries n Eq fun marks => marks where
  length h := h
  marked _ := by simp

theorem Carries.comp (h : Carries n r step) (h' : Carries n r' step') :
    Carries n (fun i j => ∃ k, r i k ∧ r' k j) fun marks => step' (step marks) where
  length hlength := h'.length (h.length hlength)
  marked hlength j := by
    rw [h'.marked (h.length hlength)]
    simp only [h.marked hlength]
    constructor
    · rintro ⟨k, ⟨i, hmark, hfirst⟩, hsecond⟩
      exact ⟨i, hmark, k, hfirst, hsecond⟩
    · rintro ⟨i, hmark, k, hfirst, hsecond⟩
      exact ⟨k, ⟨i, hmark, hfirst⟩, hsecond⟩

theorem Carries.join (h : Carries n r step) (h' : Carries n r' step') :
    Carries n (fun i j => r i j ∨ r' i j) fun marks => Pattern.join (step marks) (step' marks) where
  length hlength := by
    rw [length_join ((h.length hlength).trans (h'.length hlength).symm), h.length hlength]
  marked hlength j := by
    rw [marked_join ((h.length hlength).trans (h'.length hlength).symm), h.marked hlength,
      h'.marked hlength, ← exists_or]
    simp only [and_or_left]

theorem Carries.iterate (h : Carries n r step) (k : Nat) :
    Carries n (Steps r k) (Pattern.iterate step k) := by
  induction k with
  | zero => exact carries_id
  | succ k ih => exact h.comp ih

theorem Carries.congr (h : Carries n r step) (heq : ∀ i j, r i j ↔ r' i j) :
    Carries n r' step where
  length := h.length
  marked hlength j := by
    rw [h.marked hlength]
    simp only [heq]

def Closed (r : Nat → Nat → Prop) (marks : List Bool) : Prop :=
  ∀ i j, Marked marks i → r i j → Marked marks j

theorem Closed.marked_of_steps {k i j : Nat} (h : Closed r marks) (hi : Marked marks i)
    (hsteps : Steps r k i j) : Marked marks j := by
  induction k generalizing i with
  | zero => exact hsteps ▸ hi
  | succ k ih =>
    obtain ⟨l, hfirst, hrest⟩ := hsteps
    exact ih (h i l hi hfirst) hrest

namespace Carries

theorem marked_join (h : Carries n r step) (hlength : marks.length = n) {j : Nat} :
    Marked (Pattern.join marks (step marks)) j ↔ Marked marks j ∨ ∃ i, Marked marks i ∧ r i j := by
  rw [Pattern.marked_join (hlength.trans (h.length hlength).symm), h.marked hlength]

theorem length_join (h : Carries n r step) (hlength : marks.length = n) :
    (Pattern.join marks (step marks)).length = n := by
  rw [Pattern.length_join (hlength.trans (h.length hlength).symm), hlength]

theorem closed_of_join_eq (h : Carries n r step) (hlength : marks.length = n)
    (heq : Pattern.join marks (step marks) = marks) : Closed r marks := by
  intro i j hi hr
  rw [← heq, h.marked_join hlength]
  exact .inr ⟨i, hi, hr⟩

theorem close (h : Carries n r step) (k : Nat) :
    Carries n (fun i j => ∃ m ≤ k, Steps r m i j) (Pattern.close step k) := by
  induction k with
  | zero => exact carries_id.congr fun i j => by simp [Steps]
  | succ k ih =>
    constructor
    · intro marks hlength
      rw [Pattern.close]
      split
      next => exact hlength
      next => exact ih.length (h.length_join hlength)
    · intro marks hlength j
      rw [Pattern.close]
      split
      next heq =>
        have hclosed := h.closed_of_join_eq hlength heq
        constructor
        · intro hj
          exact ⟨j, hj, 0, Nat.zero_le _, rfl⟩
        · rintro ⟨i, hi, m, -, hsteps⟩
          exact hclosed.marked_of_steps hi hsteps
      next =>
        rw [ih.marked (h.length_join hlength)]
        simp only [h.marked_join hlength]
        constructor
        · rintro ⟨i, hi | ⟨l, hl, hr⟩, m, hm, hsteps⟩
          · exact ⟨i, hi, m, Nat.le_succ_of_le hm, hsteps⟩
          · exact ⟨l, hl, m + 1, Nat.succ_le_succ hm, i, hr, hsteps⟩
        · rintro ⟨i, hi, m, hm, hsteps⟩
          cases m with
          | zero => exact ⟨i, .inl hi, 0, Nat.zero_le _, hsteps⟩
          | succ m =>
            obtain ⟨l, hr, hsteps⟩ := hsteps
            exact ⟨l, .inr ⟨i, hi, hr⟩, m, Nat.le_of_succ_le_succ hm, hsteps⟩

end Carries

/-! ### Repetition without a bound -/

theorem count_le_count_join (h : marks.length = other.length) :
    marks.count true ≤ (join marks other).count true := by
  induction marks generalizing other with
  | nil => exact Nat.zero_le _
  | cons mark marks ih =>
    obtain ⟨mark', other, rfl⟩ := List.exists_cons_of_length_eq_add_one h.symm
    have hle := ih (Nat.succ.inj h)
    unfold join at hle ⊢
    rw [List.zipWith_cons_cons, List.count_cons, List.count_cons]
    cases mark <;> cases mark' <;> simp
    all_goals omega

theorem count_lt_count_join (h : marks.length = other.length) (hne : join marks other ≠ marks) :
    marks.count true < (join marks other).count true := by
  induction marks generalizing other with
  | nil => exact absurd rfl hne
  | cons mark marks ih =>
    obtain ⟨mark', other, rfl⟩ := List.exists_cons_of_length_eq_add_one h.symm
    have hle := count_le_count_join (Nat.succ.inj h)
    have hlt := ih (Nat.succ.inj h)
    unfold join at hne hle hlt ⊢
    rw [List.zipWith_cons_cons, List.count_cons, List.count_cons]
    rw [List.zipWith_cons_cons] at hne
    cases mark <;> cases mark' <;> grind

namespace Carries

/--
Each round adds a mark, and so as many rounds as there are places without one are enough.
-/
theorem closed_close (h : Carries n r step) {k : Nat} (hlength : marks.length = n)
    (hcount : n ≤ k + marks.count true) : Closed r (Pattern.close step k marks) := by
  induction k generalizing marks with
  | zero =>
    intro i j hi hr
    have hj : j < n := h.length hlength ▸ ((h.marked hlength).mpr ⟨i, hi, hr⟩).lt_length
    have hall : ∀ mark ∈ marks, true = mark := by
      rw [← List.count_eq_length]
      have := List.count_le_length (a := true) (l := marks)
      omega
    rw [← hlength] at hj
    change marks[j]? = some true
    rw [List.getElem?_eq_getElem hj, ← hall _ (List.getElem_mem hj)]
  | succ k ih =>
    rw [Pattern.close]
    split
    next heq => exact h.closed_of_join_eq hlength heq
    next hne =>
      have hlt := count_lt_count_join (hlength.trans (h.length hlength).symm) hne
      exact ih (h.length_join hlength) (by omega)

theorem close_all (h : Carries n r step) :
    Carries n (fun i j => ∃ m, Steps r m i j) (Pattern.close step n) where
  length := (h.close n).length
  marked hlength j := by
    have hclosed := h.closed_close (k := n) hlength (Nat.le_add_right _ _)
    constructor
    · intro hj
      obtain ⟨i, hi, m, -, hsteps⟩ := ((h.close n).marked hlength).mp hj
      exact ⟨i, hi, m, hsteps⟩
    · rintro ⟨i, hi, m, hsteps⟩
      have hstart := ((h.close n).marked hlength).mpr ⟨i, hi, 0, Nat.zero_le _, rfl⟩
      exact hclosed.marked_of_steps hstart hsteps

end Carries

/-! ### Runs -/

variable {s : List Char}

theorem carries_advance (c : CharClass) :
    Carries (s.length + 1) (Matches s (.one c)) (advance c.contains false (Spot.ofChars s)) where
  length hlength := by
    rw [length_advance (hlength.trans (Spot.length_ofChars s).symm), Spot.length_ofChars]
  marked {marks} hlength j := by
    rw [marked_advance (hlength.trans (Spot.length_ofChars s).symm), Spot.length_ofChars]
    constructor
    · rintro ⟨hj, ⟨-, hcarry⟩ | ⟨i, rfl, hi, spot, hspot, hafter⟩⟩
      · contradiction
      · obtain ⟨a, ha, hcontains⟩ := (Option.any_eq_true _ _).mp hafter
        rw [Spot.getElem?_ofChars (by omega), Option.some.injEq] at hspot
        rw [← hspot] at ha
        exact ⟨i, hi, rfl, a, ha, hcontains⟩
    · rintro ⟨i, hi, rfl, a, ha, hcontains⟩
      have hlt := (List.getElem?_eq_some_iff.mp ha).1
      refine ⟨by omega, .inr ⟨i, rfl, hi, _, Spot.getElem?_ofChars (by omega), ?_⟩⟩
      rw [ha]
      exact hcontains

theorem carries_keep (l : Look) :
    Carries (s.length + 1) (Matches s (.look l)) (keep l.holds (Spot.ofChars s)) where
  length hlength := by
    rw [keep, List.length_zipWith, Spot.length_ofChars, hlength, Nat.min_self]
  marked hlength j := by
    rw [marked_keep]
    constructor
    · rintro ⟨hj, hspot⟩
      exact ⟨j, hj, rfl, hspot⟩
    · rintro ⟨i, hi, rfl, hspot⟩
      exact ⟨hi, hspot⟩

theorem carries_repeated {a : Pattern} (least : Nat) (most : Option Nat)
    (h : Carries (s.length + 1) (Matches s a) (run (Spot.ofChars s) a)) :
    Carries (s.length + 1) (Matches s (.repeated a least most))
      (run (Spot.ofChars s) (.repeated a least most)) := by
  cases most with
  | none =>
    have hclose := (h.iterate least).comp h.close_all
    rw [← Spot.length_ofChars s] at hclose ⊢
    refine hclose.congr fun i j => ?_
    simp only [← exists_and_left, Matches]
    constructor
    · rintro ⟨k, m, hleast, hmore⟩
      exact ⟨least + m, Nat.le_add_right _ _, by simp, steps_add.mpr ⟨k, hleast, hmore⟩⟩
    · rintro ⟨m, hle, -, hsteps⟩
      obtain ⟨m, rfl⟩ := Nat.exists_eq_add_of_le hle
      obtain ⟨k, hleast, hmore⟩ := steps_add.mp hsteps
      exact ⟨k, m, hleast, hmore⟩
  | some most =>
    refine ((h.iterate least).comp (h.close (most - least))).congr fun i j => ?_
    simp only [Matches, Option.mem_def, Option.some.injEq, forall_eq']
    constructor
    · rintro ⟨k, hleast, m, hm, hmore⟩
      exact ⟨least + m, Nat.le_add_right _ _, by omega, steps_add.mpr ⟨k, hleast, hmore⟩⟩
    · rintro ⟨m, hle, hmost, hsteps⟩
      obtain ⟨m, rfl⟩ := Nat.exists_eq_add_of_le hle
      obtain ⟨k, hleast, hmore⟩ := steps_add.mp hsteps
      exact ⟨k, hleast, m, by omega, hmore⟩

theorem carries_run (p : Pattern) :
    Carries (s.length + 1) (Matches s p) (run (Spot.ofChars s) p) := by
  induction p with
  | empty => exact carries_id
  | one c => exact carries_advance c
  | look l => exact carries_keep l
  | seq a b iha ihb => exact iha.comp ihb
  | alt a b iha ihb => exact iha.join ihb
  | repeated a least most ih => exact carries_repeated least most ih

/--
A search succeeds exactly if some part of the text matches.
-/
theorem findIn_iff {p : Pattern} :
    p.findIn s = true ↔ ∃ i j, i ≤ s.length ∧ Matches s p i j := by
  have hlength : ((Spot.ofChars s).map fun _ => true).length = s.length + 1 := by
    rw [List.length_map, Spot.length_ofChars]
  have hall : ∀ {i}, Marked ((Spot.ofChars s).map fun _ => true) i ↔ i ≤ s.length := by
    intro i
    constructor
    · intro hi
      have := hi.lt_length
      omega
    · intro hi
      rw [Marked, List.getElem?_map, Spot.getElem?_ofChars hi]
      rfl
  unfold findIn
  rw [List.any_eq_true]
  simp only [id, exists_eq_right, mem_iff_exists_marked, (carries_run p).marked hlength, hall]
  exact exists_comm

end Pattern
end DerivedQuery
