import DerivedQuery.Order.InsertionSort
import Mathlib.Data.List.Forall2

/-!
This module contains that sorting by insertion looks at nothing but the relation, and that it keeps
the order of elements of which none is less than another. Sorting by a total preorder has only one
result, if it keeps the order of equal elements.
-/

namespace DerivedQuery
namespace InsertionSort

variable {α β : Type}

/-! ### Lists whose elements compare alike -/

section

variable {R : α → β → Prop} {less : α → α → Bool} {less' : β → β → Bool}

def Respects (R : α → β → Prop) (less : α → α → Bool) (less' : β → β → Bool) : Prop :=
  ∀ a b a' b', R a b → R a' b' → less a a' = less' b b'

theorem forall₂_insert (h : Respects R less less') {a : α} {b : β} {as : List α} {bs : List β}
    (hab : R a b) (hs : List.Forall₂ R as bs) :
    List.Forall₂ R (insert less a as) (insert less' b bs) := by
  induction hs with
  | nil => exact .cons hab .nil
  | @cons a' b' as bs hhead hs ih =>
    unfold insert
    rw [h a b a' b' hab hhead]
    split
    · exact .cons hhead ih
    · exact .cons hab (.cons hhead hs)

theorem forall₂_go (h : Respects R less less') {sorted rest : List α} {sorted' rest' : List β}
    (hsorted : List.Forall₂ R sorted sorted') (hrest : List.Forall₂ R rest rest') :
    List.Forall₂ R (go less sorted rest) (go less' sorted' rest') := by
  induction hrest generalizing sorted sorted' with
  | nil => exact List.rel_reverse hsorted
  | cons hhead _ ih => exact ih (forall₂_insert h hhead hsorted)

theorem forall₂_sort (h : Respects R less less') {as : List α} {bs : List β}
    (hs : List.Forall₂ R as bs) : List.Forall₂ R (sort less as) (sort less' bs) :=
  forall₂_go h .nil hs

end

theorem sort_congr {less less' : α → α → Bool} {l : List α}
    (h : ∀ a ∈ l, ∀ b ∈ l, less a b = less' a b) : sort less l = sort less' l := by
  rw [← List.forall₂_eq_eq_eq]
  have hself : List.Forall₂ (fun a b => a ∈ l ∧ a = b) l l := by
    rw [List.forall₂_same]
    intro a ha
    exact ⟨ha, rfl⟩
  refine (forall₂_sort ?_ hself).imp fun _ _ hab => hab.2
  rintro a _ b _ ⟨ha, rfl⟩ ⟨hb, rfl⟩
  exact h a ha b hb

/-! ### Elements that are alike -/

variable {less : α → α → Bool} {p : α → Bool}

theorem filter_insert {a : α} {l : List α}
    (h : p a = true → ∀ b ∈ l, p b = true → less a b = false) :
    (insert less a l).filter p = (a :: l).filter p := by
  induction l with
  | nil => rfl
  | cons b bs ih =>
    unfold insert
    split
    next hless =>
      rw [List.filter_cons, ih fun ha c hc => h ha c (List.mem_cons_of_mem b hc)]
      by_cases ha : p a = true
      · -- the element moves down past those only that are left out
        have hb : p b = false := by
          by_contra hb
          rw [h ha b List.mem_cons_self (by simpa using hb)] at hless
          contradiction
        simp [ha, hb]
      · simp [ha, List.filter_cons]
    next => rfl

theorem filter_go {sorted rest : List α}
    (h : ∀ a ∈ rest, p a = true → ∀ b ∈ sorted ++ rest, p b = true → less a b = false) :
    (go less sorted rest).filter p = (sorted.reverse ++ rest).filter p := by
  induction rest generalizing sorted with
  | nil => rw [go, List.append_nil]
  | cons a rest ih =>
    have hmem : ∀ b ∈ insert less a sorted ++ rest, b ∈ sorted ++ a :: rest := by
      intro b hb
      exact (((insert_perm less a sorted).append_right rest).trans
        List.perm_middle.symm).mem_iff.mp hb
    rw [go, ih fun b hb hpb c hc => h b (List.mem_cons_of_mem a hb) hpb c (hmem c hc)]
    rw [List.filter_append, List.filter_reverse, filter_insert]
    · rw [← List.filter_reverse, ← List.filter_append, List.reverse_cons, List.append_assoc,
        List.singleton_append]
    · intro ha b hb
      exact h a List.mem_cons_self ha b (List.mem_append_left _ hb)

theorem filter_sort {l : List α}
    (h : ∀ a ∈ l, p a = true → ∀ b ∈ l, p b = true → less a b = false) :
    (sort less l).filter p = l.filter p :=
  filter_go h

end InsertionSort

/-! ### Stable sorting -/

section

variable {α : Type} {cmp : α → α → Ordering} {l sorted sorted' : List α}

/--
Lists in order that have the same elements, and the same ones among those that are alike, are equal.
-/
theorem eq_of_ascending {le : α → α → Prop} [DecidableRel le] {as bs : List α}
    (hrefl : ∀ a ∈ as, le a a) (hperm : as.Perm bs) (has : as.Pairwise le) (hbs : bs.Pairwise le)
    (hties : ∀ c ∈ as, as.filter (fun a => le c a ∧ le a c) = bs.filter fun a => le c a ∧ le a c) :
    as = bs := by
  induction as generalizing bs with
  | nil => exact hperm.nil_eq
  | cons a as ih =>
    cases bs with
    | nil => exact hperm.eq_nil
    | cons b bs =>
      have haa : le a a := hrefl a List.mem_cons_self
      have hab : le a b := by
        rcases List.mem_cons.mp (hperm.mem_iff.mpr List.mem_cons_self) with rfl | hb
        · exact haa
        · exact List.rel_of_pairwise_cons has hb
      have hba : le b a := by
        rcases List.mem_cons.mp (hperm.mem_iff.mp List.mem_cons_self) with rfl | ha
        · exact haa
        · exact List.rel_of_pairwise_cons hbs ha
      -- both heads come first among the elements that are like them
      have hhead := hties a List.mem_cons_self
      rw [List.filter_cons_of_pos (by simp [haa]), List.filter_cons_of_pos (by simp [hab, hba]),
        List.cons.injEq] at hhead
      obtain ⟨rfl, -⟩ := hhead
      rw [ih (fun c hc => hrefl c (List.mem_cons_of_mem a hc)) hperm.cons_inv has.of_cons hbs.of_cons]
      intro c hc
      have hc := hties c (List.mem_cons_of_mem a hc)
      rw [List.filter_cons, List.filter_cons] at hc
      split at hc
      · exact List.tail_eq_of_cons_eq hc
      · exact hc

structure IsPreorderOn (cmp : α → α → Ordering) (l : List α) : Prop where
  swap : ∀ a ∈ l, ∀ b ∈ l, cmp b a = (cmp a b).swap
  trans : ∀ a ∈ l, ∀ b ∈ l, ∀ c ∈ l, cmp a b ≠ .gt → cmp b c ≠ .gt → cmp a c ≠ .gt

/--
The list is sorted by the comparison, and equal elements keep their order.
-/
structure IsStableSort (cmp : α → α → Ordering) (l sorted : List α) : Prop where
  perm : sorted.Perm l
  ascending : sorted.Pairwise fun a b => cmp a b ≠ .gt
  ties : ∀ a ∈ l, sorted.filter (cmp a · = .eq) = l.filter (cmp a · = .eq)

theorem IsPreorderOn.eq_iff (h : IsPreorderOn cmp l) {a b : α} (ha : a ∈ l) (hb : b ∈ l) :
    cmp a b = .eq ↔ cmp a b ≠ .gt ∧ cmp b a ≠ .gt := by
  rw [h.swap a ha b hb]
  cases cmp a b <;> decide

theorem IsStableSort.unique (h : IsStableSort cmp l sorted) (h' : IsStableSort cmp l sorted')
    (hcmp : IsPreorderOn cmp l) : sorted = sorted' := by
  have hfilter {as : List α} (has : as.Perm l) {a : α} (ha : a ∈ l) :
      as.filter (fun b => cmp a b ≠ .gt ∧ cmp b a ≠ .gt) = as.filter (cmp a · = .eq) := by
    apply List.filter_congr
    intro b hb
    rw [decide_eq_decide, hcmp.eq_iff ha (has.mem_iff.mp hb)]
  apply eq_of_ascending ?_ (h.perm.trans h'.perm.symm) h.ascending h'.ascending
  · intro a ha
    rw [h.perm.mem_iff] at ha
    rw [hfilter h.perm ha, hfilter h'.perm ha, h.ties a ha, h'.ties a ha]
  · intro a ha
    rw [h.perm.mem_iff] at ha
    have hself := hcmp.swap a ha a ha
    cases horder : cmp a a <;> simp_all

namespace InsertionSort

theorem sort_sorted_of_mem {less : α → α → Bool}
    (htrans : ∀ a ∈ l, ∀ b ∈ l, ∀ c ∈ l, less b a = false → less c b = false → less c a = false)
    (hasymm : ∀ a ∈ l, ∀ b ∈ l, less a b = true → less b a = false) :
    (sort less l).Pairwise fun a b => less b a = false := by
  let less' : { a // a ∈ l } → { a // a ∈ l } → Bool := fun a b => less a b
  have hlawful : Lawful less' := {
    trans := fun a b c => htrans a a.2 b b.2 c c.2
    asymm := fun a b => hasymm a a.2 b b.2 }
  have hself : List.Forall₂ (fun a b => a.val = b) l.attach l := by
    rw [← List.forall₂_map_left_iff (R := Eq), List.attach_map_subtype_val, List.forall₂_eq_eq_eq]
  have hsort : List.Forall₂ (fun a b => a.val = b) (sort less' l.attach) (sort less l) := by
    refine forall₂_sort ?_ hself
    rintro _ _ _ _ rfl rfl
    rfl
  rw [← List.forall₂_map_left_iff (R := Eq), List.forall₂_eq_eq_eq] at hsort
  rw [← hsort, List.pairwise_map]
  exact sort_sorted hlawful l.attach

theorem isStableSort (h : IsPreorderOn cmp l) :
    IsStableSort cmp l (sort (fun a b => cmp a b == .lt) l) := by
  have hless {a b : α} (ha : a ∈ l) (hb : b ∈ l) : (cmp b a == .lt) = false ↔ cmp a b ≠ .gt := by
    rw [h.swap a ha b hb]
    cases cmp a b <;> decide
  constructor
  case perm => exact sort_perm _ l
  case ascending =>
    have hsorted : (sort (fun a b => cmp a b == .lt) l).Pairwise
        fun a b => (cmp b a == .lt) = false := by
      apply sort_sorted_of_mem
      · intro a ha b hb c hc hba hcb
        rw [hless ha hb] at hba
        rw [hless hb hc] at hcb
        rw [hless ha hc]
        exact h.trans a ha b hb c hc hba hcb
      · intro a ha b hb hab
        rw [hless ha hb, eq_of_beq hab]
        decide
    refine hsorted.imp_of_mem ?_
    intro a b ha hb hba
    rw [(sort_perm _ l).mem_iff] at ha hb
    exact (hless ha hb).mp hba
  case ties =>
    intro a ha
    apply filter_sort
    intro b hb hab c hc hac
    rw [decide_eq_true_iff] at hab hac
    rw [hless hc hb]
    rw [h.eq_iff ha hb] at hab
    rw [h.eq_iff ha hc] at hac
    exact h.trans c hc a ha b hb hac.2 hab.1

end InsertionSort

end

end DerivedQuery
