import DerivedQuery.Proofs.Decimal.NumberOrder
import DerivedQuery.Proofs.Order.InsertionSort

/-!
This module contains rankings by distance. The elements of a list are in ascending order, and those at
the same distance keep their order. Whatever relation tells their distances apart, sorting by it ranks
them, and there is only one ranking.
-/

namespace DerivedQuery

open Float64 (IsTotalOn)

variable {α : Type} {distance : α → Float} {l ranked ranked' : List α}

structure IsRanking (distance : α → Float) (l ranked : List α) : Prop where
  perm : ranked.Perm l
  ascending : ranked.Pairwise fun a b => distance a ≤ distance b
  ties : ∀ x, ranked.filter (distance · = x) = l.filter (distance · = x)

theorem isRanking_self (h : l.Pairwise fun a b => distance a ≤ distance b) :
    IsRanking distance l l :=
  ⟨.refl l, h, fun _ => rfl⟩

/-! ### Uniqueness -/

theorem IsRanking.unique (htotal : IsTotalOn (· ∈ l.map distance)) (h : IsRanking distance l ranked)
    (h' : IsRanking distance l ranked') : ranked = ranked' := by
  have hfilter {as : List α} (has : as.Perm l) {a : α} (ha : a ∈ l) :
      as.filter (fun b => distance a ≤ distance b ∧ distance b ≤ distance a)
        = as.filter (distance · = distance a) := by
    apply List.filter_congr
    intro b hb
    obtain ⟨hle, heq⟩ := htotal _ _ (List.mem_map_of_mem (has.mem_iff.mp hb)) (List.mem_map_of_mem ha)
    rw [decide_eq_decide]
    constructor
    · rintro ⟨hab, hba⟩
      exact heq hba hab
    · intro hdistance
      rw [hdistance, or_self] at hle
      rw [hdistance]
      exact ⟨hle, hle⟩
  apply eq_of_ascending ?_ (h.perm.trans h'.perm.symm) h.ascending h'.ascending
  · intro a ha
    rw [h.perm.mem_iff] at ha
    rw [hfilter h.perm ha, hfilter h'.perm ha, h.ties, h'.ties]
  · intro a ha
    have hmem := List.mem_map_of_mem (f := distance) (h.perm.mem_iff.mp ha)
    simpa using (htotal _ _ hmem hmem).1

/-! ### Sorting -/

theorem lawful_rank : InsertionSort.Lawful
    fun a b => decide (Float64.rank (distance a) < Float64.rank (distance b)) := by
  constructor
  case trans =>
    intro a b c hba hcb
    simp only [decide_eq_false_iff_not, not_lt] at hba hcb ⊢
    exact hba.trans hcb
  case asymm =>
    intro a b hab
    simp only [decide_eq_true_eq, decide_eq_false_iff_not, not_lt] at hab ⊢
    exact hab.le

theorem isRanking_sort {less : α → α → Bool} (htotal : IsTotalOn (· ∈ l.map distance))
    (hless : ∀ a ∈ l, ∀ b ∈ l, less a b = true ↔ distance a < distance b) :
    IsRanking distance l (InsertionSort.sort less l) := by
  have hrank : ∀ a ∈ l, ∀ b ∈ l,
      less a b = decide (Float64.rank (distance a) < Float64.rank (distance b)) := by
    intro a ha b hb
    rw [Bool.eq_iff_iff, hless a ha b hb, decide_eq_true_iff]
    exact htotal.lt_iff_rank_lt (List.mem_map_of_mem ha) (List.mem_map_of_mem hb)
  constructor
  case perm => exact InsertionSort.sort_perm less l
  case ascending =>
    rw [InsertionSort.sort_congr hrank]
    refine (InsertionSort.sort_sorted lawful_rank l).imp_of_mem ?_
    intro a b ha hb hle
    rw [(InsertionSort.sort_perm _ l).mem_iff] at ha hb
    rw [decide_eq_false_iff_not, not_lt] at hle
    exact Float64.le_of_rank_le (htotal.isNaN_eq (List.mem_map_of_mem ha))
      (htotal.isNaN_eq (List.mem_map_of_mem hb)) hle
  case ties =>
    intro x
    apply InsertionSort.filter_sort
    intro a ha hax b hb hbx
    rw [decide_eq_true_iff] at hax hbx
    rw [hrank a ha b hb, hax, hbx, decide_eq_false_iff_not]
    exact lt_irrefl _

end DerivedQuery
