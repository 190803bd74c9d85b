import DerivedQuery.Schema.Path
import Mathlib.Data.String.Basic

/-!
This module contains that the candidates of an ambiguous token are listed in alphabetical order, and
each of them once.
-/

namespace DerivedQuery
namespace Resolution

section

variable {α : Type} [BEq α] [LawfulBEq α]

theorem mem_eraseRepsBy_loop {x a : α} {rest done : List α} :
    x ∈ List.eraseRepsBy.loop (· == ·) a rest done ↔ x ∈ done ∨ x = a ∨ x ∈ rest := by
  induction rest generalizing a done with
  | nil => simp [List.eraseRepsBy.loop, or_comm]
  | cons b rest ih =>
    unfold List.eraseRepsBy.loop
    split
    next heq =>
      rw [beq_iff_eq] at heq
      rw [ih, heq]
      simp
    next =>
      rw [ih, List.mem_cons, List.mem_cons, or_comm (a := x = a), or_assoc]

theorem mem_eraseReps {x : α} {l : List α} : x ∈ l.eraseReps ↔ x ∈ l := by
  unfold List.eraseReps List.eraseRepsBy
  cases l with
  | nil => simp
  | cons a rest =>
    rw [mem_eraseRepsBy_loop]
    simp

variable [LinearOrder α]

/--
What is done is ascending from its end and below what is still to come.
-/
theorem pairwise_eraseRepsBy_loop {a : α} {rest done : List α}
    (hdone : (a :: done).Pairwise (· > ·)) (hrest : (a :: rest).Pairwise (· ≤ ·)) :
    (List.eraseRepsBy.loop (· == ·) a rest done).Pairwise (· < ·) := by
  induction rest generalizing a done with
  | nil =>
    unfold List.eraseRepsBy.loop
    rwa [List.pairwise_reverse]
  | cons b rest ih =>
    have hab : a ≤ b := (List.pairwise_cons.mp hrest).1 b (by simp)
    have htail := (List.pairwise_cons.mp hrest).2
    unfold List.eraseRepsBy.loop
    split
    next heq =>
      rw [beq_iff_eq] at heq
      apply ih hdone
      rwa [heq]
    next heq =>
      have hlt : a < b := lt_of_le_of_ne hab (by simpa using heq)
      apply ih _ htail
      rw [List.pairwise_cons]
      refine ⟨?_, hdone⟩
      intro c hc
      rcases List.mem_cons.mp hc with rfl | hc
      · exact hlt
      · exact lt_trans ((List.pairwise_cons.mp hdone).1 c hc) hlt

theorem pairwise_eraseReps {l : List α} (h : l.Pairwise (· ≤ ·)) :
    l.eraseReps.Pairwise (· < ·) := by
  unfold List.eraseReps List.eraseRepsBy
  cases l with
  | nil => exact .nil
  | cons a rest =>
    apply pairwise_eraseRepsBy_loop _ h
    simp

end

theorem lawful_less : InsertionSort.Lawful fun a b : String => decide (a < b) := by
  constructor
  · intro a b c hab hbc
    rw [decide_eq_false_iff_not, not_lt] at hab hbc ⊢
    exact le_trans hab hbc
  · intro a b hab
    rw [decide_eq_true_iff] at hab
    rw [decide_eq_false_iff_not, not_lt]
    exact le_of_lt hab

theorem mem_alphabetical {name : String} {names : List String} :
    name ∈ alphabetical names ↔ name ∈ names := by
  unfold alphabetical
  rw [mem_eraseReps, (InsertionSort.sort_perm _ names).mem_iff]

theorem pairwise_alphabetical (names : List String) :
    (alphabetical names).Pairwise (· < ·) := by
  unfold alphabetical
  apply pairwise_eraseReps
  apply (InsertionSort.sort_sorted lawful_less names).imp
  intro a b hab
  rwa [decide_eq_false_iff_not, not_lt] at hab

end Resolution
end DerivedQuery
