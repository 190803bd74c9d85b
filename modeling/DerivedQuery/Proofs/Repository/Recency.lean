import Mathlib.Data.List.Dedup

/-!
This module contains the orders in which elements were used last: how they change by one more use,
and that the first places hold the elements that few others were used after.
-/

namespace DerivedQuery
namespace Recency

variable {α : Type} [DecidableEq α]

/--
Every element where it occurs first.
-/
def latest : List α → List α
  | [] => []
  | a :: as => a :: (latest as).filter (· ≠ a)

@[simp]
theorem mem_latest {a : α} {as : List α} : a ∈ latest as ↔ a ∈ as := by
  induction as with
  | nil => simp [latest]
  | cons b as ih =>
    by_cases hab : a = b
    · simp [latest, hab]
    · simp [latest, hab, ih]

theorem nodup_latest (as : List α) : (latest as).Nodup := by
  induction as with
  | nil => simp [latest]
  | cons a as ih =>
    rw [latest, List.nodup_cons]
    constructor
    · simp
    · exact ih.filter _

theorem length_latest (as : List α) : (latest as).length = as.dedup.length := by
  apply List.Perm.length_eq
  rw [List.perm_ext_iff_of_nodup (nodup_latest as) (List.nodup_dedup as)]
  simp

theorem takeWhile_filter {a b : α} (h : b ≠ a) (as : List α) :
    (as.filter (· ≠ b)).takeWhile (· ≠ a) = (as.takeWhile (· ≠ a)).filter (· ≠ b) := by
  induction as with
  | nil => rfl
  | cons c as ih =>
    by_cases hca : c = a
    · subst hca
      simp [Ne.symm h]
    · by_cases hcb : c = b
      · subst hcb
        simp_all
      · simp_all

theorem takeWhile_latest (a : α) (as : List α) :
    (latest as).takeWhile (· ≠ a) = latest (as.takeWhile (· ≠ a)) := by
  induction as with
  | nil => rfl
  | cons b as ih =>
    by_cases hba : b = a
    · simp [latest, hba]
    · rw [latest, List.takeWhile_cons_of_pos (by simpa using hba),
        List.takeWhile_cons_of_pos (by simpa using hba), latest, takeWhile_filter hba, ih]

theorem mem_take_iff {a : α} {as : List α} {n : Nat} :
    a ∈ as.take n ↔ a ∈ as ∧ (as.takeWhile (· ≠ a)).length < n := by
  induction as generalizing n with
  | nil => simp
  | cons b as ih =>
    cases n with
    | zero => simp
    | succ n =>
      by_cases hba : b = a
      · simp [hba]
      · simp [ih, hba, Ne.symm hba]

theorem mem_take_latest {a : α} {as : List α} {n : Nat} :
    a ∈ (latest as).take n ↔ a ∈ as ∧ (as.takeWhile (· ≠ a)).dedup.length < n := by
  rw [mem_take_iff, takeWhile_latest, length_latest, mem_latest]

theorem take_filter_of_not_mem {a : α} {as : List α} {n : Nat} (h : a ∉ as.take n) :
    (as.filter (· ≠ a)).take n = as.take n := by
  induction as generalizing n with
  | nil => rfl
  | cons b as ih =>
    cases n with
    | zero => rfl
    | succ n =>
      simp only [List.take_succ_cons, List.mem_cons, not_or] at h
      rw [List.filter_cons_of_pos (by simpa using Ne.symm h.1), List.take_succ_cons,
        List.take_succ_cons, ih h.2]

theorem take_filter_of_mem {a : α} {as : List α} (hnodup : as.Nodup) {n : Nat}
    (h : a ∈ as.take (n + 1)) : (as.filter (· ≠ a)).take n = (as.take (n + 1)).filter (· ≠ a) := by
  induction as generalizing n with
  | nil => simp
  | cons b as ih =>
    obtain ⟨hb, hnodup⟩ := List.nodup_cons.mp hnodup
    rw [List.take_succ_cons] at h ⊢
    by_cases hba : b = a
    · -- no other element is taken out
      subst hba
      have hall : as.filter (· ≠ b) = as := by
        rw [List.filter_eq_self]
        intro c hc
        simpa using ne_of_mem_of_not_mem hc hb
      have htake : (as.take n).filter (· ≠ b) = as.take n := by
        rw [List.filter_eq_self]
        intro c hc
        simpa using ne_of_mem_of_not_mem (List.mem_of_mem_take hc) hb
      rw [List.filter_cons_of_neg (by simp), List.filter_cons_of_neg (by simp), hall, htake]
    · have hmem : a ∈ as.take n := (List.mem_cons.mp h).resolve_left (Ne.symm hba)
      cases n with
      | zero => simp at hmem
      | succ n =>
        rw [List.filter_cons_of_pos (by simpa using hba),
          List.filter_cons_of_pos (by simpa using hba), List.take_succ_cons, ih hnodup hmem]

theorem take_latest_cons_of_mem {a : α} {as : List α} {n : Nat}
    (h : a ∈ (latest as).take (n + 1)) :
    (latest (a :: as)).take (n + 1) = a :: ((latest as).take (n + 1)).filter (· ≠ a) := by
  rw [latest, List.take_succ_cons, take_filter_of_mem (nodup_latest as) h]

theorem take_latest_cons_of_not_mem {a : α} {as : List α} {n : Nat}
    (h : a ∉ (latest as).take (n + 1)) :
    (latest (a :: as)).take (n + 1) = a :: (latest as).take n := by
  rw [latest, List.take_succ_cons, take_filter_of_not_mem]
  intro hmem
  exact h (List.take_subset_take_left _ (Nat.le_succ n) hmem)

theorem dedup_concat (as : List α) (a : α) :
    (as ++ [a]).dedup = as.dedup.filter (· ≠ a) ++ [a] := by
  induction as with
  | nil => rfl
  | cons b as ih =>
    rw [List.cons_append]
    by_cases hmem : b ∈ as
    · rw [List.dedup_cons_of_mem hmem, List.dedup_cons_of_mem (by simp [hmem]), ih]
    · rw [List.dedup_cons_of_notMem hmem]
      by_cases hba : b = a
      · rw [List.dedup_cons_of_mem (by simp [hba]), ih, List.filter_cons_of_neg (by simp [hba])]
      · rw [List.dedup_cons_of_notMem (by simp [hmem, hba]), ih,
          List.filter_cons_of_pos (by simp [hba]), List.cons_append]

end Recency

end DerivedQuery
