/-!
This module contains sorting by insertion. Each element moves down past the elements that it is less
than, so that equal elements keep their order, and the result is definite for any relation.
-/

namespace DerivedQuery
namespace InsertionSort

/--
Insert into a list that has its greatest element first.
-/
def insert (less : α → α → Bool) (a : α) : List α → List α
  | [] => [a]
  | b :: bs => if less a b then b :: insert less a bs else a :: b :: bs

def go (less : α → α → Bool) : (sorted rest : List α) → List α
  | sorted, [] => sorted.reverse
  | sorted, a :: rest => go less (insert less a sorted) rest

def sort (less : α → α → Bool) (l : List α) : List α :=
  go less [] l

theorem insert_perm (less : α → α → Bool) (a : α) (l : List α) :
    (insert less a l).Perm (a :: l) := by
  induction l with
  | nil => exact .refl _
  | cons b bs ih =>
    unfold insert
    split
    · exact (ih.cons b).trans (.swap a b bs)
    · exact .refl _

theorem go_perm (less : α → α → Bool) (sorted rest : List α) :
    (go less sorted rest).Perm (sorted ++ rest) := by
  induction rest generalizing sorted with
  | nil =>
    rw [List.append_nil]
    exact List.reverse_perm sorted
  | cons a rest ih =>
    refine (ih _).trans ?_
    refine ((insert_perm less a sorted).append_right rest).trans ?_
    exact List.perm_middle.symm

theorem sort_perm (less : α → α → Bool) (l : List α) : (sort less l).Perm l :=
  go_perm less [] l

/--
What is not less than an element that is not less than a third one is not less than the third one,
and of two elements one is not less than the other.
-/
structure Lawful (less : α → α → Bool) : Prop where
  trans : ∀ a b c, less b a = false → less c b = false → less c a = false
  asymm : ∀ a b, less a b = true → less b a = false

theorem insert_sorted {less : α → α → Bool} (h : Lawful less) (a : α) (l : List α)
    (hl : l.Pairwise fun x y => less x y = false) :
    (insert less a l).Pairwise fun x y => less x y = false := by
  induction l with
  | nil => simp [insert]
  | cons b bs ih =>
    rw [List.pairwise_cons] at hl
    unfold insert
    split
    next hless =>
      rw [List.pairwise_cons]
      refine ⟨?_, ih hl.2⟩
      intro c hc
      rcases List.mem_cons.mp ((insert_perm less a bs).mem_iff.mp hc) with rfl | hmem
      · exact h.asymm _ _ hless
      · exact hl.1 c hmem
    next hless =>
      simp only [Bool.not_eq_true] at hless
      rw [List.pairwise_cons]
      refine ⟨?_, List.pairwise_cons.mpr hl⟩
      intro c hc
      rcases List.mem_cons.mp hc with rfl | hmem
      · exact hless
      · exact h.trans c b a (hl.1 c hmem) hless

theorem go_sorted {less : α → α → Bool} (h : Lawful less) (sorted rest : List α)
    (hs : sorted.Pairwise fun x y => less x y = false) :
    (go less sorted rest).Pairwise fun x y => less y x = false := by
  induction rest generalizing sorted with
  | nil => simpa [go, List.pairwise_reverse] using hs
  | cons a rest ih => exact ih _ (insert_sorted h a sorted hs)

theorem sort_sorted {less : α → α → Bool} (h : Lawful less) (l : List α) :
    (sort less l).Pairwise fun x y => less y x = false :=
  go_sorted h [] l .nil

end InsertionSort
end DerivedQuery
