import DerivedQuery.Method.Name
import DerivedQuery.Proofs.Text.Letters

/-!
This module contains that a method name is put into one form once and for all.
-/

namespace DerivedQuery

theorem Text.underscore_not_mem_capitalize {word : List Char} (h : '_' ∉ word) :
    '_' ∉ Text.capitalize word := by
  cases word with
  | nil => exact h
  | cons c cs =>
    simp only [List.mem_cons, not_or] at h
    simp only [Text.capitalize, List.mem_cons, not_or]
    constructor
    · exact (toUpper_ne_underscore (fun heq => h.1 heq.symm)).symm
    · exact h.2

namespace MethodName

theorem underscore_not_mem_joinWords {words : List (List Char)}
    (h : ∀ word ∈ words, '_' ∉ word) : '_' ∉ joinWords words := by
  cases words with
  | nil => simp [joinWords]
  | cons word words =>
    rw [joinWords, List.mem_append, List.mem_flatMap, not_or]
    constructor
    · exact h word (by simp)
    · rintro ⟨next, hnext, hmem⟩
      apply Text.underscore_not_mem_capitalize _ hmem
      exact h next (by simp [hnext])

theorem normalizeChars_of_not_mem {s : List Char} (h : '_' ∉ s) : normalizeChars s = s := by
  unfold normalizeChars
  rw [if_neg]
  simp [h]

theorem normalizeChars_of_isUpper {s : List Char} (h : s.any Char.isUpper = true) :
    normalizeChars s = s := by
  unfold normalizeChars
  rw [if_neg]
  simp only [h]
  simp

@[simp]
theorem normalizeChars_normalizeChars (s : List Char) :
    normalizeChars (normalizeChars s) = normalizeChars s := by
  by_cases h : (s.contains '_' && !s.any Char.isUpper) = true
  · -- a name that changes has no underscore afterwards
    apply normalizeChars_of_not_mem
    unfold normalizeChars
    rw [if_pos h]
    apply underscore_not_mem_joinWords
    intro word hword
    exact Text.not_mem_of_mem_splitOn '_' s word (List.mem_filter.mp hword).1
  · have hself : normalizeChars s = s := by
      unfold normalizeChars
      rw [if_neg h]
    rw [hself, hself]

end MethodName
end DerivedQuery
