import DerivedQuery.Proofs.Filter.Sorting
import DerivedQuery.Proofs.Order.InsertionSort
import DerivedQuery.Store.Execution

/-!
This module contains where sorting by keys answers, and that it then has only one answer. Few documents
are sorted by insertion. There is only one way to sort more of them if the keys compare them by a total
preorder, which they do unless values are mixed.
-/

namespace DerivedQuery

variable {sort : SortKeys} {documents : List Document} {answer : Option (List Document)}

theorem Document.isPreorderOn_compareBy
    (h : ∀ a ∈ documents, ∀ b ∈ documents, ¬ MixedBy sort a b) :
    IsPreorderOn (compareBy sort) documents where
  swap := fun a _ b _ => (isPreorder_mixedBy sort).swap a b
  trans := fun a ha b hb c hc =>
    (isPreorder_mixedBy sort).trans a b c (h a ha b hb) (h b hb c hc) (h a ha c hc)

namespace Collection

/--
What a sort by the keys can answer. More documents than are sorted by insertion are sorted in some
stable way, but only if the keys compare them by a total preorder. Otherwise there can be any answer,
or none.
-/
inductive Sorts (sort : SortKeys) (documents : List Document) : Option (List Document) → Prop where
  | insertion (few : documents.length ≤ 20) : Sorts sort documents (some (sortedBy sort documents))
  | stable {sorted : List Document} (many : 20 < documents.length)
      (lawful : IsPreorderOn (Document.compareBy sort) documents)
      (isStableSort : IsStableSort (Document.compareBy sort) documents sorted) :
      Sorts sort documents (some sorted)
  | unlawful {answer : Option (List Document)} (many : 20 < documents.length)
      (unlawful : ¬ IsPreorderOn (Document.compareBy sort) documents) : Sorts sort documents answer

/--
Every sort by the keys answers.
-/
def SortAnswers (sort : SortKeys) (documents : List Document) : Prop :=
  documents.length ≤ 20 ∨ IsPreorderOn (Document.compareBy sort) documents

theorem Sorts.eq_some (h : Sorts sort documents answer) (hanswers : SortAnswers sort documents) :
    answer = some (sortedBy sort documents) := by
  cases h with
  | insertion => rfl
  | stable _ lawful isStableSort =>
    rw [isStableSort.unique (InsertionSort.isStableSort lawful) lawful]
    rfl
  | unlawful many unlawful =>
    obtain few | lawful := hanswers
    · exact absurd few (Nat.not_le.mpr many)
    · exact absurd lawful unlawful

end Collection

namespace Execution

/--
What the query has its collection sort is such that every sort answers. Counting the matches and
looking for any of them sorts nothing.
-/
def SortAnswers (spec : Specification) (c : Collection) : Prop :=
  spec.shape = .count ∨ spec.shape = .exists_ ∨
    Collection.SortAnswers (spec.sort.getD []) (c.matching spec.filter)

/--
However the matches are sorted, it is the order of `Collection.sortedBy`.
-/
def HasOneOrder (spec : Specification) (c : Collection) : Prop :=
  spec.shape = .count ∨ spec.shape = .exists_ ∨
    ∀ answer, Collection.Sorts (spec.sort.getD []) (c.matching spec.filter) answer →
      answer = some (Collection.sortedBy (spec.sort.getD []) (c.matching spec.filter))

theorem SortAnswers.hasOneOrder {spec : Specification} {c : Collection} (h : SortAnswers spec c) :
    HasOneOrder spec c :=
  h.imp_right fun h => h.imp_right fun h _ hsorts => hsorts.eq_some h

end Execution
end DerivedQuery
