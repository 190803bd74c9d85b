import DerivedQuery.Proofs.Store.Reading

/-!
This module contains what the steps of an execution answer, and what they leave of the collection.
-/

namespace DerivedQuery

variable {γ : Type} {read : EntityReader γ} {filter : Filter} {options : FindOptions}
  {spec : Specification} {s s' : Store}

def Outcome.pageInfo? : Outcome γ → Option PageInfo
  | .page p => some p.toPageInfo
  | .geoPage p => some p.toPageInfo
  | _ => none

/-! ### Searches -/

namespace Collection

theorem ordered_perm (filter : Filter) (sort : Option SortKeys) (documents : List Document) :
    (ordered filter sort documents).Perm documents := by
  unfold ordered
  split
  · exact InsertionSort.sort_perm ..
  · exact InsertionSort.sort_perm ..
  · exact .refl documents

theorem length_ordered (filter : Filter) (sort : Option SortKeys) (documents : List Document) :
    (ordered filter sort documents).length = documents.length :=
  (ordered_perm filter sort documents).length_eq

theorem length_projected (projection : Option (List String)) (documents : List Document) :
    (projected projection documents).length = documents.length := by
  cases projection with
  | none => rfl
  | some fields => exact List.length_map ..

theorem projected_window (projection : Option (List String)) (skip limit : Option Nat)
    (documents : List Document) :
    projected projection (window skip limit documents)
      =
    window skip limit (projected projection documents) := by
  cases projection with
  | none => rfl
  | some fields =>
    cases limit with
    | none => exact List.map_drop
    | some n =>
      simp only [projected, window]
      rw [List.map_take, List.map_drop]

theorem mapM_window {α β : Type} {f : α → Option β} {as : List α} {bs : List β}
    (h : as.mapM f = some bs) (skip limit : Option Nat) :
    (window skip limit as).mapM f = some (window skip limit bs) := by
  rw [mapM_eq_some_iff] at h ⊢
  cases limit with
  | none => exact List.forall₂_drop _ h
  | some n => exact List.forall₂_take _ (List.forall₂_drop _ h)

end Collection

/-! ### Steps -/

namespace Store

theorem count_of_failure_eq_none (h : s.collection.failure = none) :
    count filter s = .ok (s.collection.matching filter).length s := by
  unfold count Collection.count
  simp only [h]

theorem count_eq_ok {n : Nat} (h : count filter s = .ok n s') :
    n = (s.collection.matching filter).length ∧ s'.collection = s.collection := by
  unfold count Collection.count at h
  cases hfailure : s.collection.failure with
  | none =>
    simp only [hfailure] at h
    cases h
    exact ⟨rfl, rfl⟩
  | some failure => cases failure <;> simp [hfailure] at h

end Store

namespace Execution

theorem handBack_eq_ok_iff {documents : List Document} {failure : Option String}
    {entities : List γ} :
    handBack read documents failure s = .ok entities s'
      ↔
    documents.mapM read = some entities ∧ failure = none ∧ s = s' := by
  unfold handBack
  cases documents.mapM read with
  | none =>
    constructor
    · intro h
      cases h
    · rintro ⟨h, -⟩
      contradiction
  | some entities' =>
    cases failure with
    | none =>
      constructor
      · intro h
        cases h
        exact ⟨rfl, rfl, rfl⟩
      · rintro ⟨h, -, rfl⟩
        cases h
        rfl
    | some cause => simp [Store.fail]

theorem collect_eq_ok {entities : List γ}
    (h : collect read filter options s = .ok entities s') :
    (s.collection.select filter options).mapM read = some entities
      ∧
    s'.collection.documents = s.collection.documents := by
  have hcall : ∀ cause, s.collection.failure ≠ some (.call cause) := by
    intro cause hcause
    rw [collect_of_call hcause] at h
    contradiction
  rw [collect_of_not_call hcall, handBack_eq_ok_iff] at h
  obtain ⟨hentities, hending, rfl⟩ := h
  rw [Cursor.reachable_of_ending?_eq_none hending] at hentities
  exact ⟨hentities, rfl⟩

theorem total_eq_ok {n : Nat} (h : total spec s = .ok n s') :
    n = spec.limit.elim (s.collection.matching spec.filter).length
      (min (s.collection.matching spec.filter).length)
      ∧
    s'.collection = s.collection := by
  unfold total at h
  simp only [run_bind_eq_ok_iff, Store.reporting_eq_ok_iff] at h
  obtain ⟨m, s₁, hcount, h⟩ := h
  cases h
  obtain ⟨rfl, hcollection⟩ := Store.count_eq_ok hcount
  exact ⟨rfl, hcollection⟩

/-! ### Outcomes -/

theorem ranked_eq_ok {ranking : Ranking γ}
    (h : ranked read spec options s = .ok ranking s') :
    ranking.results.length = (s.collection.select spec.filter options).length
      ∧
    s'.collection.documents = s.collection.documents := by
  cases hnear : spec.near with
  | none =>
    simp only [ranked, hnear] at h
    cases h
  | some near =>
    simp only [ranked_eq_collect hnear, run_bind_eq_ok_iff] at h
    obtain ⟨entities, s₁, hcollect, h⟩ := h
    cases h
    obtain ⟨hread, hdocuments⟩ := collect_eq_ok hcollect
    refine ⟨?_, hdocuments⟩
    rw [Ranking.ofList, (InsertionSort.sort_perm _ _).length_eq,
      (mapM_eq_some_iff.mp hread).length_eq]

theorem paged_eq_ok {result : Outcome γ} (hpaged : spec.shape.isPaged = true)
    (h : outcome read spec options s = .ok result s') :
    result.pageInfo? = some (pageInfo spec
        (spec.limit.elim (s.collection.matching spec.filter).length
          (min (s.collection.matching spec.filter).length)))
      ∧
    result.size = (s.collection.select spec.filter options).length := by
  unfold outcome at h
  cases hshape : spec.shape with
  | page =>
    simp only [hshape, run_bind_eq_ok_iff] at h
    obtain ⟨content, s₁, hcollect, n, s₂, hcount, h⟩ := h
    cases h
    obtain ⟨hread, hdocuments⟩ := collect_eq_ok hcollect
    obtain ⟨htotal, -⟩ := total_eq_ok hcount
    rw [Collection.matching, hdocuments] at htotal
    rw [Outcome.pageInfo?, Outcome.size, htotal, (mapM_eq_some_iff.mp hread).length_eq]
    exact ⟨rfl, rfl⟩
  | geoPage =>
    simp only [hshape, run_bind_eq_ok_iff] at h
    obtain ⟨results, s₁, hranked, n, s₂, hcount, h⟩ := h
    cases h
    obtain ⟨hlength, hdocuments⟩ := ranked_eq_ok hranked
    obtain ⟨htotal, -⟩ := total_eq_ok hcount
    rw [Collection.matching, hdocuments] at htotal
    rw [Outcome.pageInfo?, Outcome.size, htotal, hlength]
    exact ⟨rfl, rfl⟩
  | list | one | count | exists_ | geoResults => simp [hshape, ResultShape.isPaged] at hpaged

/-! ### Whole queries -/

theorem run_eq_ok {settings : Settings} {result : Outcome γ}
    (h : run settings read spec s = .ok result s') :
    ∃ s₁, outcome read spec (Execution.options settings spec) s = .ok result s₁
      ∧ s'.collection = s₁.collection := by
  unfold run at h
  simp only [run_bind_eq_ok_iff] at h
  obtain ⟨result', s₁, houtcome, _, s₂, hmodify, h⟩ := h
  cases hmodify
  cases h
  exact ⟨s₁, houtcome, rfl⟩

theorem run_of_outcome {settings : Settings} {result : Outcome γ}
    (h : outcome read spec (Execution.options settings spec) s = .ok result s') :
    ∃ s₂, run settings read spec s = .ok result s₂ ∧ s₂.collection = s'.collection := by
  refine ⟨finish settings spec (Execution.options settings spec) (some result.size) s', ?_, rfl⟩
  unfold run
  simp only [run_bind_eq_ok_iff]
  exact ⟨result, s', h, (), _, rfl, rfl⟩

end Execution

end DerivedQuery
