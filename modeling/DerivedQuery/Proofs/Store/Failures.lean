import DerivedQuery.Proofs.Store.Execution

/-!
This module contains what a failure of the collection does to a query. Either it does not reach the
query, which answers as it would without the failure, or it is all that the query answers.
-/

namespace DerivedQuery

variable {α β γ : Type} {read : EntityReader γ} {filter : Filter} {options : FindOptions}
  {spec : Specification} {s s₁ s₂ : Store}

/-! ### Failures -/

namespace Failure

def cause : Failure → String
  | .call cause | .afterDocuments _ cause => cause

/--
The failure reaches work that takes its documents from the collection and asks for one more after
`taken` of them. Work that does not say how many it takes is always reached.
-/
def Reaches (taken : Option Nat) : Failure → Prop
  | .call _ => True
  | .afterDocuments count _ => ∀ n ∈ taken, count ≤ n

end Failure

namespace Cursor

theorem reachable_fresh_of_lt {documents : List Document} {count : Nat}
    (h : documents.length < count) (cause : String) :
    (fresh documents (some (.afterDocuments count cause))).reachable = documents
      ∧
    (fresh documents (some (.afterDocuments count cause))).ending? = none := by
  have hcount : ¬ count ≤ documents.length := by omega
  simp [fresh, reachable, ending?, Failure.point?, hcount, List.take_of_length_le (Nat.le_of_lt h)]

theorem reachable_fresh_of_le {documents : List Document} {count : Nat}
    (h : count ≤ documents.length) (cause : String) :
    (fresh documents (some (.afterDocuments count cause))).reachable = documents.take count
      ∧
    (fresh documents (some (.afterDocuments count cause))).ending? = some cause := by
  simp [fresh, reachable, ending?, Failure.point?, h]

theorem next_fresh (documents : List Document) :
    (fresh documents none).next.1 = .ok documents.head? := by
  cases documents <;> rfl

theorem next_fresh_of_pos {count : Nat} (h : 0 < count) (documents : List Document)
    (cause : String) :
    (fresh documents (some (.afterDocuments count cause))).next.1 = .ok documents.head? := by
  have hfault : ¬ count ≤ 0 := by omega
  cases documents <;> simp [fresh, next, fault?, Failure.point?, hfault]

theorem next_fresh_zero (documents : List Document) (cause : String) :
    (fresh documents (some (.afterDocuments 0 cause))).next.1 = .error cause := rfl

end Cursor

namespace Store

/--
The collection is as it was, and `failures` more failures were counted.
-/
structure Leaves (failures : Nat) (s s' : Store) : Prop where
  collection_eq : s'.collection = s.collection
  failures_eq : s'.journal.metrics.failures = s.journal.metrics.failures + failures

theorem Leaves.refl (s : Store) : Leaves 0 s s :=
  ⟨rfl, rfl⟩

theorem Leaves.trans {m n : Nat} (h₁ : Leaves m s s₁) (h₂ : Leaves n s₁ s₂) :
    Leaves (m + n) s s₂ := by
  constructor
  · rw [h₂.collection_eq, h₁.collection_eq]
  · rw [h₂.failures_eq, h₁.failures_eq, Nat.add_assoc]

theorem Leaves.countFailure (h : Leaves 0 s s₁) :
    Leaves 1 s { s₁ with journal := s₁.journal.countFailure } where
  collection_eq := h.collection_eq
  failures_eq := congrArg (· + 1) h.failures_eq

/-! ### Searches -/

theorem withoutFailure_eq {c : Collection} (h : c.failure = none) : c.withoutFailure = c := by
  unfold Collection.withoutFailure
  rw [← h]

theorem leaves_searched (h : s.collection.failure = none) (found : List Document) :
    Leaves 0 s (s.searched found) :=
  ⟨withoutFailure_eq h, rfl⟩

theorem leaves_searched_failNext (h : s.collection.failure = none) (failure : Failure)
    (found : List Document) : Leaves 0 s ((s.failNext failure).searched found) :=
  ⟨withoutFailure_eq h, rfl⟩

@[simp]
theorem failure_failNext (failure : Failure) (s : Store) :
    (s.failNext failure).collection.failure = some failure := rfl

@[simp]
theorem select_failNext (failure : Failure) (s : Store) :
    (s.failNext failure).collection.select filter options = s.collection.select filter options :=
  rfl

theorem failure_failNext_ne_call {count : Nat} {cause : String} (other : String) :
    (s.failNext (.afterDocuments count cause)).collection.failure ≠ some (.call other) := by
  simp

end Store

/-! ### Work that a failure can reach -/

/--
The work succeeds without a failure. With one it answers the same, or the failure if that reaches it.
-/
structure AllOrNothing (action : StoreAction QueryError α) (taken : Option Nat) (s : Store)
    (a : α) : Prop where
  clean : ∃ s', action s = .ok a s' ∧ Store.Leaves 0 s s'
  missed : ∀ failure : Failure, ¬ failure.Reaches taken →
    ∃ s', action (s.failNext failure) = .ok a s' ∧ Store.Leaves 0 s s'
  reached : ∀ failure : Failure, failure.Reaches taken →
    ∃ s', action (s.failNext failure) = .error (.execution s.collection.name failure.cause) s'
      ∧ Store.Leaves 1 s s'

theorem AllOrNothing.bind {x : StoreAction QueryError α} {f : α → StoreAction QueryError β}
    {taken : Option Nat} {a : α} {b : β} (hx : AllOrNothing x taken s a)
    (hf : ∀ s₁, Store.Leaves 0 s s₁ → ∃ s₂, f a s₁ = .ok b s₂ ∧ Store.Leaves 0 s₁ s₂) :
    AllOrNothing (x >>= f) taken s b := by
  constructor
  case clean =>
    obtain ⟨s₁, hrun, hleaves⟩ := hx.clean
    obtain ⟨s₂, hrest, hleaves'⟩ := hf s₁ hleaves
    refine ⟨s₂, ?_, hleaves.trans hleaves'⟩
    rw [bind_eq_of_ok hrun, hrest]
  case missed =>
    intro failure hmissed
    obtain ⟨s₁, hrun, hleaves⟩ := hx.missed failure hmissed
    obtain ⟨s₂, hrest, hleaves'⟩ := hf s₁ hleaves
    refine ⟨s₂, ?_, hleaves.trans hleaves'⟩
    rw [bind_eq_of_ok hrun, hrest]
  case reached =>
    intro failure hreached
    obtain ⟨s₁, hrun, hleaves⟩ := hx.reached failure hreached
    refine ⟨s₁, ?_, hleaves⟩
    rw [bind_eq_of_error hrun]

theorem AllOrNothing.map {x : StoreAction QueryError α} {taken : Option Nat} {a : α}
    (hx : AllOrNothing x taken s a) (f : α → β) :
    AllOrNothing (do return f (← x)) taken s (f a) := by
  apply hx.bind
  intro s₁ _
  exact ⟨s₁, rfl, .refl s₁⟩

namespace Execution

theorem allOrNothing_collect {entities : List γ} (h : s.collection.failure = none)
    (hread : (s.collection.select filter options).mapM read = some entities) :
    AllOrNothing (collect read filter options)
      (some (s.collection.select filter options).length) s entities := by
  constructor
  case clean =>
    refine ⟨_, ?_, Store.leaves_searched h (s.collection.select filter options)⟩
    rw [collect_of_not_call (by simp [h]), h, handBack_eq_ok_iff]
    exact ⟨hread, rfl, rfl⟩
  case missed =>
    intro failure hmissed
    refine ⟨_, ?_, Store.leaves_searched_failNext h failure (s.collection.select filter options)⟩
    cases failure with
    | call cause => exact absurd trivial hmissed
    | afterDocuments count cause =>
      simp only [Failure.Reaches, Option.mem_some_iff, forall_eq', Nat.not_le] at hmissed
      obtain ⟨hreachable, hending⟩ := Cursor.reachable_fresh_of_lt hmissed cause
      rw [collect_of_not_call Store.failure_failNext_ne_call, Store.failure_failNext,
        Store.select_failNext, hreachable, hending, handBack_eq_ok_iff]
      exact ⟨hread, rfl, rfl⟩
  case reached =>
    intro failure hreached
    cases failure with
    | call cause => exact ⟨_, collect_of_call rfl, Store.withoutFailure_eq h, rfl⟩
    | afterDocuments count cause =>
      simp only [Failure.Reaches, Option.mem_some_iff, forall_eq'] at hreached
      have hpart := Collection.mapM_window hread none (some count)
      simp only [Collection.window, Option.getD_none, List.drop_zero] at hpart
      have hleaves := Store.leaves_searched_failNext h (.afterDocuments count cause)
        (s.collection.select filter options)
      refine ⟨_, ?_, hleaves.countFailure⟩
      obtain ⟨hreachable, hending⟩ := Cursor.reachable_fresh_of_le hreached cause
      rw [collect_of_not_call Store.failure_failNext_ne_call, Store.failure_failNext,
        Store.select_failNext, hreachable, hending]
      simp only [handBack, hpart]
      rfl

theorem allOrNothing_reporting {action : StoreAction String α} {taken : Option Nat} {a : α}
    (clean : ∃ s', action s = .ok a s' ∧ Store.Leaves 0 s s')
    (missed : ∀ failure : Failure, ¬ failure.Reaches taken →
      ∃ s', action (s.failNext failure) = .ok a s' ∧ Store.Leaves 0 s s')
    (reached : ∀ failure : Failure, failure.Reaches taken →
      ∃ s', action (s.failNext failure) = .error failure.cause s' ∧ Store.Leaves 0 s s') :
    AllOrNothing (Store.reporting action) taken s a where
  clean := by simpa only [Store.reporting_eq_ok_iff] using clean
  missed := by simpa only [Store.reporting_eq_ok_iff] using missed
  reached := by
    intro failure hreached
    obtain ⟨s₁, hrun, hleaves⟩ := reached failure hreached
    refine ⟨_, ?_, hleaves.countFailure⟩
    rw [Store.reporting_of_error hrun, hleaves.collection_eq]

theorem allOrNothing_findOne (h : s.collection.failure = none) :
    AllOrNothing (Store.reporting (Store.findOne filter options)) (some 0) s
      (s.collection.select filter { options with limit := some 1 }).head? := by
  apply allOrNothing_reporting
  case clean =>
    refine ⟨_, ?_, Store.leaves_searched h
      (s.collection.select filter { options with limit := some 1 })⟩
    rw [Store.findOne_of_not_call (by simp [h]), h, Store.firstOf, Cursor.next_fresh]
    rfl
  case missed =>
    intro failure hmissed
    refine ⟨_, ?_, Store.leaves_searched_failNext h failure
      (s.collection.select filter { options with limit := some 1 })⟩
    cases failure with
    | call cause => exact absurd trivial hmissed
    | afterDocuments count cause =>
      simp only [Failure.Reaches, Option.mem_some_iff, forall_eq', Nat.not_le] at hmissed
      rw [Store.findOne_of_not_call Store.failure_failNext_ne_call, Store.failure_failNext,
        Store.select_failNext, Store.firstOf, Cursor.next_fresh_of_pos hmissed]
      rfl
  case reached =>
    intro failure hreached
    cases failure with
    | call cause => exact ⟨_, Store.findOne_of_call rfl, Store.withoutFailure_eq h, rfl⟩
    | afterDocuments count cause =>
      simp only [Failure.Reaches, Option.mem_some_iff, forall_eq', Nat.le_zero] at hreached
      subst hreached
      refine ⟨_, ?_, Store.leaves_searched_failNext h (.afterDocuments 0 cause)
        (s.collection.select filter { options with limit := some 1 })⟩
      rw [Store.findOne_of_not_call Store.failure_failNext_ne_call, Store.failure_failNext,
        Store.select_failNext, Store.firstOf, Cursor.next_fresh_zero]
      rfl

theorem allOrNothing_count (h : s.collection.failure = none) :
    AllOrNothing (Store.reporting (Store.count filter)) none s
      (s.collection.matching filter).length := by
  apply allOrNothing_reporting
  case clean => exact ⟨s, Store.count_of_failure_eq_none h, .refl s⟩
  case missed =>
    intro failure hmissed
    cases failure <;> simp [Failure.Reaches] at hmissed
  case reached =>
    intro failure _
    refine ⟨{ s with collection := s.collection.withoutFailure }, ?_,
      Store.withoutFailure_eq h, rfl⟩
    cases failure <;> rfl

/-! ### Outcomes -/

/--
The number of documents that a query takes before it asks for one more.
-/
def taken (settings : Settings) (spec : Specification) (c : Collection) : Option Nat :=
  match spec.shape with
  | .count => none
  | .one | .exists_ => some 0
  | _ => some (c.select spec.filter (Execution.options settings spec)).length

theorem allOrNothing_total (spec : Specification) (h : s.collection.failure = none) :
    AllOrNothing (total spec) none s (spec.limit.elim (s.collection.matching spec.filter).length
      (min (s.collection.matching spec.filter).length)) :=
  (allOrNothing_count h).map fun n => spec.limit.elim n (min n)

theorem exists_total_eq_ok (spec : Specification) (h : s.collection.failure = none) :
    ∃ n, ∀ s₁, Store.Leaves 0 s s₁ → ∃ s₂, total spec s₁ = .ok n s₂ ∧ Store.Leaves 0 s₁ s₂ := by
  refine ⟨spec.limit.elim (s.collection.matching spec.filter).length
    (min (s.collection.matching spec.filter).length), ?_⟩
  intro s₁ hleaves
  rw [← hleaves.collection_eq]
  apply AllOrNothing.clean
  apply allOrNothing_total
  rw [hleaves.collection_eq, h]

section

variable (hread : ∀ d, (read d).isSome = true)
include hread

theorem exists_mapM_eq_some (documents : List Document) :
    ∃ entities, documents.mapM read = some entities := by
  simp only [mapM_eq_some_iff]
  apply exists_forall₂
  intro d _
  exact Option.isSome_iff_exists.mp (hread d)

theorem exists_allOrNothing_ranked (spec : Specification) (options : FindOptions)
    {near : NearQuery} (hnear : spec.near = some near)
    (h : s.collection.failure = none) :
    ∃ ranking, AllOrNothing (ranked read spec options)
      (some (s.collection.select spec.filter options).length) s ranking := by
  have hranked : ∀ d, (readRanked read near d).isSome = true := by
    intro d
    simp [readRanked, hread d]
  obtain ⟨entities, hentities⟩ := exists_mapM_eq_some hranked
    (s.collection.select spec.filter options)
  refine ⟨.ofList entities, ?_⟩
  rw [ranked_eq_collect hnear]
  exact (allOrNothing_collect h hentities).map Ranking.ofList

theorem allOrNothing_one (spec : Specification) (options : FindOptions)
    (h : s.collection.failure = none) :
    AllOrNothing (one read spec options) (some 0) s
      ((s.collection.select spec.filter { options with limit := some 1 }).head?.bind read) := by
  apply (allOrNothing_findOne h).bind
  intro s₁ _
  refine ⟨s₁, ?_, .refl s₁⟩
  cases (s.collection.select spec.filter { options with limit := some 1 }).head? with
  | none => rfl
  | some d =>
    obtain ⟨entity, hentity⟩ := Option.isSome_iff_exists.mp (hread d)
    simp only [Option.bind_some, hentity]
    rfl

theorem exists_allOrNothing_outcome (settings : Settings) (h : s.collection.failure = none)
    (hnear : spec.shape.isDistanceRanked = true → spec.near.isSome = true) :
    ∃ result, AllOrNothing (outcome read spec (Execution.options settings spec))
      (taken settings spec s.collection) s result := by
  obtain ⟨n, hcounted⟩ := exists_total_eq_ok spec h
  obtain ⟨entities, hentities⟩ := exists_mapM_eq_some hread
    (s.collection.select spec.filter (Execution.options settings spec))
  have hcollect := allOrNothing_collect h hentities
  unfold outcome taken
  cases hshape : spec.shape with
  | list => exact ⟨.list entities, hcollect.map Outcome.list⟩
  | one =>
    exact ⟨_, (allOrNothing_one hread spec (Execution.options settings spec) h).map Outcome.one⟩
  | count => exact ⟨_, (allOrNothing_total spec h).map Outcome.count⟩
  | exists_ => exact ⟨_, ((allOrNothing_findOne h).map Option.isSome).map Outcome.exists_⟩
  | page =>
    refine ⟨.page { pageInfo spec n with content := entities },
      hcollect.bind fun s₁ hleaves => ?_⟩
    obtain ⟨s₂, hrun, hleaves'⟩ := hcounted s₁ hleaves
    exact ⟨s₂, by rw [bind_eq_of_ok hrun]; rfl, hleaves'⟩
  | geoResults =>
    obtain ⟨near, hsome⟩ := Option.isSome_iff_exists.mp (hnear (by rw [hshape]; rfl))
    obtain ⟨ranking, hranked⟩ := exists_allOrNothing_ranked hread spec
      (Execution.options settings spec) hsome h
    exact ⟨.geoResults ranking, hranked.map Outcome.geoResults⟩
  | geoPage =>
    obtain ⟨near, hsome⟩ := Option.isSome_iff_exists.mp (hnear (by rw [hshape]; rfl))
    obtain ⟨ranking, hranked⟩ := exists_allOrNothing_ranked hread spec
      (Execution.options settings spec) hsome h
    refine ⟨.geoPage { pageInfo spec n with results := ranking },
      hranked.bind fun s₁ hleaves => ?_⟩
    obtain ⟨s₂, hrun, hleaves'⟩ := hcounted s₁ hleaves
    exact ⟨s₂, by rw [bind_eq_of_ok hrun]; rfl, hleaves'⟩

theorem exists_allOrNothing_run (settings : Settings) (h : s.collection.failure = none)
    (hnear : spec.shape.isDistanceRanked = true → spec.near.isSome = true) :
    ∃ result, AllOrNothing (run settings read spec) (taken settings spec s.collection) s
      result := by
  obtain ⟨result, houtcome⟩ := exists_allOrNothing_outcome hread settings h hnear
  refine ⟨result, houtcome.bind fun s₁ _ => ?_⟩
  exact ⟨_, rfl, rfl, rfl⟩

end

end Execution
end DerivedQuery
