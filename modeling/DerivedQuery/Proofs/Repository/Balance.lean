import DerivedQuery.Proofs.Repository.Registration
import DerivedQuery.Proofs.Store.Failures

/-!
This module contains that queries give back every cursor that they take, however they end.
-/

namespace DerivedQuery

/-! ### Views of a state -/

section

variable {ε σ τ α β : Type} {view : σ → τ} {x : EStateM ε σ α} {f : α → EStateM ε σ β}

def stateAfter (x : EStateM ε σ α) (s : σ) : σ :=
  match x s with
  | .ok _ s' => s'
  | .error _ s' => s'

/--
The action leaves what `view` shows of the state, whether it succeeds or not.
-/
def Keeps (view : σ → τ) (x : EStateM ε σ α) : Prop :=
  ∀ s, view (stateAfter x s) = view s

theorem stateAfter_bind (x : EStateM ε σ α) (f : α → EStateM ε σ β) (s : σ) :
    stateAfter (x >>= f) s = stateAfter x s
      ∨
    ∃ a, stateAfter (x >>= f) s = stateAfter (f a) (stateAfter x s) := by
  cases hx : x s with
  | ok a s' =>
    refine .inr ⟨a, ?_⟩
    simp [stateAfter, bind_eq_of_ok hx, hx]
  | error e s' => simp [stateAfter, bind_eq_of_error hx, hx]

theorem Keeps.bind (hx : Keeps view x) (hf : ∀ a, Keeps view (f a)) : Keeps view (x >>= f) := by
  intro s
  obtain hstate | ⟨a, hstate⟩ := stateAfter_bind x f s
  · rw [hstate, hx]
  · rw [hstate, hf, hx]

end

namespace Store

def openCursors (s : Store) : Nat :=
  s.collection.openCursors

variable {γ α : Type} {filter : Filter} {options : FindOptions}

theorem keeps_reporting {action : StoreAction String α} (h : Keeps openCursors action) :
    Keeps openCursors (reporting action) := by
  intro s
  have hs := h s
  unfold stateAfter at hs
  unfold stateAfter reporting
  cases haction : action s with
  | ok a s' =>
    rw [haction] at hs
    exact hs
  | error cause s' =>
    rw [haction] at hs
    exact hs

theorem keeps_firstOf (cursor : Cursor) : Keeps openCursors (firstOf cursor) := by
  intro s
  unfold firstOf
  cases cursor.next.1 <;> rfl

theorem keeps_findOne (filter : Filter) (options : FindOptions) :
    Keeps openCursors (findOne filter options) := by
  intro s
  by_cases hcall : ∃ cause, s.collection.failure = some (.call cause)
  · obtain ⟨cause, hcause⟩ := hcall
    rw [stateAfter, findOne_of_call hcause]
    rfl
  · rw [stateAfter, findOne_of_not_call (not_exists.mp hcall)]
    exact keeps_firstOf _ (s.searched _)

theorem keeps_count (filter : Filter) : Keeps openCursors (count filter) := by
  intro s
  unfold stateAfter count Collection.count
  cases s.collection.failure with
  | none => rfl
  | some failure => cases failure <;> rfl

end Store

namespace Execution

variable {γ : Type} {read : EntityReader γ} {spec : Specification} {options : FindOptions}

open Store (openCursors keeps_reporting keeps_findOne keeps_count)

theorem keeps_handBack (read : EntityReader γ) (documents : List Document)
    (failure : Option String) : Keeps openCursors (handBack read documents failure) := by
  intro s
  unfold handBack
  cases documents.mapM read with
  | none => rfl
  | some entities => cases failure <;> rfl

theorem keeps_collect (read : EntityReader γ) (filter : Filter) (options : FindOptions) :
    Keeps openCursors (collect read filter options) := by
  intro s
  by_cases hcall : ∃ cause, s.collection.failure = some (.call cause)
  · obtain ⟨cause, hcause⟩ := hcall
    rw [stateAfter, collect_of_call hcause]
    rfl
  · rw [stateAfter, collect_of_not_call (not_exists.mp hcall)]
    exact keeps_handBack read _ _ (s.searched _)

theorem keeps_total (spec : Specification) : Keeps openCursors (total spec) :=
  (keeps_reporting (keeps_count spec.filter)).bind fun _ _ => rfl

theorem keeps_ranked (read : EntityReader γ) (spec : Specification) (options : FindOptions) :
    Keeps openCursors (ranked read spec options) := by
  cases hnear : spec.near with
  | none =>
    unfold ranked
    rw [hnear]
    intro s
    rfl
  | some near =>
    rw [ranked_eq_collect hnear]
    exact (keeps_collect _ _ _).bind fun _ _ => rfl

theorem keeps_one (read : EntityReader γ) (spec : Specification) (options : FindOptions) :
    Keeps openCursors (one read spec options) := by
  apply (keeps_reporting (keeps_findOne spec.filter options)).bind
  intro found s
  cases found with
  | none => rfl
  | some d =>
    dsimp only
    cases read d <;> rfl

theorem keeps_existsAny (spec : Specification) : Keeps openCursors (existsAny spec) :=
  (keeps_reporting (keeps_findOne _ _)).bind fun _ _ => rfl

theorem keeps_outcome (read : EntityReader γ) (spec : Specification) (options : FindOptions) :
    Keeps openCursors (outcome read spec options) := by
  unfold outcome
  cases spec.shape with
  | list => exact (keeps_collect _ _ _).bind fun _ _ => rfl
  | one => exact (keeps_one _ _ _).bind fun _ _ => rfl
  | count => exact (keeps_total _).bind fun _ _ => rfl
  | exists_ => exact (keeps_existsAny _).bind fun _ _ => rfl
  | page => exact (keeps_collect _ _ _).bind fun _ => (keeps_total _).bind fun _ _ => rfl
  | geoResults => exact (keeps_ranked _ _ _).bind fun _ _ => rfl
  | geoPage => exact (keeps_ranked _ _ _).bind fun _ => (keeps_total _).bind fun _ _ => rfl

theorem keeps_run (settings : Settings) (read : EntityReader γ) (spec : Specification) :
    Keeps openCursors (run settings read spec) :=
  (keeps_outcome _ _ _).bind fun _ _ => rfl

end Execution

namespace Repository

variable {γ : Type}

def openCursors (r : Repository γ) : Nat :=
  r.store.openCursors

theorem keeps_onStore {ε α : Type} {action : StoreAction ε α}
    (h : Keeps Store.openCursors action) :
    Keeps (openCursors (γ := γ)) (onStore action) := by
  intro r
  have hs := h r.store
  unfold stateAfter at hs
  unfold stateAfter onStore
  cases haction : action r.store with
  | ok a s' =>
    rw [haction] at hs
    exact hs
  | error e s' =>
    rw [haction] at hs
    exact hs

theorem openCursors_setCache (r : Repository γ) (c : Cache) :
    (r.setCache c).openCursors = r.openCursors := by
  unfold openCursors setCache
  cases r.ownCache <;> rfl

theorem keeps_compile (sig : Signature) : Keeps (openCursors (γ := γ)) (compile sig) := by
  intro r
  unfold compile
  change (stateAfter (if r.settings.cacheCompiledQueries then compileCached sig
    else compileAnew sig) r).openCursors = r.openCursors
  split
  · unfold stateAfter compileCached
    cases r.cache.get sig r.schema with
    | mk answer c => cases answer <;> exact openCursors_setCache r c
  · unfold stateAfter compileAnew
    cases CompiledQuery.compile sig r.schema <;> rfl

theorem keeps_liftExcept {α : Type} (x : Except QueryError α) :
    Keeps (openCursors (γ := γ)) (specification.liftExcept x) := by
  intro r
  cases x <;> rfl

theorem keeps_specification (name : String) (args : List Argument) :
    Keeps (openCursors (γ := γ)) (specification name args) := by
  intro r
  unfold specification
  change openCursors (stateAfter (specification.liftExcept (r.resolve name args) >>= _) r) = _
  refine (keeps_liftExcept (r.resolve name args)).bind (fun q => ?_) r
  split
  · exact keeps_liftExcept _
  · exact (keeps_compile q.signature).bind fun q' => keeps_liftExcept _

theorem keeps_invoke (name : String) (args : List Argument) :
    Keeps (openCursors (γ := γ)) (invoke name args) := by
  unfold invoke
  apply (keeps_specification name args).bind
  intro spec r
  unfold run
  change openCursors (stateAfter (onStore (Execution.run r.settings r.read spec)) r) = _
  exact keeps_onStore (Execution.keeps_run r.settings r.read spec) r

end Repository
end DerivedQuery
