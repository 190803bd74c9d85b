import DerivedQuery.Proofs.Query.Ranking
import DerivedQuery.Proofs.Repository.Cache
import DerivedQuery.Proofs.Repository.Registration
import DerivedQuery.Proofs.Store.Failures
import DerivedQuery.Proofs.Store.LawfulSorts
import DerivedQuery.Proofs.Store.Pages

/-!
This module contains what a failure of the collection does to a call of a registered method. The
call answers as it would without the failure, or it answers the failure.
-/

namespace DerivedQuery

variable {γ : Type}

/-! ### Compiled queries -/

def CompiledQuery.IsCompiled (q : CompiledQuery) : Prop :=
  ∃ sig s, compile sig s = .ok q

namespace Cache

def IsCompiled (c : Cache) : Prop :=
  ∀ e ∈ c.entries, e.query.IsCompiled

theorem isCompiled_ofCapacity (capacity : Nat) : (ofCapacity capacity).IsCompiled := by
  simp [IsCompiled, ofCapacity]

theorem isCompiled_get {c : Cache} (h : c.IsCompiled) (r : Request) :
    (c.get r.1 r.2).2.IsCompiled
      ∧
    ∀ answer, (c.get r.1 r.2).1 = .ok answer → answer.query.IsCompiled := by
  have hgets := c.gets r
  generalize c.get r.1 r.2 = result at hgets ⊢
  cases hgets with
  | hit e found =>
    have he : e ∈ c.entries := List.mem_of_find?_eq_some found
    constructor
    · intro other hother
      obtain rfl | hother := List.mem_cons.mp hother
      · exact h other he
      · exact h other (List.mem_of_mem_filter hother)
    · rintro answer ⟨⟩
      exact h e he
  | fault e =>
    refine ⟨h, ?_⟩
    intro answer hanswer
    contradiction
  | compiled query _ compiles =>
    constructor
    · intro other hother
      obtain rfl | hother := List.mem_cons.mp (List.mem_of_mem_take hother)
      · exact ⟨r.1, r.2, compiles⟩
      · exact h other hother
    · rintro answer ⟨⟩
      exact ⟨r.1, r.2, compiles⟩

theorem IsCompiled.after {c : Cache} (h : c.IsCompiled) (call : CacheCall) :
    (c.after call).IsCompiled := by
  cases call with
  | get r => exact (isCompiled_get h r).1
  | clear => simp [IsCompiled, Cache.after, clear]

theorem IsCompiled.afterAll {c : Cache} (h : c.IsCompiled) (calls : List CacheCall) :
    (c.afterAll calls).IsCompiled := by
  induction calls generalizing c with
  | nil => exact h
  | cons call calls ih => exact ih (h.after call)

end Cache

namespace Repository

variable {r r' : Repository γ} {name : String} {args : List Argument} {spec : Specification}

theorem exists_of_mem_addOverload {methods : List Overloads} {query q : CompiledQuery}
    {o : Overloads} (ho : o ∈ addOverload name query methods) (hq : q ∈ o.queries) :
    q = query ∨ ∃ o' ∈ methods, q ∈ o'.queries := by
  induction methods with
  | nil =>
    rw [addOverload, List.mem_singleton] at ho
    subst ho
    exact .inl (by simpa using hq)
  | cons first os ih =>
    rw [addOverload] at ho
    split at ho
    · obtain rfl | ho := List.mem_cons.mp ho
      · exact .inl (by simpa using hq)
      · exact .inr ⟨o, ho, hq⟩
    · split at ho
      · obtain rfl | ho := List.mem_cons.mp ho
        · obtain hq | hq := List.mem_append.mp hq
          · exact .inr ⟨first, by simp, List.mem_of_mem_filter hq⟩
          · exact .inl (by simpa using hq)
        · exact .inr ⟨o, by simp [ho], hq⟩
      · obtain rfl | ho := List.mem_cons.mp ho
        · exact .inr ⟨o, by simp, hq⟩
        · obtain rfl | ⟨o', ho', hq⟩ := ih ho
          · exact .inl rfl
          · exact .inr ⟨o', by simp [ho'], hq⟩

structure IsCompiled (r : Repository γ) : Prop where
  methods : ∀ o ∈ r.methods, ∀ q ∈ o.queries, q.IsCompiled
  cache : r.cache.IsCompiled

theorem IsCompiled.setCache (h : r.IsCompiled) {c : Cache} (hc : c.IsCompiled) :
    (r.setCache c).IsCompiled := by
  constructor
  · simpa using h.methods
  · simpa using hc

inductive YieldsCompiled : EStateM.Result QueryError (Repository γ) CompiledQuery → Prop where
  | ok (q : CompiledQuery) (r : Repository γ) (query : q.IsCompiled) (after : r.IsCompiled) :
    YieldsCompiled (.ok q r)
  | error (e : QueryError) (r : Repository γ) (after : r.IsCompiled) : YieldsCompiled (.error e r)

theorem IsCompiled.compileAnew (h : r.IsCompiled) (sig : Signature) :
    YieldsCompiled (compileAnew sig r) := by
  unfold Repository.compileAnew
  cases hquery : CompiledQuery.compile sig r.schema with
  | error e => exact .error e r h
  | ok q => exact .ok q _ ⟨sig, r.schema, hquery⟩ ⟨h.methods, h.cache⟩

theorem IsCompiled.compileCached (h : r.IsCompiled) (sig : Signature) :
    YieldsCompiled (compileCached sig r) := by
  unfold Repository.compileCached
  have hget := Cache.isCompiled_get h.cache (sig, r.schema)
  have hset := h.setCache hget.1
  cases hanswer : r.cache.get sig r.schema with
  | mk answer c =>
    rw [hanswer] at hget hset
    cases answer with
    | error e => exact .error e _ hset
    | ok answer => exact .ok answer.query _ (hget.2 answer rfl) ⟨hset.methods, hset.cache⟩

theorem IsCompiled.compile (h : r.IsCompiled) (sig : Signature) :
    YieldsCompiled (compile sig r) := by
  unfold Repository.compile
  change YieldsCompiled ((if r.settings.cacheCompiledQueries then Repository.compileCached sig
    else Repository.compileAnew sig) r)
  split
  · exact h.compileCached sig
  · exact h.compileAnew sig

theorem IsCompiled.register (h : r.IsCompiled) (sig : Signature) :
    ((register sig).final r).IsCompiled := by
  have hcompile := h.compile (r.ownSignature sig)
  unfold RepositoryAction.final
  generalize hresult : Repository.compile (r.ownSignature sig) r = result at hcompile
  cases hcompile with
  | error e r' after =>
    rw [register_eq_of_error hresult]
    exact after
  | ok q r' query after =>
    rw [register_eq_of_ok hresult]
    refine ⟨?_, after.cache⟩
    intro o ho other hother
    obtain rfl | ⟨o', ho', hother⟩ := exists_of_mem_addOverload ho hother
    · exact query
    · exact after.methods o' ho' other hother

/--
What a new repository becomes by settings, caches, registrations and whatever happens to its store.
-/
inductive Reachable {γ : Type} : Repository γ → Prop where
  | start (r : Repository γ) (methods : r.methods = []) (capacity : Nat)
    (cache : r.cache = .ofCapacity capacity) : Reachable r
  | settings {r : Repository γ} (settings : Settings) (reachable : Reachable r) :
    Reachable (r.withSettings settings)
  | cache {r : Repository γ} (capacity : Nat) (past : List CacheCall) (reachable : Reachable r) :
    Reachable (r.withCache ((Cache.ofCapacity capacity).afterAll past))
  | cacheCall {r : Repository γ} (call : CacheCall) (reachable : Reachable r) :
    Reachable (r.setCache (r.cache.after call))
  | register {r : Repository γ} (sig : Signature) (reachable : Reachable r) :
    Reachable ((register sig).final r)
  | store {r : Repository γ} (store : Store) (reachable : Reachable r) :
    Reachable { r with store }

theorem Reachable.isCompiled (h : r.Reachable) : r.IsCompiled := by
  induction h with
  | start r methods capacity cache =>
    constructor
    · simp [methods]
    · rw [cache]
      exact Cache.isCompiled_ofCapacity capacity
  | @settings r settings _ ih =>
    refine ⟨ih.methods, ?_⟩
    unfold Repository.cache withSettings
    dsimp only
    split
    · exact Cache.isCompiled_ofCapacity settings.compiledCacheCapacity
    · exact ih.cache
  | cache capacity past _ ih =>
    exact ⟨ih.methods, (Cache.isCompiled_ofCapacity capacity).afterAll past⟩
  | cacheCall call _ ih => exact ih.setCache (ih.cache.after call)
  | register sig _ ih => exact ih.register sig
  | store _ _ ih => exact ⟨ih.methods, ih.cache⟩

theorem mem_of_resolve_eq_ok {q : CompiledQuery} (h : r.resolve name args = .ok q) :
    ∃ o ∈ r.methods, q ∈ o.queries := by
  unfold resolve overloads? at h
  cases hfind : r.methods.find? fun o => o.name == name with
  | none => simp [hfind] at h
  | some o =>
    refine ⟨o, List.mem_of_find?_eq_some hfind, ?_⟩
    simp only [hfind, Option.map_some] at h
    split at h
    next hfirst =>
      cases h
      exact List.mem_of_find?_eq_some hfirst
    next hqueries =>
      cases h
      simp [hqueries]
    next => contradiction

/-! ### Calls -/

theorem liftExcept_eq_ok_iff {α : Type} {x : Except QueryError α} {a : α} :
    specification.liftExcept x r = .ok a r' ↔ x = .ok a ∧ r = r' := by
  cases x with
  | error e =>
    constructor
    · rintro ⟨⟩
    · rintro ⟨⟨⟩, -⟩
  | ok b =>
    constructor
    · rintro ⟨⟩
      exact ⟨rfl, rfl⟩
    · rintro ⟨⟨⟩, rfl⟩
      rfl

theorem compile_eq_ok_of_not_cached {sig : Signature} {q : CompiledQuery}
    (hcached : r.settings.cacheCompiledQueries = false) :
    compile sig r = .ok q r'
      ↔
    CompiledQuery.compile sig r.schema = .ok q
      ∧
    (r.modifyJournal fun j => j.addStep (compileStep sig)) = r' := by
  unfold compile
  change (if r.settings.cacheCompiledQueries then compileCached sig else compileAnew sig) r = _ ↔ _
  rw [hcached]
  simp only [Bool.false_eq_true, if_false, compileAnew]
  cases CompiledQuery.compile sig r.schema <;> simp

theorem specification_eq_ok_iff :
    specification name args r = .ok spec r'
      ↔
    ∃ q, r.resolve name args = .ok q
      ∧
    if r.settings.cacheCompiledQueries then
      q.bind args r.settings.maxInSet = .ok spec ∧ r = r'
    else
      ∃ q', CompiledQuery.compile q.signature r.schema = .ok q'
        ∧ q'.bind args r.settings.maxInSet = .ok spec
        ∧ (r.modifyJournal fun j => j.addStep (compileStep q.signature)) = r' := by
  unfold specification
  change (specification.liftExcept (r.resolve name args) >>= _) r = _ ↔ _
  simp only [run_bind_eq_ok_iff, liftExcept_eq_ok_iff]
  have hsource : ∀ q : CompiledQuery,
      ((if r.settings.cacheCompiledQueries then do
          let query ← pure q
          specification.liftExcept (query.bind args r.settings.maxInSet)
        else do
          let query ← compile q.signature
          specification.liftExcept (query.bind args r.settings.maxInSet) :
        RepositoryAction γ QueryError Specification) r = .ok spec r')
      ↔
      if r.settings.cacheCompiledQueries then
        q.bind args r.settings.maxInSet = .ok spec ∧ r = r'
      else
        ∃ q', CompiledQuery.compile q.signature r.schema = .ok q'
          ∧ q'.bind args r.settings.maxInSet = .ok spec
          ∧ (r.modifyJournal fun j => j.addStep (compileStep q.signature)) = r' := by
    intro q
    split
    next => exact liftExcept_eq_ok_iff
    next hcached =>
      simp only [run_bind_eq_ok_iff, liftExcept_eq_ok_iff,
        compile_eq_ok_of_not_cached (Bool.eq_false_iff.mpr hcached)]
      constructor
      · rintro ⟨q', _, ⟨hcompile, rfl⟩, hbind, hlast⟩
        exact ⟨q', hcompile, hbind, hlast⟩
      · rintro ⟨q', hcompile, hbind, hlast⟩
        exact ⟨q', _, ⟨hcompile, rfl⟩, hbind, hlast⟩
  constructor
  · rintro ⟨q, _, ⟨hresolve, rfl⟩, h⟩
    exact ⟨q, hresolve, (hsource q).mp h⟩
  · rintro ⟨q, hresolve, h⟩
    exact ⟨q, r, ⟨hresolve, rfl⟩, (hsource q).mpr h⟩

def failNext (r : Repository γ) (failure : Failure) : Repository γ :=
  { r with store := r.store.failNext failure }

theorem specification_failNext (h : specification name args r = .ok spec r') (failure : Failure) :
    specification name args (r.failNext failure) = .ok spec (r'.failNext failure) := by
  rw [specification_eq_ok_iff] at h ⊢
  obtain ⟨q, hresolve, hrest⟩ := h
  refine ⟨q, hresolve, ?_⟩
  have hsettings : (r.failNext failure).settings = r.settings := rfl
  rw [hsettings]
  split at hrest
  next hcached =>
    obtain ⟨hbind, rfl⟩ := hrest
    rw [if_pos hcached]
    exact ⟨hbind, rfl⟩
  next hcached =>
    obtain ⟨q', hcompile, hbind, rfl⟩ := hrest
    rw [if_neg hcached]
    exact ⟨q', hcompile, hbind, rfl⟩

theorem leaves_specification (h : specification name args r = .ok spec r') :
    Store.Leaves 0 r.store r'.store ∧ r'.settings = r.settings ∧ r'.read = r.read := by
  rw [specification_eq_ok_iff] at h
  obtain ⟨q, -, hrest⟩ := h
  split at hrest
  · obtain ⟨-, rfl⟩ := hrest
    exact ⟨.refl r.store, rfl, rfl⟩
  · obtain ⟨q', -, -, rfl⟩ := hrest
    exact ⟨⟨rfl, rfl⟩, rfl, rfl⟩

theorem IsCompiled.isSome_near (hr : r.IsCompiled) (h : specification name args r = .ok spec r')
    (hranked : spec.shape.isDistanceRanked = true) : spec.near.isSome = true := by
  rw [specification_eq_ok_iff] at h
  obtain ⟨q, hresolve, hrest⟩ := h
  obtain ⟨o, ho, hq⟩ := mem_of_resolve_eq_ok hresolve
  obtain ⟨sig, s, hcompile⟩ := hr.methods o ho q hq
  split at hrest
  · exact CompiledQuery.isSome_near_of_bind hcompile hrest.1 hranked
  · obtain ⟨q', hcompile', hbind, -⟩ := hrest
    exact CompiledQuery.isSome_near_of_bind hcompile' hbind hranked

/--
A call is answered without a failure. With one it is answered the same, or with the failure if that
reaches it. The collection stays as it is in any case.
-/
structure IsAllOrNothing (name : String) (args : List Argument) (taken : Option Nat)
    (r : Repository γ) : Prop where
  answers : ∃ result, (∃ r', invoke name args r = .ok result r' ∧ Store.Leaves 0 r.store r'.store)
    ∧ ∀ failure : Failure, ¬ failure.Reaches taken →
      ∃ r', invoke name args (r.failNext failure) = .ok result r'
        ∧ Store.Leaves 0 r.store r'.store
  fails : ∀ failure : Failure, failure.Reaches taken →
    ∃ r', invoke name args (r.failNext failure)
        = .error (.execution r.store.collection.name failure.cause) r'
      ∧ Store.Leaves 1 r.store r'.store

theorem onStore_eq_ok {ε α : Type} {action : StoreAction ε α} {a : α} {s : Store}
    (h : action r.store = .ok a s) : onStore action r = .ok a { r with store := s } := by
  unfold onStore
  rw [h]

theorem onStore_eq_error {ε α : Type} {action : StoreAction ε α} {e : ε} {s : Store}
    (h : action r.store = .error e s) : onStore action r = .error e { r with store := s } := by
  unfold onStore
  rw [h]

theorem invoke_eq_ok {result : Outcome γ} {s : Store} (hspec : specification name args r = .ok spec r')
    (hrun : Execution.run r'.settings r'.read spec r'.store = .ok result s) :
    invoke name args r = .ok result { r' with store := s } := by
  unfold invoke
  rw [bind_eq_of_ok hspec]
  exact onStore_eq_ok hrun

theorem invoke_eq_error {e : QueryError} {s : Store}
    (hspec : specification name args r = .ok spec r')
    (hrun : Execution.run r'.settings r'.read spec r'.store = .error e s) :
    invoke name args r = .error e { r' with store := s } := by
  unfold invoke
  rw [bind_eq_of_ok hspec]
  exact onStore_eq_error hrun

/--
All shapes keep to this. What the query sorts has to be such that every sort answers, or else there
would be no answer without a failure either. Then the answer does not depend on how it is sorted.
-/
theorem isAllOrNothing_invoke (hr : r.Reachable) (hread : ∀ d, (r.read d).isSome = true)
    (hfailure : r.store.collection.failure = none)
    (hspec : (specification name args).answer r = .ok spec)
    (hsorts : Execution.SortAnswers spec r.store.collection) :
    Execution.HasOneOrder spec r.store.collection
      ∧
    r.IsAllOrNothing name args (Execution.taken r.settings spec r.store.collection) := by
  refine ⟨hsorts.hasOneOrder, ?_⟩
  obtain ⟨r₁, hspec⟩ := RepositoryAction.exists_of_answer_eq_ok hspec
  obtain ⟨hleaves, hsettings, hread₁⟩ := leaves_specification hspec
  have hnear := hr.isCompiled.isSome_near hspec
  rw [← hread₁] at hread
  rw [← hleaves.collection_eq] at hfailure
  rw [← hsettings, ← hleaves.collection_eq]
  obtain ⟨result, hrun⟩ := Execution.exists_allOrNothing_run hread r₁.settings hfailure hnear
  constructor
  case answers =>
    refine ⟨result, ?_, ?_⟩
    · obtain ⟨s, hrun, hleaves'⟩ := hrun.clean
      exact ⟨_, invoke_eq_ok hspec hrun, hleaves.trans hleaves'⟩
    · intro failure hmissed
      obtain ⟨s, hrun, hleaves'⟩ := hrun.missed failure hmissed
      exact ⟨_, invoke_eq_ok (specification_failNext hspec failure) hrun, hleaves.trans hleaves'⟩
  case fails =>
    intro failure hreached
    obtain ⟨s, hrun, hleaves'⟩ := hrun.reached failure hreached
    rw [hleaves.collection_eq] at hrun
    exact ⟨_, invoke_eq_error (specification_failNext hspec failure) hrun, hleaves.trans hleaves'⟩

open Execution (badges badgeSchema badgePages badgeArguments)

def badgeShelf : Repository Document :=
  { (register badgePages).final
      { store := { collection := { name := "empty" } }, schema := badgeSchema, read := some } with
    store := { collection := badges } }

theorem isAllOrNothing_invoke_badge :
    badgeShelf.Reachable
      ∧
    ∃ spec,
      (specification badgePages.name (badgeArguments 0 2 (by decide))).answer badgeShelf = .ok spec
        ∧
      Execution.taken badgeShelf.settings spec badges = some 2
        ∧
      badgeShelf.IsAllOrNothing badgePages.name (badgeArguments 0 2 (by decide)) (some 2) := by
  have hreachable : badgeShelf.Reachable :=
    .store { collection := badges } (.register badgePages (.start _ rfl _ rfl))
  have htaken : ((specification badgePages.name (badgeArguments 0 2 (by decide))).answer
      badgeShelf).toOption.any (fun spec =>
        Execution.taken badgeShelf.settings spec badges == some 2) = true := by
    decide +kernel
  obtain ⟨spec, hspec, htaken⟩ := (Option.any_eq_true _ _).mp htaken
  rw [toOption_eq_some_iff] at hspec
  rw [beq_iff_eq] at htaken
  have hmatches : (badges.matching spec.filter).length ≤ 20 :=
    (Execution.length_matching_le badges spec.filter).trans (by decide)
  refine ⟨hreachable, spec, hspec, htaken, ?_⟩
  rw [← htaken]
  exact (isAllOrNothing_invoke hreachable (fun _ => rfl) rfl hspec
    (.inr (.inr (.inl hmatches)))).2

end Repository
end DerivedQuery
