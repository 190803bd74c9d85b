import DerivedQuery.Proofs.Query.Faults
import DerivedQuery.Proofs.Repository.Cache
import DerivedQuery.Repository.Basic

/-!
This module contains what a repository knows after any registrations, whatever cache it uses: the
overloads of each name, and the specification that a call of a name binds to.
-/

namespace DerivedQuery

namespace RepositoryAction

variable {γ ε α : Type}

def answer (action : RepositoryAction γ ε α) (r : Repository γ) : Except ε α :=
  match action r with
  | .ok a _ => .ok a
  | .error e _ => .error e

def final (action : RepositoryAction γ ε α) (r : Repository γ) : Repository γ :=
  match action r with
  | .ok _ r' => r'
  | .error _ r' => r'

variable {β : Type} {x : RepositoryAction γ ε α} {f : α → RepositoryAction γ ε β}
  {r r' : Repository γ}

theorem exists_of_answer_eq_ok {a : α} (h : answer x r = .ok a) : ∃ r', x r = .ok a r' := by
  unfold answer at h
  split at h
  next r' heq =>
    cases h
    exact ⟨r', heq⟩
  next => contradiction

theorem answer_bind_of_ok {a : α} (h : x r = .ok a r') : answer (x >>= f) r = answer (f a) r' := by
  rw [answer, bind_eq_of_ok h]
  rfl

theorem answer_bind_of_error {e : ε} (h : x r = .error e r') : answer (x >>= f) r = .error e := by
  rw [answer, bind_eq_of_error h]

end RepositoryAction

namespace Repository

open Cache (badgeByAge badgeByMark schemasApart_badge)

variable {γ : Type} {r r' : Repository γ}

/-! ### Compilation -/

@[simp]
theorem cache_setCache (r : Repository γ) (c : Cache) : (r.setCache c).cache = c := by
  unfold setCache cache
  cases r.ownCache <;> rfl

@[simp]
theorem methods_setCache (r : Repository γ) (c : Cache) : (r.setCache c).methods = r.methods := by
  unfold setCache
  cases r.ownCache <;> rfl

@[simp]
theorem schema_setCache (r : Repository γ) (c : Cache) : (r.setCache c).schema = r.schema := by
  unfold setCache
  cases r.ownCache <;> rfl

@[simp]
theorem settings_setCache (r : Repository γ) (c : Cache) :
    (r.setCache c).settings = r.settings := by
  unfold setCache
  cases r.ownCache <;> rfl

structure Continues (sig : Signature) (r r' : Repository γ) : Prop where
  methods_eq : r'.methods = r.methods
  schema_eq : r'.schema = r.schema
  settings_eq : r'.settings = r.settings
  cache_eq : r'.cache = r.cache ∨ r'.cache = r.cache.after (.get (sig, r.schema))

namespace Continues

variable {sig : Signature}

theorem refl (sig : Signature) (r : Repository γ) : Continues sig r r :=
  ⟨rfl, rfl, rfl, .inl rfl⟩

theorem setCache (sig : Signature) (r : Repository γ) :
    Continues sig r (r.setCache (r.cache.after (.get (sig, r.schema)))) :=
  ⟨by simp, by simp, by simp, .inr (by simp)⟩

theorem modifyJournal (h : Continues sig r r') (f : Journal → Journal) :
    Continues sig r (r'.modifyJournal f) :=
  ⟨h.methods_eq, h.schema_eq, h.settings_eq, h.cache_eq⟩

end Continues

inductive Compiles (sig : Signature) (r : Repository γ) :
    EStateM.Result QueryError (Repository γ) CompiledQuery → Prop where
  | ok (query : CompiledQuery) (r' : Repository γ)
      (compiles : CompiledQuery.compile sig r.schema = .ok query) (continues : Continues sig r r') :
    Compiles sig r (.ok query r')
  | fault (e : QueryError) (r' : Repository γ)
      (failed : CompiledQuery.compile sig r.schema = .error e) (continues : Continues sig r r')
      (same : r' = r ∨ r' = r.setCache { r.cache with misses := r.cache.misses + 1 }) :
    Compiles sig r (.error e r')

theorem compiles_anew (sig : Signature) (r : Repository γ) :
    Compiles sig r (compileAnew sig r) := by
  unfold compileAnew
  cases hcompile : CompiledQuery.compile sig r.schema with
  | error e => exact .fault e r hcompile (.refl sig r) (.inl rfl)
  | ok query => exact .ok query _ hcompile ((Continues.refl sig r).modifyJournal _)

theorem compiles_cached {sig : Signature}
    (h : (r.cache.get sig r.schema).1.map CacheAnswer.query = CompiledQuery.compile sig r.schema) :
    Compiles sig r (compileCached sig r) := by
  unfold compileCached
  have hgets := r.cache.gets (sig, r.schema)
  cases hget : r.cache.get sig r.schema with
  | mk answer c =>
    have hcontinues : Continues sig r (r.setCache c) := by
      have hset := Continues.setCache sig r
      rwa [Cache.after, hget] at hset
    rw [hget] at h hgets
    cases answer with
    | error e =>
      refine .fault e _ h.symm hcontinues (.inr ?_)
      cases hgets
      rfl
    | ok answer => exact .ok answer.query _ h.symm (hcontinues.modifyJournal _)

theorem compiles_compile {sig : Signature}
    (h : (r.cache.get sig r.schema).1.map CacheAnswer.query = CompiledQuery.compile sig r.schema) :
    Compiles sig r (compile sig r) := by
  unfold compile
  change Compiles sig r
    ((if r.settings.cacheCompiledQueries then compileCached sig else compileAnew sig) r)
  split
  · exact compiles_cached h
  · exact compiles_anew sig r

theorem register_eq_of_ok {sig : Signature} {query : CompiledQuery}
    (h : compile (r.ownSignature sig) r = .ok query r') :
    register sig r
      =
    .ok () { r' with methods := addOverload (r.ownSignature sig).name query r'.methods } := by
  unfold register
  change (compile (r.ownSignature sig) >>= _) r = _
  rw [bind_eq_of_ok h]
  rfl

theorem register_eq_of_error {sig : Signature} {e : QueryError}
    (h : compile (r.ownSignature sig) r = .error e r') : register sig r = .error e r' := by
  unfold register
  change (compile (r.ownSignature sig) >>= _) r = _
  rw [bind_eq_of_error h]

/-! ### Overloads -/

def queriesOf (methods : List Overloads) (name : String) : List CompiledQuery :=
  ((methods.find? fun o => o.name == name).map (·.queries)).getD []

variable {methods : List Overloads} {name : String} {query : CompiledQuery}

theorem queriesOf_of_forall_lt (h : ∀ o ∈ methods, name < o.name) :
    queriesOf methods name = [] := by
  have hfind : methods.find? (fun o => o.name == name) = none := by
    rw [List.find?_eq_none]
    intro o ho heq
    exact String.lt_irrefl name (by simpa [beq_iff_eq.mp heq] using h o ho)
  rw [queriesOf, hfind]
  rfl

theorem queriesOf_cons (o : Overloads) (os : List Overloads) (name : String) :
    queriesOf (o :: os) name = if o.name = name then o.queries else queriesOf os name := by
  by_cases h : o.name = name <;> simp [queriesOf, h]

theorem queriesOf_addOverload (h : methods.Pairwise (·.name < ·.name)) (other : String) :
    queriesOf (addOverload name query methods) other
      =
    if name = other then
      (queriesOf methods name).filter (fun earlier => earlier.signature != query.signature)
        ++ [query]
    else queriesOf methods other := by
  induction methods with
  | nil =>
    rw [addOverload, queriesOf_cons, queriesOf, List.find?_nil]
    rfl
  | cons o os ih =>
    obtain ⟨hfirst, hrest⟩ := List.pairwise_cons.mp h
    rw [addOverload]
    by_cases hlt : name < o.name
    · have hnone : queriesOf (o :: os) name = [] := by
        apply queriesOf_of_forall_lt
        intro o' ho'
        cases ho' with
        | head => exact hlt
        | tail _ ho' => exact String.lt_trans hlt (hfirst o' ho')
      rw [if_pos hlt, queriesOf_cons, hnone]
      rfl
    · rw [if_neg hlt]
      by_cases heq : name = o.name
      · rw [if_pos heq, queriesOf_cons, queriesOf_cons, queriesOf_cons, if_pos heq.symm]
        by_cases hother : name = other
        · rw [if_pos hother, if_pos hother]
        · rw [if_neg hother, if_neg hother, if_neg (heq ▸ hother)]
      · rw [if_neg heq, queriesOf_cons, queriesOf_cons, queriesOf_cons, ih hrest,
          if_neg (Ne.symm heq)]
        by_cases hother : o.name = other
        · rw [if_pos hother, if_pos hother, if_neg (hother ▸ heq)]
        · rw [if_neg hother, if_neg hother]

theorem mem_addOverload {o : Overloads} (h : o ∈ addOverload name query methods) :
    o.name = name ∧ o.queries ≠ [] ∨ o ∈ methods := by
  induction methods with
  | nil =>
    rw [addOverload, List.mem_singleton] at h
    simp [h]
  | cons first os ih =>
    rw [addOverload] at h
    split at h
    · obtain rfl | h := List.mem_cons.mp h
      · simp
      · exact .inr h
    · split at h
      · obtain rfl | h := List.mem_cons.mp h
        · simp
        · exact .inr (List.mem_cons_of_mem first h)
      · obtain rfl | h := List.mem_cons.mp h
        · simp
        · exact (ih h).imp_right (List.mem_cons_of_mem first)

theorem ascending_addOverload (h : methods.Pairwise (·.name < ·.name)) :
    (addOverload name query methods).Pairwise (·.name < ·.name) := by
  induction methods with
  | nil => exact List.pairwise_singleton _ _
  | cons o os ih =>
    obtain ⟨hfirst, hrest⟩ := List.pairwise_cons.mp h
    rw [addOverload]
    split
    next hlt =>
      refine .cons ?_ h
      intro o' ho'
      obtain rfl | ho' := List.mem_cons.mp ho'
      · exact hlt
      · exact String.lt_trans hlt (hfirst o' ho')
    next hlt =>
      split
      next heq =>
        refine .cons ?_ hrest
        intro o' ho'
        simpa [heq] using hfirst o' ho'
      next heq =>
        refine .cons ?_ (ih hrest)
        intro o' ho'
        obtain ⟨hname, -⟩ | ho' := mem_addOverload ho'
        · rw [hname]
          exact lt_of_le_of_ne (not_lt.mp hlt) (Ne.symm heq)
        · exact hfirst o' ho'

/-! ### Registrations -/

inductive Event where
  | register (sig : Signature)
  | cacheCall (call : CacheCall)

def Event.calls (r : Repository γ) : Event → List CacheCall
  | .register sig => [.get (r.ownSignature sig, r.schema)]
  | .cacheCall call => [call]

def Event.registered (r : Repository γ) : Event → List Signature
  | .register sig => [r.ownSignature sig]
  | .cacheCall _ => []

theorem Event.calls_congr (h : r.schema = r'.schema) : Event.calls r = Event.calls r' := by
  funext event
  cases event with
  | register sig => simp [calls, ownSignature, h]
  | cacheCall call => rfl

theorem Event.registered_congr (h : r.schema = r'.schema) :
    Event.registered r = Event.registered r' := by
  funext event
  cases event with
  | register sig => simp [registered, ownSignature, h]
  | cacheCall call => rfl

def after (r : Repository γ) : Event → Repository γ
  | .register sig => (register sig).final r
  | .cacheCall call => r.setCache (r.cache.after call)

def afterAll (r : Repository γ) (events : List Event) : Repository γ :=
  events.foldl after r

/--
The methods of a name that compile, each once, in the order of their last occurrence.
-/
def overloads (s : EntitySchema) (sigs : List Signature) (name : String) : List Signature :=
  (sigs.filter fun sig =>
    sig.name == name && (CompiledQuery.compile sig s).toOption.isSome).dedup

theorem overloads_append_of_error {s : EntitySchema} {sig : Signature} {e : QueryError}
    (h : CompiledQuery.compile sig s = .error e) (sigs : List Signature) (name : String) :
    overloads s (sigs ++ [sig]) name = overloads s sigs name := by
  simp [overloads, List.filter_append, h, Except.toOption]

theorem overloads_append_of_ok {s : EntitySchema} {sig : Signature}
    (h : CompiledQuery.compile sig s = .ok query) (sigs : List Signature) (name : String) :
    overloads s (sigs ++ [sig]) name
      =
    if sig.name = name then (overloads s sigs name).filter (· ≠ sig) ++ [sig]
    else overloads s sigs name := by
  unfold overloads
  rw [List.filter_append]
  by_cases hname : sig.name = name
  · rw [if_pos hname, List.filter_cons_of_pos (by simp [hname, h, Except.toOption]),
      List.filter_nil, Recency.dedup_concat]
  · rw [if_neg hname, List.filter_cons_of_neg (by simp [hname]), List.filter_nil, List.append_nil]

structure Knows (schemas : List EntitySchema) (s : EntitySchema) (settings : Settings)
    (sigs : List Signature) (r : Repository γ) : Prop where
  schema_eq : r.schema = s
  settings_eq : r.settings = settings
  schema_mem : s ∈ schemas
  reflects : ∃ recent, Cache.Reflects schemas r.cache recent
  ascending : r.methods.Pairwise (·.name < ·.name)
  nonempty : ∀ o ∈ r.methods, o.queries ≠ []
  compiled : ∀ name, List.Forall₂ (fun query sig => CompiledQuery.compile sig s = .ok query)
    (queriesOf r.methods name) (overloads s sigs name)

namespace Knows

variable {schemas : List EntitySchema} {s : EntitySchema} {settings : Settings}
  {sigs : List Signature}

theorem map_query_get (hapart : SchemasApart schemas) (h : Knows schemas s settings sigs r)
    (sig : Signature) :
    (r.cache.get sig r.schema).1.map CacheAnswer.query = CompiledQuery.compile sig r.schema := by
  obtain ⟨recent, hreflects⟩ := h.reflects
  exact hreflects.map_query_get hapart (r := (sig, r.schema)) (h.schema_eq ▸ h.schema_mem)

theorem congr (h : Knows schemas s settings sigs r) (hmethods : r'.methods = r.methods)
    (hschema : r'.schema = r.schema) (hsettings : r'.settings = r.settings)
    (hreflects : ∃ recent, Cache.Reflects schemas r'.cache recent) :
    Knows schemas s settings sigs r' where
  schema_eq := hschema.trans h.schema_eq
  settings_eq := hsettings.trans h.settings_eq
  schema_mem := h.schema_mem
  reflects := hreflects
  ascending := hmethods ▸ h.ascending
  nonempty := hmethods ▸ h.nonempty
  compiled := hmethods ▸ h.compiled

theorem continues (hapart : SchemasApart schemas) (h : Knows schemas s settings sigs r)
    {sig : Signature} (hcontinues : Continues sig r r') : Knows schemas s settings sigs r' := by
  apply h.congr hcontinues.methods_eq hcontinues.schema_eq hcontinues.settings_eq
  obtain ⟨recent, hreflects⟩ := h.reflects
  obtain hcache | hcache := hcontinues.cache_eq
  · exact ⟨recent, hcache ▸ hreflects⟩
  · rw [hcache]
    refine ⟨_, hreflects.after hapart _ ?_⟩
    simpa [CacheCall.schemas, h.schema_eq] using h.schema_mem

theorem afterCall (hapart : SchemasApart schemas) (h : Knows schemas s settings sigs r)
    (call : CacheCall) (hcall : ∀ t ∈ call.schemas, t ∈ schemas) :
    Knows schemas s settings sigs (r.setCache (r.cache.after call)) := by
  apply h.congr (methods_setCache ..) (schema_setCache ..) (settings_setCache ..)
  obtain ⟨recent, hreflects⟩ := h.reflects
  rw [cache_setCache]
  exact ⟨_, hreflects.after hapart call hcall⟩

theorem addOverload {sig : Signature} (h : Knows schemas s settings sigs r)
    (hcompile : CompiledQuery.compile sig s = .ok query) :
    Knows schemas s settings (sigs ++ [sig])
      { r with methods := Repository.addOverload sig.name query r.methods } where
  schema_eq := h.schema_eq
  settings_eq := h.settings_eq
  schema_mem := h.schema_mem
  reflects := h.reflects
  ascending := ascending_addOverload h.ascending
  nonempty := by
    intro o ho
    obtain ⟨-, hqueries⟩ | ho := mem_addOverload ho
    · exact hqueries
    · exact h.nonempty o ho
  compiled := by
    intro name
    rw [queriesOf_addOverload h.ascending, overloads_append_of_ok hcompile]
    by_cases hname : sig.name = name
    · rw [if_pos hname, if_pos hname, ← hname]
      refine List.rel_append (List.rel_filter ?_ (h.compiled sig.name)) (.cons hcompile .nil)
      intro earlier other hother
      dsimp only
      rw [(CompiledQuery.compile_eq_ok hother).1, (CompiledQuery.compile_eq_ok hcompile).1]
      simp
    · rw [if_neg hname, if_neg hname]
      exact h.compiled name

theorem after (hapart : SchemasApart schemas) (h : Knows schemas s settings sigs r) (event : Event)
    (hevent : ∀ t ∈ (event.calls r).flatMap CacheCall.schemas, t ∈ schemas) :
    Knows schemas s settings (sigs ++ event.registered r) (r.after event) := by
  cases event with
  | register sig =>
    have hcompiles := compiles_compile (h.map_query_get hapart (r.ownSignature sig))
    rw [Repository.after, Event.registered, RepositoryAction.final]
    generalize hresult : compile (r.ownSignature sig) r = result at hcompiles
    cases hcompiles with
    | ok query r' compiles continues =>
      rw [register_eq_of_ok hresult]
      rw [h.schema_eq] at compiles
      exact (h.continues hapart continues).addOverload compiles
    | fault e r' failed continues =>
      rw [register_eq_of_error hresult]
      rw [h.schema_eq] at failed
      have hknows := h.continues hapart continues
      refine { hknows with compiled := ?_ }
      intro name
      rw [overloads_append_of_error failed]
      exact hknows.compiled name
  | cacheCall call =>
    rw [Event.registered, List.append_nil, Repository.after]
    exact h.afterCall hapart call (by simpa [Event.calls] using hevent)

theorem afterAll (hapart : SchemasApart schemas) (h : Knows schemas s settings sigs r)
    (events : List Event)
    (hevents : ∀ t ∈ (events.flatMap (Event.calls r)).flatMap CacheCall.schemas, t ∈ schemas) :
    Knows schemas s settings (sigs ++ events.flatMap (Event.registered r)) (r.afterAll events) := by
  induction events generalizing r sigs with
  | nil => simpa [Repository.afterAll] using h
  | cons event events ih =>
    rw [List.flatMap_cons, List.flatMap_append, List.forall_mem_append] at hevents
    have hafter := h.after hapart event hevents.1
    have hschema : (r.after event).schema = r.schema := by rw [hafter.schema_eq, h.schema_eq]
    rw [Event.calls_congr hschema.symm] at hevents
    have hrest := ih hafter hevents.2
    rw [Event.registered_congr hschema, List.append_assoc] at hrest
    exact hrest

end Knows

/-! ### Calls of a name -/

theorem overloads?_eq (h : ∀ o ∈ r.methods, o.queries ≠ []) (name : String) :
    r.overloads? name
      =
    if queriesOf r.methods name = [] then none else some (queriesOf r.methods name) := by
  unfold overloads? queriesOf
  cases hfind : r.methods.find? fun o => o.name == name with
  | none => rfl
  | some o => simpa using h o (List.mem_of_find?_eq_some hfind)

theorem mem_of_resolve (h : ∀ o ∈ r.methods, o.queries ≠ []) {args : List Argument}
    (hresolve : r.resolve name args = .ok query) : query ∈ queriesOf r.methods name := by
  unfold resolve at hresolve
  rw [overloads?_eq h] at hresolve
  by_cases hempty : queriesOf r.methods name = []
  · rw [if_pos hempty] at hresolve
    contradiction
  · rw [if_neg hempty] at hresolve
    dsimp only at hresolve
    split at hresolve
    next hfind =>
      cases hresolve
      exact List.mem_of_find?_eq_some hfind
    next hqueries =>
      cases hresolve
      simp [hqueries]
    next => contradiction

theorem answer_liftExcept {α : Type} (x : Except QueryError α) (r : Repository γ) :
    RepositoryAction.answer (specification.liftExcept x) r = x := by
  cases x <;> rfl

theorem answer_specification_of_error {args : List Argument} {e : QueryError}
    (h : r.resolve name args = .error e) : (specification name args).answer r = .error e := by
  have hlift : specification.liftExcept (r.resolve name args) r = .error e r := by
    rw [h]
    rfl
  unfold specification
  change RepositoryAction.answer (specification.liftExcept (r.resolve name args) >>= _) r = _
  rw [RepositoryAction.answer_bind_of_error hlift]

theorem answer_specification_of_ok {args : List Argument} (h : r.resolve name args = .ok query)
    (hcompile : CompiledQuery.compile query.signature r.schema = .ok query)
    (hcompiles : Compiles query.signature r (compile query.signature r)) :
    (specification name args).answer r = query.bind args r.settings.maxInSet := by
  have hlift : specification.liftExcept (r.resolve name args) r = .ok query r := by
    rw [h]
    rfl
  unfold specification
  change RepositoryAction.answer (specification.liftExcept (r.resolve name args) >>= _) r = _
  rw [RepositoryAction.answer_bind_of_ok hlift]
  split
  · exact answer_liftExcept (query.bind args r.settings.maxInSet) r
  · generalize hresult : compile query.signature r = result at hcompiles
    cases hcompiles with
    | ok query' r' compiles =>
      rw [hcompile, Except.ok.injEq] at compiles
      subst compiles
      rw [RepositoryAction.answer_bind_of_ok hresult]
      exact answer_liftExcept (query.bind args r.settings.maxInSet) r'
    | fault e r' failed =>
      rw [hcompile] at failed
      contradiction

section

variable {args : List Argument} (h : ∀ o ∈ r.methods, o.queries ≠ [])
include h

theorem resolve_of_nil (hqueries : queriesOf r.methods name = []) :
    r.resolve name args = .error (.unknownMethod name) := by
  rw [resolve, overloads?_eq h, if_pos hqueries]

theorem resolve_of_find (hfind : (queriesOf r.methods name).find? (·.accepts args) = some query) :
    r.resolve name args = .ok query := by
  have hne : queriesOf r.methods name ≠ [] := by
    intro hnil
    rw [hnil] at hfind
    contradiction
  rw [resolve, overloads?_eq h, if_neg hne]
  simp only [hfind]

theorem resolve_of_single (hqueries : queriesOf r.methods name = [query]) :
    r.resolve name args = .ok query := by
  rw [resolve, overloads?_eq h, hqueries, if_neg (by simp)]
  cases haccepts : query.accepts args <;> simp [haccepts]

theorem resolve_of_several (hlength : 1 < (queriesOf r.methods name).length)
    (hfind : (queriesOf r.methods name).find? (·.accepts args) = none) :
    r.resolve name args
      =
    .error (.clauseMismatch name (.noOverload (args.map Argument.kindName))) := by
  rw [resolve, overloads?_eq h]
  generalize queriesOf r.methods name = queries at hlength hfind
  match queries, hlength with
  | first :: second :: rest, _ =>
    rw [if_neg (by simp)]
    simp only [hfind]

end

/--
The answer to a call of a name with some overloads: the first one that the arguments fit binds them.
-/
structure IsAnswer (s : EntitySchema) (maxInSet : Nat) (name : String) (sigs : List Signature)
    (args : List Argument) (answer : Except QueryError Specification) : Prop where
  unknown_iff : answer = .error (.unknownMethod name) ↔ sigs = []
  first : ∀ sig, (sigs.find? fun sig => CompiledQuery.fitsAll args sig.params) = some sig →
    ∃ query, CompiledQuery.compile sig s = .ok query ∧ answer = query.bind args maxInSet
  single : ∀ sig, sigs = [sig] → CompiledQuery.fitsAll args sig.params = false →
    ∃ query e, CompiledQuery.compile sig s = .ok query ∧ query.bind args maxInSet = .error e
      ∧ answer = .error e
  several : 1 < sigs.length → (∀ sig ∈ sigs, CompiledQuery.fitsAll args sig.params = false) →
    answer = .error (.clauseMismatch name (.noOverload (args.map Argument.kindName)))

namespace IsAnswer

variable {s : EntitySchema} {maxInSet : Nat} {sigs : List Signature} {sig : Signature}
  {args : List Argument}

theorem of_nil : IsAnswer s maxInSet name [] args (.error (.unknownMethod name)) := by
  constructor <;> simp

theorem of_find (hfind : (sigs.find? fun sig => CompiledQuery.fitsAll args sig.params) = some sig)
    (hcompile : CompiledQuery.compile sig s = .ok query) :
    IsAnswer s maxInSet name sigs args (query.bind args maxInSet) := by
  have hmem := List.mem_of_find?_eq_some hfind
  have hfits := List.find?_some hfind
  constructor
  case unknown_iff =>
    exact iff_of_false (query.bind_ne_unknownMethod _ _ _) (List.ne_nil_of_mem hmem)
  case first =>
    intro sig' hsig'
    rw [hfind, Option.some.injEq] at hsig'
    exact ⟨query, hsig' ▸ hcompile, rfl⟩
  case single =>
    intro sig' hsig' hunfit
    rw [hsig', List.mem_singleton] at hmem
    rw [hmem, hunfit] at hfits
    contradiction
  case several =>
    intro _ hunfit
    rw [hunfit sig hmem] at hfits
    contradiction

theorem of_single (hunfit : CompiledQuery.fitsAll args sig.params = false)
    (hcompile : CompiledQuery.compile sig s = .ok query) :
    IsAnswer s maxInSet name [sig] args (query.bind args maxInSet) := by
  constructor
  case unknown_iff => exact iff_of_false (query.bind_ne_unknownMethod _ _ _) (by simp)
  case first =>
    intro sig' hsig'
    simp [hunfit] at hsig'
  case single =>
    intro sig' hsig' _
    have hrefused : query.accepts args = false := by
      rw [CompiledQuery.accepts, (CompiledQuery.compile_eq_ok hcompile).1, hunfit]
    obtain ⟨e, hbind⟩ := CompiledQuery.exists_bind_eq_error hrefused maxInSet
    rw [List.singleton_inj] at hsig'
    exact ⟨query, e, hsig' ▸ hcompile, hbind, hbind⟩
  case several =>
    intro hlength
    simp at hlength

theorem of_several (hlength : 1 < sigs.length)
    (hfind : (sigs.find? fun sig => CompiledQuery.fitsAll args sig.params) = none) :
    IsAnswer s maxInSet name sigs args
      (.error (.clauseMismatch name (.noOverload (args.map Argument.kindName)))) := by
  constructor
  case unknown_iff =>
    refine iff_of_false (by simp) ?_
    rintro rfl
    simp at hlength
  case first =>
    intro sig hsig
    rw [hfind] at hsig
    contradiction
  case single =>
    rintro sig rfl
    simp at hlength
  case several =>
    intro _ _
    rfl

theorem eq {answer answer' : Except QueryError Specification}
    (h : IsAnswer s maxInSet name sigs args answer)
    (h' : IsAnswer s maxInSet name sigs args answer') : answer = answer' := by
  cases hfind : sigs.find? fun sig => CompiledQuery.fitsAll args sig.params with
  | some sig =>
    obtain ⟨query, hcompile, hanswer⟩ := h.first sig hfind
    obtain ⟨query', hcompile', hanswer'⟩ := h'.first sig hfind
    rw [hcompile, Except.ok.injEq] at hcompile'
    rw [hanswer, hanswer', hcompile']
  | none =>
    have hunfit : ∀ sig ∈ sigs, CompiledQuery.fitsAll args sig.params = false := by
      simpa using hfind
    match sigs with
    | [] => rw [h.unknown_iff.mpr rfl, h'.unknown_iff.mpr rfl]
    | [sig] =>
      obtain ⟨query, e, hcompile, hbind, hanswer⟩ := h.single sig rfl (hunfit sig (by simp))
      obtain ⟨query', e', hcompile', hbind', hanswer'⟩ :=
        h'.single sig rfl (hunfit sig (by simp))
      rw [hcompile, Except.ok.injEq] at hcompile'
      rw [hanswer, hanswer', ← hbind, ← hbind', hcompile']
    | _ :: _ :: _ => rw [h.several (by simp) hunfit, h'.several (by simp) hunfit]

end IsAnswer

namespace Knows

variable {schemas : List EntitySchema} {s : EntitySchema} {settings : Settings}
  {sigs : List Signature} {args : List Argument}

theorem answer_of_resolve (hapart : SchemasApart schemas) (h : Knows schemas s settings sigs r)
    (hresolve : r.resolve name args = .ok query) :
    (specification name args).answer r = query.bind args settings.maxInSet := by
  obtain ⟨sig, -, hcompile⟩ := exists_right_of_mem (h.compiled name)
    (mem_of_resolve h.nonempty hresolve)
  rw [← h.settings_eq]
  apply answer_specification_of_ok hresolve
  · rw [(CompiledQuery.compile_eq_ok hcompile).1, h.schema_eq, hcompile]
  · exact compiles_compile (h.map_query_get hapart query.signature)

theorem isAnswer (hapart : SchemasApart schemas) (h : Knows schemas s settings sigs r)
    (name : String) (args : List Argument) :
    IsAnswer s settings.maxInSet name (overloads s sigs name) args
      ((specification name args).answer r) := by
  have hcompiled := h.compiled name
  have hfits : ∀ query sig, CompiledQuery.compile sig s = .ok query →
      query.accepts args = CompiledQuery.fitsAll args sig.params := by
    intro query sig hcompile
    rw [CompiledQuery.accepts, (CompiledQuery.compile_eq_ok hcompile).1]
  have hfind := rel_find? hfits hcompiled
  generalize overloads s sigs name = named at hcompiled hfind
  cases hnamed : named.find? fun sig => CompiledQuery.fitsAll args sig.params with
  | some sig =>
    rw [hnamed] at hfind
    cases hfirst : (queriesOf r.methods name).find? fun query => query.accepts args with
    | none =>
      rw [hfirst] at hfind
      contradiction
    | some query =>
      rw [hfirst, Option.rel_some_some] at hfind
      rw [h.answer_of_resolve hapart (resolve_of_find h.nonempty hfirst)]
      exact .of_find hnamed hfind
  | none =>
    rw [hnamed] at hfind
    cases hfirst : (queriesOf r.methods name).find? fun query => query.accepts args with
    | some query =>
      rw [hfirst] at hfind
      contradiction
    | none =>
      generalize hqueries : queriesOf r.methods name = queries at hcompiled
      match hcompiled with
      | .nil =>
        rw [answer_specification_of_error (resolve_of_nil h.nonempty hqueries)]
        exact .of_nil
      | .cons hcompile .nil =>
        rw [h.answer_of_resolve hapart (resolve_of_single h.nonempty hqueries)]
        exact .of_single (by simpa using hnamed) hcompile
      | .cons _ (.cons _ _) =>
        rw [answer_specification_of_error
          (resolve_of_several h.nonempty (by simp [hqueries]) hfirst)]
        exact .of_several (by simp) hnamed

end Knows

/-! ### Any registrations -/

/--
The repository with neither a cache nor anything that its cache could answer.
-/
def uncached (r : Repository γ) : Repository γ :=
  { r with
    settings := { r.settings with cacheCompiledQueries := false }
    ownCache := none
    sharedCache := .ofCapacity Cache.defaultCapacity }

def Event.isRegister : Event → Bool
  | .register _ => true
  | .cacheCall _ => false

/--
What a repository that knew no methods knows after the events. The last equation says that it does
not depend on the cache.
-/
structure IsRegistry (start : Repository γ) (events : List Event) (r : Repository γ) : Prop where
  overloads_eq : ∀ name, ((r.overloads? name).getD []).map (·.signature)
    = overloads start.schema (events.flatMap (Event.registered start)) name
  register_eq : ∀ sig, (register sig).answer r
    = (CompiledQuery.compile (start.ownSignature sig) start.schema).map fun _ => ()
  final_eq : ∀ sig e, (register sig).answer r = .error e → (register sig).final r = r
    ∨ (register sig).final r = r.setCache { r.cache with misses := r.cache.misses + 1 }
  isAnswer : ∀ name args, IsAnswer start.schema start.settings.maxInSet name
    (overloads start.schema (events.flatMap (Event.registered start)) name) args
    ((specification name args).answer r)
  uncached_eq : ∀ name args, (specification name args).answer r
    = (specification name args).answer (start.uncached.afterAll (events.filter Event.isRegister))

theorem Event.registered_filter (start : Repository γ) (events : List Event) :
    (events.filter Event.isRegister).flatMap (Event.registered start)
      =
    events.flatMap (Event.registered start) := by
  induction events with
  | nil => rfl
  | cons event events ih =>
    rw [List.flatMap_cons]
    cases event with
    | register sig => rw [List.filter_cons_of_pos rfl, List.flatMap_cons, ih]
    | cacheCall call =>
      rw [List.filter_cons_of_neg (by simp [isRegister]), ih]
      rfl

namespace Knows

variable {schemas : List EntitySchema} {s : EntitySchema} {settings : Settings}
  {sigs : List Signature}

theorem of_start {schemas : List EntitySchema} (hschema : r.schema ∈ schemas)
    (hmethods : r.methods = []) {recent : List Request}
    (hreflects : Cache.Reflects schemas r.cache recent) :
    Knows schemas r.schema r.settings [] r where
  schema_eq := rfl
  settings_eq := rfl
  schema_mem := hschema
  reflects := ⟨recent, hreflects⟩
  ascending := by
    rw [hmethods]
    exact .nil
  nonempty := by simp [hmethods]
  compiled := by
    intro name
    rw [hmethods]
    exact .nil

theorem map_signature (h : Knows schemas s settings sigs r) (name : String) :
    ((r.overloads? name).getD []).map (·.signature) = overloads s sigs name := by
  have hqueries : (r.overloads? name).getD [] = queriesOf r.methods name := rfl
  rw [hqueries]
  have hcompiled := h.compiled name
  generalize queriesOf r.methods name = queries at hcompiled
  generalize overloads s sigs name = named at hcompiled
  induction hcompiled with
  | nil => rfl
  | cons hcompile _ ih => rw [List.map_cons, ih, (CompiledQuery.compile_eq_ok hcompile).1]

theorem answer_register (hapart : SchemasApart schemas) (h : Knows schemas s settings sigs r)
    (sig : Signature) :
    (register sig).answer r
      =
    (CompiledQuery.compile (r.ownSignature sig) s).map fun _ => () := by
  have hcompiles := compiles_compile (h.map_query_get hapart (r.ownSignature sig))
  rw [RepositoryAction.answer, ← h.schema_eq]
  generalize hresult : compile (r.ownSignature sig) r = result at hcompiles
  cases hcompiles with
  | ok query r' compiles =>
    rw [register_eq_of_ok hresult, compiles]
    rfl
  | fault e r' failed =>
    rw [register_eq_of_error hresult, failed]
    rfl

theorem final_register (hapart : SchemasApart schemas) (h : Knows schemas s settings sigs r)
    {sig : Signature} {e : QueryError} (herror : (register sig).answer r = .error e) :
    (register sig).final r = r
      ∨
    (register sig).final r = r.setCache { r.cache with misses := r.cache.misses + 1 } := by
  have hcompiles := compiles_compile (h.map_query_get hapart (r.ownSignature sig))
  rw [RepositoryAction.answer] at herror
  rw [RepositoryAction.final]
  generalize hresult : compile (r.ownSignature sig) r = result at hcompiles
  cases hcompiles with
  | ok query r' =>
    rw [register_eq_of_ok hresult] at herror
    contradiction
  | fault e r' _ _ same =>
    rw [register_eq_of_error hresult]
    exact same

end Knows

theorem isRegistry_afterAll {start : Repository γ} (hmethods : start.methods = [])
    (capacity : Nat) (past : List CacheCall)
    (hcache : start.cache = (Cache.ofCapacity capacity).afterAll past) (events : List Event)
    (hapart : SchemasApart (start.schema ::
      (past ++ events.flatMap (Event.calls start)).flatMap CacheCall.schemas)) :
    IsRegistry start events (start.afterAll events) := by
  have hstart : start.schema ∈ start.schema ::
      (past ++ events.flatMap (Event.calls start)).flatMap CacheCall.schemas := List.mem_cons_self
  have hpast := (Cache.reflects_ofCapacity capacity).afterAll hapart past fun s hs => by
    rw [List.flatMap_append]
    exact List.mem_cons_of_mem _ (List.mem_append_left _ hs)
  rw [← hcache] at hpast
  have hknows := (Knows.of_start hstart hmethods hpast).afterAll hapart events fun s hs => by
    rw [List.flatMap_append]
    exact List.mem_cons_of_mem _ (List.mem_append_right _ hs)
  rw [List.nil_append] at hknows
  have hown : (start.afterAll events).ownSignature = start.ownSignature := by
    funext sig
    simp [ownSignature, hknows.schema_eq]
  constructor
  case overloads_eq => exact hknows.map_signature
  case register_eq =>
    intro sig
    rw [hknows.answer_register hapart, hown]
  case final_eq =>
    intro sig e herror
    exact hknows.final_register hapart herror
  case isAnswer => exact hknows.isAnswer hapart
  case uncached_eq =>
    intro name args
    have hcalls : ∀ s ∈ ((events.filter Event.isRegister).flatMap
        (Event.calls start.uncached)).flatMap CacheCall.schemas, s ∈ start.schema ::
          (past ++ events.flatMap (Event.calls start)).flatMap CacheCall.schemas := by
      intro s hs
      obtain ⟨call, hcall, hs⟩ := List.mem_flatMap.mp hs
      obtain ⟨event, hevent, hcall⟩ := List.mem_flatMap.mp hcall
      apply List.mem_cons_of_mem
      apply List.mem_flatMap_of_mem (List.mem_append_right _ ?_) hs
      exact List.mem_flatMap_of_mem (List.mem_of_mem_filter hevent) hcall
    have hplain := (Knows.of_start (r := start.uncached) hstart hmethods
      (Cache.reflects_ofCapacity Cache.defaultCapacity)).afterAll hapart
      (events.filter Event.isRegister) hcalls
    have hregistered : (events.filter Event.isRegister).flatMap (Event.registered start.uncached)
        = events.flatMap (Event.registered start) :=
      Event.registered_filter start events
    rw [List.nil_append, hregistered] at hplain
    exact (hknows.isAnswer hapart name args).eq (hplain.isAnswer hapart name args)

def badgePast : List CacheCall :=
  [.get badgeByMark]

def badgeRepository : Repository Document where
  store := { collection := { name := "badges" } }
  schema := badgeByAge.2
  read := some
  ownCache := some ((Cache.ofCapacity 1).afterAll badgePast)

def badgeEvents : List Event :=
  [.register { name := "findByAge", params := [.value] }, .register badgeByMark.1,
   .register { name := "findByAge", params := [.sequence] }, .cacheCall .clear,
   .register badgeByAge.1]

theorem isRegistry_afterAll_badge :
    SchemasApart (badgeRepository.schema ::
      (badgePast ++ badgeEvents.flatMap (Event.calls badgeRepository)).flatMap CacheCall.schemas)
      ∧
    overloads badgeRepository.schema (badgeEvents.flatMap (Event.registered badgeRepository))
      "findByAge" = [{ badgeByAge.1 with params := [.sequence] }, badgeByAge.1]
      ∧
    IsRegistry badgeRepository badgeEvents (badgeRepository.afterAll badgeEvents) := by
  have hapart : SchemasApart (badgeRepository.schema ::
      (badgePast ++ badgeEvents.flatMap (Event.calls badgeRepository)).flatMap
        CacheCall.schemas) := by
    apply schemasApart_badge.of_subset
    decide +kernel
  refine ⟨hapart, by decide +kernel, ?_⟩
  exact isRegistry_afterAll rfl 1 badgePast rfl badgeEvents hapart

end Repository
end DerivedQuery
