import DerivedQuery.Proofs.Repository.Recency
import DerivedQuery.Proofs.Schema.Declaration
import DerivedQuery.Proofs.Traversal

/-!
This module contains what a cache answers after any calls: what compiling would answer, and without
compiling exactly if the method is among the last ones that were used.
-/

namespace DerivedQuery

open Recency (latest mem_take_latest take_latest_cons_of_mem take_latest_cons_of_not_mem)

/-! ### Calls of a cache -/

/--
The digest tells the declarations of the schemas from each other.
-/
def SchemasApart (schemas : List EntitySchema) : Prop :=
  ∀ s ∈ schemas, ∀ t ∈ schemas, s.fingerprint = t.fingerprint → s.declaration = t.declaration

theorem SchemasApart.of_subset {schemas others : List EntitySchema} (h : SchemasApart schemas)
    (hsubset : others ⊆ schemas) : SchemasApart others := by
  intro s hs t ht
  exact h s (hsubset hs) t (hsubset ht)

theorem schemasApart_pair {s t : EntitySchema} (h : s.fingerprint ≠ t.fingerprint) :
    SchemasApart [s, t] := by
  simp [SchemasApart, h, h.symm]

abbrev Request := Signature × EntitySchema

namespace Request

def compile (r : Request) : Except QueryError CompiledQuery :=
  CompiledQuery.compile r.1 r.2

def key (r : Request) : CacheKey :=
  .of r.1 r.2

/--
Fewer than `n` others were used after the last use of the method; the last use comes first.
-/
def IsRecent (used : List Request) (n : Nat) (r : Request) : Prop :=
  r ∈ used ∧ (used.takeWhile (· ≠ r)).dedup.length < n

instance (used : List Request) (n : Nat) (r : Request) : Decidable (IsRecent used n r) :=
  inferInstanceAs (Decidable (_ ∧ _))

theorem eq_of_key_eq {schemas : List EntitySchema} (h : SchemasApart schemas) {r r' : Request}
    (hr : r.2 ∈ schemas) (hr' : r'.2 ∈ schemas) (hkey : r.key = r'.key) : r = r' := by
  obtain ⟨sig, s⟩ := r
  obtain ⟨sig', s'⟩ := r'
  simp only [key, CacheKey.of, CacheKey.mk.injEq] at hkey
  rw [hkey.1, EntitySchema.eq_of_declaration_eq (h s hr s' hr' hkey.2)]

end Request

inductive CacheCall where
  | get (r : Request)
  | clear

namespace CacheCall

def isGet : CacheCall → Bool
  | .get _ => true
  | .clear => false

def schemas : CacheCall → List EntitySchema
  | .get r => [r.2]
  | .clear => []

/--
The methods that were used since the last clearing, the last one first. Only a method that compiles
can be used.
-/
def use (used : List Request) : CacheCall → List Request
  | .get r => if r.compile.toOption.isSome then r :: used else used
  | .clear => []

def used (calls : List CacheCall) : List Request :=
  calls.foldl use []

theorem use_get {r : Request} {query : CompiledQuery} (h : r.compile = .ok query)
    (used : List Request) : use used (.get r) = r :: used := by
  simp [use, h, Except.toOption]

theorem use_get_of_error {r : Request} {e : QueryError} (h : r.compile = .error e)
    (used : List Request) : use used (.get r) = used := by
  simp [use, h, Except.toOption]

end CacheCall

namespace Cache

open CacheCall (use used use_get use_get_of_error)

def after (c : Cache) : CacheCall → Cache
  | .get r => (c.get r.1 r.2).2
  | .clear => c.clear

def afterAll (c : Cache) (calls : List CacheCall) : Cache :=
  calls.foldl after c

/-! ### One call -/

/--
What a call for a method does. What is not found is compiled, and then kept in front of the others.
-/
inductive Gets (c : Cache) (r : Request) : Except QueryError CacheAnswer × Cache → Prop where
  | hit (e : CacheEntry) (found : c.find? r.key = some e) :
    Gets c r (.ok ⟨e.query, e.number, true⟩, c.touch e)
  | fault (e : QueryError) (missing : c.find? r.key = none) (failed : r.compile = .error e) :
    Gets c r (.error e, { c with misses := c.misses + 1 })
  | compiled (query : CompiledQuery) (missing : c.find? r.key = none)
      (compiles : r.compile = .ok query) :
    Gets c r (.ok ⟨query, c.compilations, false⟩,
      { c with
        entries := (⟨r.key, query, c.compilations⟩ :: c.entries).take c.capacity
        misses := c.misses + 1
        compilations := c.compilations + 1 })

theorem gets (c : Cache) (r : Request) : c.Gets r (c.get r.1 r.2) := by
  unfold get
  cases hfind : c.find? (CacheKey.of r.1 r.2) with
  | some e =>
    simp only [hfind]
    exact .hit e hfind
  | none =>
    simp only [hfind]
    cases hcompile : CompiledQuery.compile r.1 r.2 with
    | error e => exact .fault e hfind hcompile
    | ok query => exact .compiled query hfind hcompile

variable (c : Cache)

theorem exists_isHit_iff (r : Request) :
    (∃ answer, (c.get r.1 r.2).1 = .ok answer ∧ answer.isHit = true)
      ↔
    (c.find? r.key).isSome = true := by
  have h := c.gets r
  generalize c.get r.1 r.2 = result at h ⊢
  cases h with
  | hit e found => simp [found]
  | fault e missing => simp [missing]
  | compiled query missing => simp [missing]

theorem hits_get (r : Request) :
    (c.get r.1 r.2).2.hits = c.hits + if (c.find? r.key).isSome then 1 else 0 := by
  have h := c.gets r
  generalize c.get r.1 r.2 = result at h ⊢
  cases h with
  | hit e found => simp [found, touch]
  | fault e missing => simp [missing]
  | compiled query missing => simp [missing]

theorem hits_add_misses_after (call : CacheCall) :
    (c.after call).hits + (c.after call).misses
      =
    c.hits + c.misses + if call.isGet then 1 else 0 := by
  cases call with
  | get r =>
    have h := c.gets r
    rw [after, CacheCall.isGet]
    generalize c.get r.1 r.2 = result at h ⊢
    cases h with
    | hit => simp [touch]; omega
    | fault => simp; omega
    | compiled => simp; omega
  | clear => rfl

theorem hits_add_misses_afterAll (calls : List CacheCall) :
    (c.afterAll calls).hits + (c.afterAll calls).misses
      =
    c.hits + c.misses + calls.countP CacheCall.isGet := by
  induction calls generalizing c with
  | nil => rfl
  | cons call calls ih =>
    rw [afterAll, List.foldl_cons, ← afterAll, ih, hits_add_misses_after, List.countP_cons]
    omega

theorem capacity_after (call : CacheCall) : (c.after call).capacity = c.capacity := by
  cases call with
  | get r =>
    have h := c.gets r
    rw [after]
    generalize c.get r.1 r.2 = result at h ⊢
    cases h <;> rfl
  | clear => rfl

theorem capacity_afterAll (calls : List CacheCall) : (c.afterAll calls).capacity = c.capacity := by
  induction calls generalizing c with
  | nil => rfl
  | cons call calls ih => rw [afterAll, List.foldl_cons, ← afterAll, ih, capacity_after]

/-! ### Entries -/

variable {schemas : List EntitySchema} {c : Cache} {recent : List Request} {r : Request}

structure Holds (schemas : List EntitySchema) (e : CacheEntry) (r : Request) : Prop where
  key_eq : e.key = r.key
  compile_eq : r.compile = .ok e.query
  schema_mem : r.2 ∈ schemas

/--
The cache has the methods that were used last, as many as it can keep, in the order of their use.
-/
structure Reflects (schemas : List EntitySchema) (c : Cache) (recent : List Request) : Prop where
  holds : List.Forall₂ (Holds schemas) c.entries ((latest recent).take c.capacity)
  capacity_pos : 0 < c.capacity

theorem reflects_ofCapacity (capacity : Nat) : Reflects schemas (ofCapacity capacity) [] where
  holds := by
    rw [latest, List.take_nil]
    exact .nil
  capacity_pos := by simp [ofCapacity]

namespace Reflects

theorem mem_of_find?_eq_some (hapart : SchemasApart schemas) (hr : r.2 ∈ schemas)
    (h : Reflects schemas c recent) {e : CacheEntry} (found : c.find? r.key = some e) :
    r ∈ (latest recent).take c.capacity ∧ Holds schemas e r := by
  have hkey : e.key = r.key := by simpa using List.find?_some found
  obtain ⟨r', hmem, hholds⟩ := exists_right_of_mem h.holds (List.mem_of_find?_eq_some found)
  have heq : r' = r := Request.eq_of_key_eq hapart hholds.schema_mem hr
    (hholds.key_eq.symm.trans hkey)
  rw [heq] at hmem hholds
  exact ⟨hmem, hholds⟩

theorem not_mem_of_find?_eq_none (h : Reflects schemas c recent) (missing : c.find? r.key = none) :
    r ∉ (latest recent).take c.capacity := by
  intro hmem
  obtain ⟨e, he, hholds⟩ := exists_left_of_mem h.holds hmem
  have hne := List.find?_eq_none.mp missing e he
  simp [hholds.key_eq] at hne

theorem touch (hapart : SchemasApart schemas) (h : Reflects schemas c recent) {e : CacheEntry}
    (hmem : r ∈ (latest recent).take c.capacity) (hholds : Holds schemas e r) :
    Reflects schemas (c.touch e) (r :: recent) := by
  refine ⟨?_, h.capacity_pos⟩
  obtain ⟨n, hn⟩ := Nat.exists_eq_add_one.mpr h.capacity_pos
  change List.Forall₂ _ (e :: _) ((latest (r :: recent)).take c.capacity)
  have hentries := h.holds
  rw [hn] at hmem hentries ⊢
  rw [take_latest_cons_of_mem hmem]
  refine .cons hholds (List.rel_filter ?_ hentries)
  intro other r' hother
  have hkeys : other.key = e.key ↔ r' = r := by
    rw [hother.key_eq, hholds.key_eq]
    constructor
    · exact Request.eq_of_key_eq hapart hother.schema_mem hholds.schema_mem
    · intro heq
      rw [heq]
  simp [hkeys]

theorem keep (h : Reflects schemas c recent) {e : CacheEntry}
    (hmem : r ∉ (latest recent).take c.capacity) (hholds : Holds schemas e r) :
    Reflects schemas (c.keep e) (r :: recent) := by
  refine ⟨?_, h.capacity_pos⟩
  obtain ⟨n, hn⟩ := Nat.exists_eq_add_one.mpr h.capacity_pos
  change List.Forall₂ _ ((e :: c.entries).take c.capacity) ((latest (r :: recent)).take c.capacity)
  have hentries := List.forall₂_take n h.holds
  rw [hn] at hmem hentries ⊢
  rw [take_latest_cons_of_not_mem hmem, List.take_succ_cons]
  rw [List.take_take, Nat.min_eq_left (Nat.le_succ n)] at hentries
  exact .cons hholds hentries

theorem after (hapart : SchemasApart schemas) (h : Reflects schemas c recent) (call : CacheCall)
    (hcall : ∀ s ∈ call.schemas, s ∈ schemas) :
    Reflects schemas (c.after call) (use recent call) := by
  cases call with
  | get r =>
    have hr : r.2 ∈ schemas := hcall r.2 (by simp [CacheCall.schemas])
    have hgets := c.gets r
    rw [Cache.after]
    generalize c.get r.1 r.2 = result at hgets ⊢
    cases hgets with
    | hit e found =>
      obtain ⟨hmem, hholds⟩ := h.mem_of_find?_eq_some hapart hr found
      rw [use_get hholds.compile_eq]
      exact h.touch hapart hmem hholds
    | fault e missing failed =>
      rw [use_get_of_error failed]
      exact ⟨h.holds, h.capacity_pos⟩
    | compiled query missing compiles =>
      rw [use_get compiles]
      have hkeep := h.keep (h.not_mem_of_find?_eq_none missing)
        (e := ⟨r.key, query, c.compilations⟩) ⟨rfl, compiles, hr⟩
      exact ⟨hkeep.holds, hkeep.capacity_pos⟩
  | clear =>
    refine ⟨?_, h.capacity_pos⟩
    rw [use, latest, List.take_nil]
    exact .nil

theorem afterAll (hapart : SchemasApart schemas) (h : Reflects schemas c recent)
    (calls : List CacheCall) (hcalls : ∀ s ∈ calls.flatMap CacheCall.schemas, s ∈ schemas) :
    Reflects schemas (c.afterAll calls) (calls.foldl use recent) := by
  induction calls generalizing c recent with
  | nil => exact h
  | cons call calls ih =>
    rw [List.flatMap_cons, List.forall_mem_append] at hcalls
    exact ih (h.after hapart call hcalls.1) hcalls.2

theorem size_le (h : Reflects schemas c recent) : c.size ≤ c.capacity := by
  rw [size, h.holds.length_eq]
  exact List.length_take_le _ _

theorem isSome_find?_iff (hapart : SchemasApart schemas) (hr : r.2 ∈ schemas)
    (h : Reflects schemas c recent) :
    (c.find? r.key).isSome = true ↔ r.IsRecent recent c.capacity := by
  rw [Request.IsRecent, ← mem_take_latest]
  cases hfind : c.find? r.key with
  | some e => simpa using (h.mem_of_find?_eq_some hapart hr hfind).1
  | none => simpa using h.not_mem_of_find?_eq_none hfind

theorem map_query_get (hapart : SchemasApart schemas) (hr : r.2 ∈ schemas)
    (h : Reflects schemas c recent) : (c.get r.1 r.2).1.map CacheAnswer.query = r.compile := by
  have hgets := c.gets r
  generalize c.get r.1 r.2 = result at hgets ⊢
  cases hgets with
  | hit e found => exact (h.mem_of_find?_eq_some hapart hr found).2.compile_eq.symm
  | fault e _ failed => exact failed.symm
  | compiled query _ compiles => exact compiles.symm

theorem entries_get_of_error (hapart : SchemasApart schemas) (hr : r.2 ∈ schemas)
    (h : Reflects schemas c recent) {e : QueryError} (failed : r.compile = .error e) :
    (c.get r.1 r.2).2.entries = c.entries := by
  have hgets := c.gets r
  generalize c.get r.1 r.2 = result at hgets ⊢
  cases hgets with
  | hit entry found =>
    have hholds := (h.mem_of_find?_eq_some hapart hr found).2
    simp [hholds.compile_eq] at failed
  | fault => rfl
  | compiled query _ compiles => simp [compiles] at failed

end Reflects

/-! ### Any calls -/

structure IsTransparent (capacity : Nat) (calls : List CacheCall) (r : Request) (c : Cache) :
    Prop where
  query_eq : (c.get r.1 r.2).1.map CacheAnswer.query = r.compile
  isHit_iff : (∃ answer, (c.get r.1 r.2).1 = .ok answer ∧ answer.isHit = true) ↔
    r.IsRecent (used calls) (max capacity 1)
  hits_eq : (c.after (.get r)).hits
    = c.hits + if r.IsRecent (used calls) (max capacity 1) then 1 else 0
  entries_eq : ∀ e, r.compile = .error e → (c.after (.get r)).entries = c.entries
  size_le : c.size ≤ max capacity 1
  count_eq : c.hits + c.misses = calls.countP CacheCall.isGet
  clear_eq : (c.after .clear).size = 0 ∧ c.after .clear = { c with entries := [] }

theorem isTransparent_afterAll (capacity : Nat) (calls : List CacheCall) (r : Request)
    (hapart : SchemasApart (r.2 :: calls.flatMap CacheCall.schemas)) :
    IsTransparent capacity calls r ((ofCapacity capacity).afterAll calls) := by
  have hr : r.2 ∈ r.2 :: calls.flatMap CacheCall.schemas := List.mem_cons_self
  have hcapacity : ((ofCapacity capacity).afterAll calls).capacity = max capacity 1 :=
    capacity_afterAll _ calls
  have hcount := hits_add_misses_afterAll (ofCapacity capacity) calls
  have h : Reflects _ ((ofCapacity capacity).afterAll calls) (used calls) :=
    (reflects_ofCapacity capacity).afterAll hapart calls fun s hs => List.mem_cons_of_mem _ hs
  generalize (ofCapacity capacity).afterAll calls = c at hcapacity hcount h
  have hrecent := h.isSome_find?_iff hapart hr
  rw [hcapacity] at hrecent
  constructor
  case query_eq => exact h.map_query_get hapart hr
  case isHit_iff => rw [exists_isHit_iff, hrecent]
  case hits_eq =>
    rw [after, hits_get]
    simp only [hrecent]
  case entries_eq =>
    intro e failed
    exact h.entries_get_of_error hapart hr failed
  case size_le =>
    rw [← hcapacity]
    exact h.size_le
  case count_eq =>
    rw [hcount]
    simp [ofCapacity]
  case clear_eq => exact ⟨rfl, rfl⟩

def badgeByAge : Request where
  fst := { entity := "Badge", name := "findByAge", params := [.value] }
  snd := ⟨"Badge", [⟨"age", .scalar .any⟩]⟩

def badgeByMark : Request where
  fst := { entity := "Badge", name := "findByMark", params := [.value] }
  snd := ⟨"Badge", [⟨"mark", .scalar .any⟩]⟩

def badgeCalls : List CacheCall :=
  [.get badgeByMark, .clear, .get badgeByAge, .get badgeByMark, .get (badgeByMark.1, badgeByAge.2)]

theorem schemasApart_badge : SchemasApart [badgeByAge.2, badgeByMark.2] := by
  apply schemasApart_pair
  decide +kernel

theorem isTransparent_afterAll_badge :
    SchemasApart (badgeByAge.2 :: badgeCalls.flatMap CacheCall.schemas)
      ∧
    ¬ badgeByAge.IsRecent (used badgeCalls) (max 0 1)
      ∧
    badgeByAge.IsRecent (used badgeCalls) (max 2 1)
      ∧
    IsTransparent 0 badgeCalls badgeByAge ((ofCapacity 0).afterAll badgeCalls)
      ∧
    IsTransparent 2 badgeCalls badgeByAge ((ofCapacity 2).afterAll badgeCalls) := by
  have hapart : SchemasApart (badgeByAge.2 :: badgeCalls.flatMap CacheCall.schemas) := by
    apply schemasApart_badge.of_subset
    decide
  refine ⟨hapart, ?_, ?_, ?_, ?_⟩
  · decide +kernel
  · decide +kernel
  · exact isTransparent_afterAll 0 badgeCalls badgeByAge hapart
  · exact isTransparent_afterAll 2 badgeCalls badgeByAge hapart

end Cache
end DerivedQuery
