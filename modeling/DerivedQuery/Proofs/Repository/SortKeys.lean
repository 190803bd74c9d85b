import DerivedQuery.Proofs.Repository.Failures
import DerivedQuery.Proofs.Store.SortedResults

/-!
This module contains that repositories answer in the order of all sort keys, whichever way these
come. A call of a method does not take more of them than documents are compared by. The list of
every entity does, and there the keys behind this number do not count.
-/

namespace DerivedQuery
namespace Repository

open Document (IsSortable IsSortedBy)

variable {γ : Type} {r r' : Repository γ} {name : String} {args : List Argument}
  {spec : Specification} {result : Outcome γ}

/-! ### Runs -/

theorem exists_run_eq_ok (h : run spec r = .ok result r') :
    ∃ s, Execution.run r.settings r.read spec r.store = .ok result s := by
  unfold run at h
  change onStore (Execution.run r.settings r.read spec) r = _ at h
  unfold onStore at h
  split at h
  next answer s hrun =>
    cases h
    exact ⟨s, hrun⟩
  next => contradiction

theorem exists_of_findAll_eq_ok {given : SortKeys} {entities : List γ}
    (h : findAll (some given) r = .ok entities r') :
    ∃ keys,
      CompiledQuery.resolveSort r.schema "findAll" given = .ok keys
        ∧
      run (.unfiltered "findAll" .list (some keys)) r = .ok (.list entities) r' := by
  unfold findAll at h
  obtain ⟨_, _, hget, h⟩ := run_bind_eq_ok_iff.mp h
  cases hget
  cases hresolved : CompiledQuery.resolveSort r.schema "findAll" given with
  | error e =>
    simp only [hresolved] at h
    cases h
  | ok keys =>
    simp only [hresolved, run_bind_eq_ok_iff] at h
    obtain ⟨_, _, hsort, answer, _, hrun, h⟩ := h
    cases hsort
    refine ⟨keys, rfl, ?_⟩
    cases answer with
    | list entities' =>
      cases h
      exact hrun
    | one | count | exists_ | page | geoResults | geoPage => cases h

theorem sort_unfiltered (method : String) (shape : ResultShape) (keys : SortKeys) :
    (Specification.unfiltered method shape (some keys)).sort.getD [] = keys := by
  unfold Specification.unfiltered
  cases keys with
  | nil => rfl
  | cons key keys => rfl

theorem matching_all (c : Collection) : c.matching .all = c.documents := by
  unfold Collection.matching
  rw [List.filter_eq_self]
  intro d _
  unfold Collection.isMatch
  rw [Filter.eval]

/-! ### Calls -/

/--
The call is bound to the specification by a method of the name: as it was registered, or compiled
once more if there is to be no cache.
-/
structure Binds (r : Repository γ) (name : String) (args : List Argument) (q : CompiledQuery)
    (spec : Specification) : Prop where
  registered : ∃ found, r.resolve name args = .ok found
    ∧ if r.settings.cacheCompiledQueries then found = q
      else CompiledQuery.compile found.signature r.schema = .ok q
  bound : q.bind args r.settings.maxInSet = .ok spec

theorem exists_binds_of_invoke (h : invoke name args r = .ok result r') :
    ∃ q spec s,
      r.Binds name args q spec
        ∧
      (∃ store, Execution.run r.settings r.read spec s = .ok result store)
        ∧
      s.collection = r.store.collection := by
  unfold invoke at h
  obtain ⟨spec, r₁, hspec, hrun⟩ := run_bind_eq_ok_iff.mp h
  obtain ⟨store, hrun⟩ := exists_run_eq_ok hrun
  obtain ⟨hleaves, hsettings, hread⟩ := leaves_specification hspec
  rw [hsettings, hread] at hrun
  obtain ⟨found, hresolve, hrest⟩ := specification_eq_ok_iff.mp hspec
  split at hrest
  next hcached =>
    refine ⟨found, spec, r₁.store, ⟨⟨found, hresolve, ?_⟩, hrest.1⟩, ⟨store, hrun⟩,
      hleaves.collection_eq⟩
    rw [if_pos hcached]
  next hcached =>
    obtain ⟨q, hcompile, hbind, -⟩ := hrest
    refine ⟨q, spec, r₁.store, ⟨⟨found, hresolve, ?_⟩, hbind⟩, ⟨store, hrun⟩,
      hleaves.collection_eq⟩
    rwa [if_neg hcached]

/--
The list of every entity and the answers of methods are in the order of all keys that are given for
them, whether as an argument, with a page or by the name, as long as there are not too many and the
documents can be sorted by them. A call does not take too many.
-/
theorem isSortedBy_findAll_and_invoke (r : Repository γ) :
    (∀ given entities r', findAll (some given) r = .ok entities r' →
      ∃ keys,
        CompiledQuery.resolveSort r.schema "findAll" given = .ok keys
          ∧
        (keys.length ≤ SortKeys.maxKeys → IsSortable keys r.store.collection.documents →
          ∃ sorted,
            sorted.Perm r.store.collection.documents
              ∧
            IsSortedBy keys sorted
              ∧
            (sorted.take r.settings.maxResultLimit).mapM r.read = some entities))
      ∧
    ∀ name args result r', invoke name args r = .ok result r' →
      ∃ q spec keys,
        r.Binds name args q spec
          ∧
        q.SortsBy args keys ∧ keys.length ≤ SortKeys.maxKeys
          ∧
        (IsSortable keys (r.store.collection.matching spec.filter) →
          ∃ sorted,
            sorted.Perm (r.store.collection.matching spec.filter)
              ∧
            IsSortedBy keys sorted
              ∧
            result.Lists r.read spec.near
              (Collection.projected (spec.projection.map (Execution.keepingNear spec.near))
                (Execution.handedBack r.settings spec sorted))) := by
  constructor
  · intro given entities r' h
    obtain ⟨keys, hkeys, hrun⟩ := exists_of_findAll_eq_ok h
    refine ⟨keys, hkeys, ?_⟩
    intro hlength hsortable
    obtain ⟨s, hrun⟩ := exists_run_eq_ok hrun
    rw [← sort_unfiltered "findAll" .list keys] at hlength hsortable
    rw [← matching_all] at hsortable
    obtain ⟨sorted, hperm, hsorted, hlists⟩ :=
      Execution.exists_isSortedBy_of_run hrun hlength hsortable
    rw [sort_unfiltered] at hsorted
    exact ⟨sorted, hperm.trans (.of_eq (matching_all _)), hsorted, hlists⟩
  · intro name args result r' h
    obtain ⟨q, spec, s, hbinds, ⟨store, hrun⟩, hcollection⟩ := exists_binds_of_invoke h
    obtain ⟨hsorts, hlength⟩ := CompiledQuery.sortsBy_of_bind hbinds.bound
    refine ⟨q, spec, _, hbinds, hsorts, hlength, ?_⟩
    intro hsortable
    rw [← hcollection] at hsortable ⊢
    exact Execution.exists_isSortedBy_of_run hrun hlength hsortable

def rowKeys : SortKeys :=
  ["a", "b", "c", "d", "e", "f", "g", "h", "i"].map fun name => ⟨name, .asc⟩

def rowSchema : EntitySchema :=
  ⟨"Row", rowKeys.map fun key => ⟨key.field, .scalar .number⟩⟩

def row (id : String) (last : Int32) : Document :=
  [("_id", .string id), ("i", .int32 last)]

def rows : Repository String where
  store := { collection := { name := "rows", documents := [row "second" 2, row "first" 1] } }
  schema := rowSchema
  read := fun d => (d.get? "_id").bind Value.string?

def rowsWithoutA : Signature :=
  { name := "findByAIsNull", params := [.sort] }

def rowDesk : Repository String :=
  (register rowsWithoutA).final rows

def lastKeys : SortKeys :=
  rowKeys.drop 7

theorem isSortable_lastKeys {documents : List Document}
    (h : ∀ d ∈ documents, d ∈ rows.store.collection.documents) :
    IsSortable lastKeys documents where
  reachable := by decide +kernel
  apart := by
    intro a ha b hb
    have hrows : ∀ a ∈ rows.store.collection.documents, ∀ b ∈ rows.store.collection.documents,
        ¬ Document.MixedBy lastKeys a b := by
      decide +kernel
    exact hrows a (h a ha) b (h b hb)

theorem eq_lastKeys_of_sortsBy {q : CompiledQuery} {keys : SortKeys}
    (hbinds : rowDesk.Binds rowsWithoutA.name [.sort lastKeys] q spec)
    (hsorts : q.SortsBy [.sort lastKeys] keys) : keys = lastKeys := by
  have hcarried : (rowDesk.resolve rowsWithoutA.name [.sort lastKeys]).toOption.all (fun found =>
      decide (found.sortArgument? [.sort lastKeys] = some lastKeys
        ∧ (CompiledQuery.resolveSort found.schema found.signature.name lastKeys).toOption
          = some lastKeys)) = true := by
    decide +kernel
  obtain ⟨_, hresolve, rfl⟩ := hbinds.registered
  rw [hresolve] at hcarried
  obtain ⟨hargument, hkeys⟩ := of_decide_eq_true hcarried
  cases hsorts with
  | argument given _ hgiven hresolved =>
    rw [hargument, Option.some.injEq] at hgiven
    rw [← hgiven] at hresolved
    rw [hresolved] at hkeys
    exact Option.some.inj hkeys
  | page _ _ _ hnone =>
    rw [hargument] at hnone
    cases hnone
  | name hnone =>
    rw [hargument] at hnone
    cases hnone

theorem isSortedBy_findAll_and_invoke_rows :
    (∃ r' sorted,
      findAll (some lastKeys) rows = .ok ["first", "second"] r'
        ∧
      sorted.Perm rows.store.collection.documents
        ∧
      IsSortedBy lastKeys sorted
        ∧
      (sorted.take rows.settings.maxResultLimit).mapM rows.read = some ["first", "second"])
      ∧
    ∃ result r' q spec sorted,
      invoke rowsWithoutA.name [.sort lastKeys] rowDesk = .ok result r'
        ∧
      rowDesk.Binds rowsWithoutA.name [.sort lastKeys] q spec
        ∧
      sorted.Perm (rowDesk.store.collection.matching spec.filter)
        ∧
      IsSortedBy lastKeys sorted
        ∧
      result.Lists rowDesk.read spec.near
        (Collection.projected (spec.projection.map (Execution.keepingNear spec.near))
          (Execution.handedBack rowDesk.settings spec sorted)) := by
  constructor
  · have hanswer : ((findAll (some lastKeys)).answer rows).toOption = some ["first", "second"] := by
      decide +kernel
    obtain ⟨r', h⟩ := RepositoryAction.exists_of_answer_eq_ok (toOption_eq_some_iff.mp hanswer)
    have hresolved : (CompiledQuery.resolveSort rows.schema "findAll" lastKeys).toOption
        = some lastKeys := by
      decide +kernel
    obtain ⟨keys, hkeys, hsorted⟩ := (isSortedBy_findAll_and_invoke rows).1 lastKeys _ r' h
    rw [toOption_eq_some_iff.mp hresolved, Except.ok.injEq] at hkeys
    rw [← hkeys] at hsorted
    obtain ⟨sorted, hall⟩ := hsorted (by decide) (isSortable_lastKeys fun _ hd => hd)
    exact ⟨r', sorted, h, hall⟩
  · have hanswer : ((invoke rowsWithoutA.name [.sort lastKeys]).answer rowDesk).toOption.isSome
        = true := by
      decide +kernel
    obtain ⟨result, hresult⟩ := exists_eq_ok_of_isSome hanswer
    obtain ⟨r', h⟩ := RepositoryAction.exists_of_answer_eq_ok hresult
    obtain ⟨q, spec, keys, hbinds, hsorts, -, hsorted⟩ :=
      (isSortedBy_findAll_and_invoke rowDesk).2 _ _ result r' h
    have hkeys := eq_lastKeys_of_sortsBy hbinds hsorts
    rw [hkeys] at hsorted
    have hdocuments : rowDesk.store.collection.documents = rows.store.collection.documents := by
      rfl
    obtain ⟨sorted, hall⟩ := hsorted (isSortable_lastKeys fun d hd =>
      hdocuments ▸ (List.mem_filter.mp hd).1)
    exact ⟨result, r', q, spec, sorted, h, hbinds, hall⟩

/--
Nine keys are taken, and the answer is in the wrong order under the last one.
-/
theorem findAll_rows_not_isSortedBy :
    ((findAll (some rowKeys)).answer rows).toOption = some ["second", "first"]
      ∧
    (CompiledQuery.resolveSort rows.schema "findAll" rowKeys).toOption = some rowKeys
      ∧
    rows.store.collection.documents.mapM rows.read = some ["second", "first"]
      ∧
    ¬ IsSortedBy rowKeys rows.store.collection.documents := by
  refine ⟨by decide +kernel, by decide +kernel, by decide +kernel, ?_⟩
  intro h
  have hlast := (List.pairwise_cons.mp h).1 (row "first" 1) (by simp) (rowKeys.take 8)
    ⟨"i", .asc⟩ [] rfl (by decide +kernel) (by decide +kernel)
  revert hlast
  decide +kernel

end Repository
end DerivedQuery
