import DerivedQuery.Proofs.Traversal
import DerivedQuery.Query.Compiled
import Mathlib.Data.List.NodupEquivFin

/-!
This module contains what a method that compiled was compiled from, and what a call of it that binds
asks for.
-/

namespace DerivedQuery

theorem mapError_eq_ok_iff {ε ε' α : Type} {x : Except ε α} {f : ε → ε'} {a : α} :
    x.mapError f = .ok a ↔ x = .ok a := by
  cases x with
  | error e => simp [Except.mapError]
  | ok b => simp [Except.mapError]

/-! ### Special parameters -/

theorem getElem?_of_findIdx? {kinds : List ParameterKind} {kind : ParameterKind} {i : Nat}
    (h : kinds.findIdx? (· == kind) = some i) : kinds[i]? = some kind := by
  rw [List.findIdx?_eq_some_iff_getElem] at h
  obtain ⟨hlt, hkind, -⟩ := h
  rw [List.getElem?_eq_getElem hlt, beq_iff_eq.mp hkind]

theorem exists_findIdx?_of_mem {kinds : List ParameterKind} {kind : ParameterKind}
    (h : kind ∈ kinds) : ∃ i, kinds.findIdx? (· == kind) = some i := by
  rw [← Option.isSome_iff_exists, List.findIdx?_isSome, List.any_eq_true]
  exact ⟨kind, h, beq_self_eq_true kind⟩

theorem count_le_one_iff {kinds : List ParameterKind} {kind : ParameterKind} :
    ¬ 1 < kinds.count kind
      ↔
    ∀ i j : Nat, kinds[i]? = some kind → kinds[j]? = some kind → i = j := by
  have hduplicate : 1 < kinds.count kind ↔ List.Duplicate kind kinds :=
    List.duplicate_iff_two_le_count.symm
  rw [hduplicate, List.duplicate_iff_exists_distinct_get]
  constructor
  · intro h i j hi hj
    obtain ⟨hi, heqi⟩ := List.getElem?_eq_some_iff.mp hi
    obtain ⟨hj, heqj⟩ := List.getElem?_eq_some_iff.mp hj
    rcases lt_trichotomy i j with hlt | heq | hgt
    · exact absurd ⟨⟨i, hi⟩, ⟨j, hj⟩, hlt, heqi.symm, heqj.symm⟩ h
    · exact heq
    · exact absurd ⟨⟨j, hj⟩, ⟨i, hi⟩, hgt, heqj.symm, heqi.symm⟩ h
  · rintro h ⟨i, j, hlt, hi, hj⟩
    have heq := h i j (List.getElem?_eq_some_iff.mpr ⟨i.2, hi.symm⟩)
      (List.getElem?_eq_some_iff.mpr ⟨j.2, hj.symm⟩)
    exact absurd heq (Nat.ne_of_lt hlt)

namespace CompiledQuery

theorem special_eq_ok_iff {sig : Signature} {kind : ParameterKind} {position : Option Nat} :
    special sig kind = .ok position ↔ ∀ i, sig.params[i]? = some kind ↔ position = some i := by
  unfold special
  rw [ite_eq_ok_iff, count_le_one_iff]
  constructor
  · rintro ⟨hunique, rfl⟩ i
    constructor
    · intro hi
      obtain ⟨j, hj⟩ := exists_findIdx?_of_mem (List.mem_of_getElem? hi)
      rw [hj, hunique i j hi (getElem?_of_findIdx? hj)]
    · exact getElem?_of_findIdx?
  · intro h
    constructor
    · intro i j hi hj
      rw [h] at hi hj
      rw [hi, Option.some.injEq] at hj
      exact hj
    · cases hfound : sig.params.findIdx? (· == kind) with
      | some i => exact ((h i).mp (getElem?_of_findIdx? hfound)).symm
      | none =>
        cases position with
        | none => rfl
        | some i =>
          obtain ⟨j, hj⟩ := exists_findIdx?_of_mem (List.mem_of_getElem? ((h i).mpr rfl))
          rw [hfound] at hj
          contradiction

/-! ### Compilation -/

structure DerivedFrom (sig : Signature) (s : EntitySchema) (t : PartTree) (slots : List (List Nat))
    (declared : ResultShape) : Prop where
  read : PartTree.read sig.name s = .ok t
  orderBy : ¬ SortKeys.maxKeys < t.orderBy.length
  shape : resultShape sig t.kind = .ok declared
  bind : Slots.bind sig t = .ok slots
  ranking : checkRanking sig t slots declared = .ok ()

theorem compileDerived_eq_ok_iff {sig : Signature} {s : EntitySchema} {source : QuerySource}
    {shape : ResultShape} :
    compileDerived sig s = .ok (source, shape)
      ↔
    ∃ t slots, DerivedFrom sig s t slots shape ∧ source = .derived t slots := by
  unfold compileDerived
  rw [bind_eq_ok_iff]
  constructor
  · rintro ⟨t, hread, h⟩
    split at h
    next => contradiction
    next horder =>
      simp only [bind_eq_ok_iff] at h
      obtain ⟨_, hshape, slots, hslots, _, hranking, h⟩ := h
      cases h
      exact ⟨t, slots, ⟨hread, horder, hshape, hslots, hranking⟩, rfl⟩
  · rintro ⟨t, slots, h, rfl⟩
    refine ⟨t, h.read, ?_⟩
    rw [if_neg h.orderBy]
    simp only [bind_eq_ok_iff]
    exact ⟨shape, h.shape, slots, h.bind, (), h.ranking, rfl⟩

theorem compile_eq_ok_iff_derived {sig : Signature} {s : EntitySchema} {q : CompiledQuery}
    (hquery : sig.query = none) :
    compile sig s = .ok q
      ↔
    ∃ sort page projection shape t slots,
      special sig .sort = .ok sort
        ∧
      special sig .page = .ok page
        ∧
      resolveProjection sig s = .ok projection
        ∧
      DerivedFrom sig s t slots shape
        ∧
      ¬ (shape.isPaged && page.isNone) = true
        ∧
      ⟨sig, shape, .derived t slots, projection, sort, page, s⟩ = q := by
  unfold compile
  rw [hquery]
  simp only [bind_eq_ok_iff]
  constructor
  · rintro ⟨sort, hsort, page, hpage, projection, hprojection, ⟨source, shape⟩, hderived, _, heq,
      h⟩
    cases heq
    obtain ⟨t, slots, hfrom, rfl⟩ := compileDerived_eq_ok_iff.mp hderived
    split at h
    next => contradiction
    next hpaged =>
      cases h
      exact ⟨sort, page, projection, shape, t, slots, hsort, hpage, hprojection, hfrom, hpaged, rfl⟩
  · rintro ⟨sort, page, projection, shape, t, slots, hsort, hpage, hprojection, hfrom, hpaged, rfl⟩
    refine ⟨sort, hsort, page, hpage, projection, hprojection,
      (.derived t slots, shape), compileDerived_eq_ok_iff.mpr ⟨t, slots, hfrom, rfl⟩, _, rfl, ?_⟩
    rw [if_neg hpaged]
    rfl

theorem compileExplicit_eq_ok_iff {sig : Signature} {s : EntitySchema} {query : String}
    {template : Template} {source : QuerySource} {shape : ResultShape} :
    compileExplicit sig s query = .ok (template, source, shape)
      ↔
    Template.compile sig.name query sig.fields sig.valueIndices.length = .ok template
      ∧
    resultShape sig (kindOfName sig.name.toList) = .ok shape
      ∧
    ¬ shape.isDistanceRanked = true
      ∧
    .explicit template (limitOfName sig s) = source := by
  unfold compileExplicit
  simp only [bind_eq_ok_iff]
  constructor
  · rintro ⟨_, htemplate, _, hshape, h⟩
    split at h
    next => contradiction
    next hranked =>
      cases h
      exact ⟨htemplate, hshape, hranked, rfl⟩
  · rintro ⟨htemplate, hshape, hranked, rfl⟩
    refine ⟨template, htemplate, shape, hshape, ?_⟩
    rw [if_neg hranked]
    rfl

theorem compile_eq_ok_iff_explicit {sig : Signature} {s : EntitySchema} {q : CompiledQuery}
    {text : String} (hquery : sig.query = some text) :
    compile sig s = .ok q
      ↔
    ∃ sort page projection shape template source,
      special sig .sort = .ok sort
        ∧
      special sig .page = .ok page
        ∧
      resolveProjection sig s = .ok projection
        ∧
      compileExplicit sig s text = .ok (template, source, shape)
        ∧
      ¬ (shape.isPaged && page.isNone) = true
        ∧
      ⟨sig, shape, source, template.fields.or projection, sort, page, s⟩ = q := by
  unfold compile
  rw [hquery]
  simp only [bind_eq_ok_iff]
  constructor
  · rintro ⟨sort, hsort, page, hpage, projection, hprojection, ⟨template, source, shape⟩,
      hexplicit, _, heq, h⟩
    cases heq
    split at h
    next => contradiction
    next hpaged =>
      cases h
      exact ⟨sort, page, projection, shape, template, source, hsort, hpage, hprojection, hexplicit,
        hpaged, rfl⟩
  · rintro ⟨sort, page, projection, shape, template, source, hsort, hpage, hprojection, hexplicit,
      hpaged, rfl⟩
    refine ⟨sort, hsort, page, hpage, projection, hprojection, (template, source, shape),
      hexplicit, _, rfl, ?_⟩
    rw [if_neg hpaged]
    rfl

theorem compileExplicit_eq_ok {sig : Signature} {s : EntitySchema} {query : String}
    {template : Template} {source : QuerySource} {shape : ResultShape}
    (h : compileExplicit sig s query = .ok (template, source, shape)) :
    Template.compile sig.name query sig.fields sig.valueIndices.length = .ok template
      ∧
    source = .explicit template (limitOfName sig s) := by
  obtain ⟨htemplate, -, -, hsource⟩ := compileExplicit_eq_ok_iff.mp h
  exact ⟨htemplate, hsource.symm⟩

inductive CompiledFrom (sig : Signature) (s : EntitySchema) (q : CompiledQuery) : Prop where
  | derived (t : PartTree) (slots : List (List Nat)) (noQuery : sig.query = none)
      (read : PartTree.read sig.name s = .ok t) (bind : Slots.bind sig t = .ok slots)
      (source : q.source = .derived t slots)
  | explicit (text : String) (template : Template) (query : sig.query = some text)
      (compile : Template.compile sig.name text sig.fields sig.valueIndices.length = .ok template)
      (source : q.source = .explicit template (limitOfName sig s))

theorem compile_eq_ok {sig : Signature} {s : EntitySchema} {q : CompiledQuery}
    (h : compile sig s = .ok q) : q.signature = sig ∧ q.schema = s ∧ CompiledFrom sig s q := by
  cases hquery : sig.query with
  | none =>
    obtain ⟨_, _, _, _, t, slots, -, -, -, hfrom, -, rfl⟩ := (compile_eq_ok_iff_derived hquery).mp h
    exact ⟨rfl, rfl, .derived t slots hquery hfrom.read hfrom.bind rfl⟩
  | some text =>
    obtain ⟨_, _, _, _, template, _, -, -, -, hexplicit, -, rfl⟩ :=
      (compile_eq_ok_iff_explicit hquery).mp h
    obtain ⟨htemplate, hsource⟩ := compileExplicit_eq_ok hexplicit
    exact ⟨rfl, rfl, .explicit text template hquery htemplate hsource⟩

theorem derived_of_compile_eq_ok {sig : Signature} {s : EntitySchema} {q : CompiledQuery}
    {t : PartTree} {slots : List (List Nat)} (h : compile sig s = .ok q)
    (hsource : q.source = .derived t slots) :
    PartTree.read sig.name s = .ok t ∧ Slots.bind sig t = .ok slots := by
  obtain ⟨-, -, hfrom⟩ := compile_eq_ok h
  cases hfrom with
  | derived t' slots' _ hread hslots hsource' =>
    rw [hsource, QuerySource.derived.injEq] at hsource'
    obtain ⟨rfl, rfl⟩ := hsource'
    exact ⟨hread, hslots⟩
  | explicit _ _ _ _ hsource' =>
    rw [hsource] at hsource'
    contradiction

theorem derivedFrom_of_compile_eq_ok {sig : Signature} {s : EntitySchema} {q : CompiledQuery}
    {t : PartTree} {slots : List (List Nat)} (h : compile sig s = .ok q)
    (hsource : q.source = .derived t slots) : DerivedFrom sig s t slots q.shape := by
  cases hquery : sig.query with
  | none =>
    obtain ⟨_, _, _, _, _, _, -, -, -, hfrom, -, rfl⟩ := (compile_eq_ok_iff_derived hquery).mp h
    cases hsource
    exact hfrom
  | some text =>
    obtain ⟨_, _, _, _, _, _, -, -, -, hexplicit, -, rfl⟩ :=
      (compile_eq_ok_iff_explicit hquery).mp h
    obtain ⟨-, -, -, rfl⟩ := compileExplicit_eq_ok_iff.mp hexplicit
    contradiction

theorem exists_derived_of_compile_eq_ok {sig : Signature} {s : EntitySchema} {q : CompiledQuery}
    (h : compile sig s = .ok q) (hquery : sig.query = none) :
    ∃ t slots, q.source = .derived t slots := by
  obtain ⟨-, -, hfrom⟩ := compile_eq_ok h
  cases hfrom with
  | derived t slots _ _ _ hsource => exact ⟨t, slots, hsource⟩
  | explicit _ _ hsome =>
    rw [hquery] at hsome
    contradiction

theorem isSome_of_isPaged {shape : ResultShape} {page : Option Nat}
    (h : ¬ (shape.isPaged && page.isNone) = true) (hpaged : shape.isPaged = true) :
    page.isSome = true := by
  rw [hpaged, Bool.true_and] at h
  cases page with
  | none => exact absurd rfl h
  | some i => rfl

theorem special_of_compile_eq_ok {sig : Signature} {s : EntitySchema} {q : CompiledQuery}
    (h : compile sig s = .ok q) :
    special sig .sort = .ok q.sortParameter
      ∧
    special sig .page = .ok q.pageParameter
      ∧
    (q.shape.isPaged = true → q.pageParameter.isSome = true) := by
  cases hquery : sig.query with
  | none =>
    obtain ⟨sort, page, _, shape, _, _, hsort, hpage, -, -, hpaged, rfl⟩ :=
      (compile_eq_ok_iff_derived hquery).mp h
    exact ⟨hsort, hpage, isSome_of_isPaged hpaged⟩
  | some text =>
    obtain ⟨sort, page, _, shape, _, _, hsort, hpage, -, -, hpaged, rfl⟩ :=
      (compile_eq_ok_iff_explicit hquery).mp h
    exact ⟨hsort, hpage, isSome_of_isPaged hpaged⟩

theorem exists_pageParameter {sig : Signature} {s : EntitySchema} {q : CompiledQuery}
    (h : compile sig s = .ok q) (hpaged : q.shape.isPaged = true) :
    ∃ i, q.pageParameter = some i ∧ q.signature.params[i]? = some .page := by
  obtain ⟨-, hpage, hsome⟩ := special_of_compile_eq_ok h
  obtain ⟨i, hi⟩ := Option.isSome_iff_exists.mp (hsome hpaged)
  rw [(compile_eq_ok h).1]
  exact ⟨i, hi, (special_eq_ok_iff.mp hpage i).mpr hi⟩

/-! ### Binding -/

def boundSort (q : CompiledQuery) (args : List Argument) (source : BoundSource) :
    Except QueryError (Option SortKeys) :=
  match (q.sortArgument? args).or (((q.pageArgument? args).bind (·.sort)).bind nonEmpty) with
  | some keys => some <$> resolveSort q.schema q.signature.name keys
  | none => .ok source.sort

def specified (q : CompiledQuery) (args : List Argument) (source : BoundSource)
    (sort : Option SortKeys) : Specification where
  method := q.signature.name
  shape := q.shape
  predicate := source.predicate
  filter := source.filter
  sort := sort
  page := q.pageArgument? args
  limit := source.limit
  projection := q.projection
  near := source.predicate.bind Predicate.near?

theorem bind_eq (q : CompiledQuery) (args : List Argument) (maxInSet : Nat) :
    q.bind args maxInSet = (do
      q.checkArguments args
      let source ← q.bindSource args maxInSet
      let sort ← q.boundSort args source
      if SortKeys.maxKeys < sort.elim 0 List.length then
        .error (.clauseMismatch q.signature.name (.sortLength SortKeys.maxKeys))
      else .ok (q.specified args source sort)) := by
  unfold bind boundSort
  refine bind_congr fun _ => bind_congr fun source => ?_
  cases (q.sortArgument? args).or (((q.pageArgument? args).bind (·.sort)).bind nonEmpty) with
  | none => rfl
  | some keys =>
    dsimp only
    cases resolveSort q.schema q.signature.name keys <;> rfl

theorem bind_ok_iff {q : CompiledQuery} {args : List Argument} {maxInSet : Nat}
    {spec : Specification} :
    q.bind args maxInSet = .ok spec
      ↔
    q.checkArguments args = .ok ()
      ∧
    ∃ source sort,
      q.bindSource args maxInSet = .ok source ∧ q.boundSort args source = .ok sort
        ∧ ¬ SortKeys.maxKeys < sort.elim 0 List.length ∧ q.specified args source sort = spec := by
  rw [bind_eq]
  simp only [bind_eq_ok_iff, ite_eq_ok_iff]
  constructor
  · rintro ⟨_, hcheck, source, hsource, sort, hsort, hlength, hspec⟩
    exact ⟨hcheck, source, sort, hsource, hsort, hlength, hspec⟩
  · rintro ⟨hcheck, source, sort, hsource, hsort, hlength, hspec⟩
    exact ⟨(), hcheck, source, hsource, sort, hsort, hlength, hspec⟩

/--
The keys that a call sorts by: those of its sort argument, as paths of documents, or else those of
its page, or else those of the name.
-/
inductive SortsBy (q : CompiledQuery) (args : List Argument) : SortKeys → Prop where
  | argument (given keys : SortKeys) (argument : q.sortArgument? args = some given)
      (resolved : resolveSort q.schema q.signature.name given = .ok keys) : SortsBy q args keys
  | page (p : PageRequest) (given keys : SortKeys) (noArgument : q.sortArgument? args = none)
      (page : q.pageArgument? args = some p) (sort : p.sort = some given) (nonempty : given ≠ [])
      (resolved : resolveSort q.schema q.signature.name given = .ok keys) : SortsBy q args keys
  | name (noArgument : q.sortArgument? args = none)
      (noPage : ∀ p ∈ q.pageArgument? args, ∀ given ∈ p.sort, given = []) :
      SortsBy q args ((q.partTree?.bind PartTree.sort?).getD [])

theorem nonEmpty_eq_some_iff {given keys : SortKeys} :
    nonEmpty given = some keys ↔ given = keys ∧ given ≠ [] := by
  unfold nonEmpty
  rw [Option.ite_none_left_eq_some, Option.some.injEq, List.isEmpty_iff]
  exact and_comm

theorem sort_eq_of_bindSource {q : CompiledQuery} {args : List Argument} {maxInSet : Nat}
    {source : BoundSource} (h : q.bindSource args maxInSet = .ok source) :
    source.sort = q.partTree?.bind PartTree.sort? := by
  unfold bindSource at h
  unfold partTree?
  cases hsource : q.source with
  | derived tree slots =>
    rw [hsource, bind_eq_ok_iff] at h
    obtain ⟨predicate, -, heq⟩ := h
    cases heq
    rfl
  | explicit template limit =>
    rw [hsource, bind_eq_ok_iff] at h
    obtain ⟨filter, -, heq⟩ := h
    cases heq
    rfl

theorem resolved_of_boundSort {q : CompiledQuery} {given : SortKeys} {sort : Option SortKeys}
    (h : some <$> resolveSort q.schema q.signature.name given = .ok sort) :
    resolveSort q.schema q.signature.name given = .ok (sort.getD []) := by
  cases hresolved : resolveSort q.schema q.signature.name given with
  | error e =>
    rw [hresolved] at h
    contradiction
  | ok keys =>
    rw [hresolved] at h
    cases h
    rfl

theorem sortsBy_of_boundSort {q : CompiledQuery} {args : List Argument} {maxInSet : Nat}
    {source : BoundSource} {sort : Option SortKeys}
    (hsource : q.bindSource args maxInSet = .ok source) (h : q.boundSort args source = .ok sort) :
    q.SortsBy args (sort.getD []) := by
  unfold boundSort at h
  cases hargument : q.sortArgument? args with
  | some given =>
    rw [hargument, Option.some_or] at h
    exact .argument given _ hargument (resolved_of_boundSort h)
  | none =>
    rw [hargument, Option.none_or] at h
    split at h
    next given hgiven =>
      obtain ⟨keys, hkeys, hgiven⟩ := Option.bind_eq_some_iff.mp hgiven
      obtain ⟨p, hpage, hsort⟩ := Option.bind_eq_some_iff.mp hkeys
      obtain ⟨rfl, hne⟩ := nonEmpty_eq_some_iff.mp hgiven
      exact .page p keys _ hargument hpage hsort hne (resolved_of_boundSort h)
    next hnone =>
      rw [Except.ok.injEq, sort_eq_of_bindSource hsource] at h
      rw [← h]
      apply SortsBy.name hargument
      intro p hpage given hsort
      by_contra hne
      have hgiven := nonEmpty_eq_some_iff.mpr ⟨rfl, hne⟩
      rw [Option.mem_def.mp hpage, Option.bind_some, Option.mem_def.mp hsort, Option.bind_some,
        hgiven] at hnone
      contradiction

theorem sortsBy_of_bind {q : CompiledQuery} {args : List Argument} {maxInSet : Nat}
    {spec : Specification} (h : q.bind args maxInSet = .ok spec) :
    q.SortsBy args (spec.sort.getD []) ∧ (spec.sort.getD []).length ≤ SortKeys.maxKeys := by
  obtain ⟨-, source, sort, hsource, hsort, hlength, rfl⟩ := bind_ok_iff.mp h
  refine ⟨sortsBy_of_boundSort hsource hsort, ?_⟩
  change (sort.getD []).length ≤ SortKeys.maxKeys
  cases sort with
  | none => exact Nat.zero_le _
  | some keys => exact Nat.le_of_not_lt hlength

theorem page_eq_none_of_bind {sig : Signature} {s : EntitySchema} {q : CompiledQuery}
    {args : List Argument} {maxInSet : Nat} {spec : Specification} (hpage : .page ∉ sig.params)
    (hcompile : compile sig s = .ok q) (h : q.bind args maxInSet = .ok spec) :
    spec.page = none := by
  obtain ⟨-, hspecial, -⟩ := special_of_compile_eq_ok hcompile
  have hparameter : q.pageParameter = none := by
    rw [Option.eq_none_iff_forall_ne_some]
    intro i hi
    exact hpage (List.mem_of_getElem? ((special_eq_ok_iff.mp hspecial i).mpr hi))
  obtain ⟨-, _, _, -, -, -, rfl⟩ := bind_ok_iff.mp h
  rw [specified, pageArgument?, hparameter]
  rfl

theorem shape_of_bind {q : CompiledQuery} {args : List Argument} {maxInSet : Nat}
    {spec : Specification} (h : q.bind args maxInSet = .ok spec) : spec.shape = q.shape := by
  obtain ⟨-, _, _, -, -, -, rfl⟩ := bind_ok_iff.mp h
  rfl

theorem near_of_bind {q : CompiledQuery} {args : List Argument} {maxInSet : Nat}
    {spec : Specification} (h : q.bind args maxInSet = .ok spec) :
    spec.near = spec.predicate.bind Predicate.near? := by
  obtain ⟨-, _, _, -, -, -, rfl⟩ := bind_ok_iff.mp h
  rfl

theorem bind_eq_ok {q : CompiledQuery} {args : List Argument} {maxInSet : Nat}
    {spec : Specification} (h : q.bind args maxInSet = .ok spec) :
    q.checkArguments args = .ok ()
      ∧
    ∃ source,
      q.bindSource args maxInSet = .ok source ∧ spec.predicate = source.predicate
        ∧ spec.filter = source.filter := by
  obtain ⟨hcheck, source, _, hsource, -, -, rfl⟩ := bind_ok_iff.mp h
  exact ⟨hcheck, source, hsource, rfl, rfl⟩

theorem bind_derived_eq_ok {q : CompiledQuery} {t : PartTree} {slots : List (List Nat)}
    {args : List Argument} {maxInSet : Nat} {spec : Specification}
    (hsource : q.source = .derived t slots) (h : q.bind args maxInSet = .ok spec) :
    Predicate.build t slots args maxInSet = .ok spec.predicate
      ∧
    spec.filter = spec.predicate.elim .all Predicate.toFilter := by
  obtain ⟨-, source, hbind, hpredicate, hfilter⟩ := bind_eq_ok h
  unfold bindSource at hbind
  rw [hsource, bind_eq_ok_iff] at hbind
  obtain ⟨predicate, hbuild, heq⟩ := hbind
  cases heq
  rw [hpredicate, hfilter]
  exact ⟨hbuild, rfl⟩

theorem bind_explicit_eq_ok {q : CompiledQuery} {template : Template} {limit : Option Nat}
    {args : List Argument} {maxInSet : Nat} {spec : Specification}
    (hsource : q.source = .explicit template limit) (h : q.bind args maxInSet = .ok spec) :
    template.render q.signature.name (q.valueArguments args) = .ok spec.filter := by
  obtain ⟨-, source, hbind, -, hfilter⟩ := bind_eq_ok h
  unfold bindSource at hbind
  rw [hsource, bind_eq_ok_iff] at hbind
  obtain ⟨filter, hrender, heq⟩ := hbind
  cases heq
  rw [hfilter]
  exact hrender

/--
The method compiles, and the call binds to a specification of the asked kind, which is computed.
-/
def binds (sig : Signature) (s : EntitySchema) (args : List Argument) (maxInSet : Nat)
    (holds : Specification → Bool) : Bool :=
  ((compile sig s).toOption.bind fun q => (q.bind args maxInSet).toOption).any holds

theorem exists_of_binds {sig : Signature} {s : EntitySchema} {args : List Argument} {maxInSet : Nat}
    {holds : Specification → Bool} (h : binds sig s args maxInSet holds = true) :
    ∃ q spec, compile sig s = .ok q ∧ q.bind args maxInSet = .ok spec ∧ holds spec = true := by
  unfold binds at h
  cases hcompile : compile sig s with
  | error e =>
    rw [hcompile] at h
    contradiction
  | ok q =>
    rw [hcompile] at h
    cases hbind : q.bind args maxInSet with
    | error e =>
      simp [Except.toOption, hbind] at h
    | ok spec =>
      refine ⟨q, spec, rfl, hbind, ?_⟩
      simpa [Except.toOption, hbind] using h

end CompiledQuery
end DerivedQuery
