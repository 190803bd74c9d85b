import DerivedQuery.Proofs.Filter.Leaves
import DerivedQuery.Proofs.Query.Checked
import DerivedQuery.Proofs.Query.Rendering
import DerivedQuery.Proofs.Schema.Reach

/-!
This module contains that what a call of a method name asks for is well-formed: the leaves of its
filter are about paths of the schema and hold values that are fit for them, and its order is by
paths of the schema. No leaf was made up because a value was missing.
-/

namespace DerivedQuery

/-! ### Leaves -/

def Comparison.isRange : Comparison → Bool
  | .gt | .gte | .lt | .lte => true
  | .eq | .ne => false

namespace Filter

/--
The leaf is about a path of the schema. It has a valid shape, or not too many values, or a value
that can be compared as it is to be.
-/
def IsLeafOf (s : EntitySchema) (maxInSet : Nat) : Filter → Prop
  | .exists_ path _ | .pattern path _ _ => s.HasPath path
  | .in_ path values | .notIn path values => s.HasPath path ∧ values.length ≤ maxInSet
  | .compare path op v => s.HasPath path ∧ (op.isRange = true → Criterion.isOrdered v = true)
  | .geo path shape => s.HasPath path ∧ shape.validate = .ok ()
  | .all | .and _ | .or _ | .not _ => False

end Filter

namespace Predicate

mutual

theorem leaves_toFilter (p : Predicate) :
    p.toFilter.leaves = p.criteria.flatMap fun c => c.toFilter.leaves := by
  match p with
  | .leaf c => rw [toFilter, criteria, List.flatMap_singleton]
  | .and ps => rw [toFilter, criteria, Filter.leaves_conjoin, leavesOf_toFilters]
  | .or ps => rw [toFilter, criteria, Filter.leaves_disjoin, leavesOf_toFilters]

theorem leavesOf_toFilters (ps : List Predicate) :
    Filter.leavesOf (toFilters ps) = (criteriaOf ps).flatMap fun c => c.toFilter.leaves := by
  match ps with
  | [] => rfl
  | p :: ps =>
    rw [toFilters, criteriaOf, Filter.leavesOf, leaves_toFilter p, leavesOf_toFilters ps,
      List.flatMap_append]

end

end Predicate

namespace Filter

variable {s : EntitySchema} {maxInSet : Nat}

def LeavesIn (s : EntitySchema) (maxInSet : Nat) (f : Filter) : Prop :=
  ∀ leaf ∈ f.leaves, leaf.IsLeafOf s maxInSet

theorem IsLeafOf.leavesIn {f : Filter} (h : f.IsLeafOf s maxInSet) : f.LeavesIn s maxInSet := by
  cases f with
  | all | and | or | not => contradiction
  | exists_ | in_ | notIn | compare | pattern | geo =>
    intro leaf hleaf
    rw [List.mem_singleton.mp hleaf]
    exact h

theorem LeavesIn.and {f g : Filter} (hf : f.LeavesIn s maxInSet) (hg : g.LeavesIn s maxInSet) :
    (Filter.and [f, g]).LeavesIn s maxInSet := by
  intro leaf hleaf
  simp only [leaves, leavesOf, List.append_nil, List.mem_append] at hleaf
  exact hleaf.elim (hf leaf) (hg leaf)

end Filter

namespace Criterion

variable {c : Criterion} {method : String} {maxInSet : Nat} {s : EntitySchema}

theorem leavesIn_toFilter (hpath : s.HasPath c.path.dotted) (h : c.Checked maxInSet) :
    c.toFilter.LeavesIn s maxInSet := by
  have hleaf (text : String) :
      (Filter.pattern c.path.dotted text c.ignoreCase).LeavesIn s maxInSet :=
    Filter.IsLeafOf.leavesIn hpath
  have hcompare (op : Comparison) (v : Value) (hordered : op.isRange = true → isOrdered v = true) :
      (Filter.compare c.path.dotted op v).LeavesIn s maxInSet :=
    Filter.IsLeafOf.leavesIn ⟨hpath, hordered⟩
  unfold Checked at h
  unfold toFilter toFilterWith
  cases hop : c.operator with
  | equals | notEquals =>
    dsimp only
    split
    · exact hleaf _
    · exact hcompare _ _ (by simp [Comparison.isRange])
  | lessThan | lessThanEqual | greaterThan | greaterThanEqual | before | after =>
    rw [hop] at h
    obtain ⟨v, hvalue, hordered, -⟩ := h
    rw [hvalue]
    exact hcompare _ _ fun _ => hordered rfl
  | between =>
    rw [hop] at h
    obtain ⟨low, high, hlow, hhigh, horderedLow, horderedHigh⟩ := h
    rw [hlow, hhigh]
    exact (hcompare _ _ fun _ => horderedLow).and (hcompare _ _ fun _ => horderedHigh)
  | like | notLike | startingWith | endingWith | regex => exact hleaf _
  | containing | notContaining =>
    dsimp only
    split
    · exact hcompare _ _ (by simp [Comparison.isRange])
    · exact hleaf _
  | in_ | notIn =>
    rw [hop] at h
    obtain ⟨items, hvalue, hlength⟩ := h
    rw [hvalue]
    exact Filter.IsLeafOf.leavesIn ⟨hpath, hlength⟩
  | isNull | isNotNull | true_ | false_ => exact hcompare _ _ (by simp [Comparison.isRange])
  | exists_ => exact Filter.IsLeafOf.leavesIn hpath
  | near =>
    rw [hop] at h
    obtain ⟨shape, hshape, hvalid⟩ := h
    rw [hshape]
    exact Filter.IsLeafOf.leavesIn ⟨hpath, hvalid⟩
  | within =>
    rw [hop] at h
    obtain ⟨shape, hvalues, hvalid⟩ := h
    rw [hvalues]
    exact Filter.IsLeafOf.leavesIn ⟨hpath, hvalid⟩

end Criterion

/-! ### Values that stand in -/

namespace Criterion

variable {c : Criterion} {maxInSet : Nat}

theorem toFilterWith_eq (h : c.Checked maxInSet) (fallback : Fallback) :
    c.toFilterWith fallback = c.toFilter := by
  unfold Checked at h
  unfold toFilter toFilterWith
  cases hop : c.operator with
  | equals | notEquals | lessThan | lessThanEqual | greaterThan | greaterThanEqual | before | after
  | containing | notContaining =>
    rw [hop] at h
    obtain ⟨v, hvalue, -, -⟩ := h
    rw [hvalue]
    rfl
  | between =>
    rw [hop] at h
    obtain ⟨low, high, hlow, hhigh, -⟩ := h
    rw [hlow, hhigh]
    rfl
  | in_ | notIn =>
    rw [hop] at h
    obtain ⟨items, hvalue, -⟩ := h
    rw [hvalue]
    rfl
  | near =>
    rw [hop] at h
    obtain ⟨shape, hshape, -⟩ := h
    rw [hshape]
    rfl
  | within =>
    rw [hop] at h
    obtain ⟨shape, hvalues, -⟩ := h
    rw [hvalues]
  | like | notLike | startingWith | endingWith | regex | isNull | isNotNull | exists_ | true_
  | false_ => rfl

end Criterion

/-! ### Orders -/

namespace PartTree

variable {method : String} {s : EntitySchema} {t : PartTree}

theorem hasPath_of_mem_clauses (h : read method s = .ok t) {clause : Clause}
    (hclause : clause ∈ t.clauses) : s.HasPath clause.path.dotted := by
  obtain ⟨_, _, _, hread⟩ := exists_read_of_mem_clauses h hclause
  obtain ⟨_, hfound⟩ := Clause.exists_found_of_read hread
  exact PropertyPath.hasPath_of_found hfound

theorem hasPath_of_mem_orderBy (h : read method s = .ok t) {clause : OrderClause}
    (hclause : clause ∈ t.orderBy) : s.HasPath clause.path.dotted := by
  obtain ⟨p, hread⟩ := read_eq_ok_iff.mp h
  have horder := hread.orderBy
  cases hgiven : p.order with
  | none =>
    rw [hgiven, readOrder, Except.ok.injEq] at horder
    rw [← horder] at hclause
    contradiction
  | some text =>
    rw [hgiven, readOrder] at horder
    split at horder
    next => contradiction
    next =>
      obtain ⟨_, -, hclause⟩ := exists_of_mem_mapM horder hclause
      exact PropertyPath.hasPath_of_resolve (OrderClause.read_eq_ok_iff.mp hclause).2

end PartTree

/--
The field can be sorted by: it is the name of the document or a path of the schema.
-/
def EntitySchema.HasSortField (s : EntitySchema) (field : String) : Prop :=
  field = "_id" ∨ s.HasPath field

namespace CompiledQuery

variable {sig : Signature} {s : EntitySchema} {q : CompiledQuery} {t : PartTree}
  {slots : List (List Nat)} {args : List Argument} {maxInSet : Nat} {spec : Specification}

theorem hasSortField_of_resolveSort {method : String} {keys resolved : SortKeys}
    (h : resolveSort s method keys = .ok resolved) :
    ∀ key ∈ resolved, s.HasSortField key.field := by
  intro key hkey
  obtain ⟨given, -, hgiven⟩ := exists_of_mem_mapM h hkey
  split at hgiven
  next hid =>
    cases hgiven
    exact .inl hid
  next =>
    obtain ⟨path, hpath, heq⟩ := bind_eq_ok_iff.mp hgiven
    cases heq
    exact .inr (PropertyPath.hasPath_of_resolveDotted hpath)

theorem hasSortField_of_sort? {method : String} (hread : PartTree.read method s = .ok t) :
    ∀ key ∈ t.sort?.getD [], s.HasSortField key.field := by
  intro key hkey
  unfold PartTree.sort? at hkey
  split at hkey
  next => contradiction
  next =>
    obtain ⟨clause, hclause, rfl⟩ := List.mem_map.mp hkey
    exact .inr (PartTree.hasPath_of_mem_orderBy hread hclause)

theorem hasSortField_of_bind (hcompile : compile sig s = .ok q)
    (hsource : q.source = .derived t slots) (h : q.bind args maxInSet = .ok spec) {keys : SortKeys}
    (hkeys : spec.sort = some keys) :
    keys.length ≤ SortKeys.maxKeys ∧ ∀ key ∈ keys, s.HasSortField key.field := by
  obtain ⟨hsorts, hlength⟩ := sortsBy_of_bind h
  rw [hkeys, Option.getD_some] at hsorts hlength
  refine ⟨hlength, ?_⟩
  have hschema := (compile_eq_ok hcompile).2.1
  cases hsorts with
  | argument given _ _ hresolved =>
    rw [hschema] at hresolved
    exact hasSortField_of_resolveSort hresolved
  | page p given _ _ _ _ _ hresolved =>
    rw [hschema] at hresolved
    exact hasSortField_of_resolveSort hresolved
  | name =>
    rw [partTree?, hsource, Option.bind_some]
    exact hasSortField_of_sort? (derived_of_compile_eq_ok hcompile hsource).1

/-! ### Calls -/

/--
A call of a method name asks for something well-formed: leaves about paths of the schema with values
that are fit for them, an order by paths of the schema, and nothing in place of a missing value.
-/
theorem wellFormed_of_bind (hquery : sig.query = none) (hcompile : compile sig s = .ok q)
    (h : q.bind args maxInSet = .ok spec) :
    (∀ leaf ∈ spec.filter.leaves, leaf.IsLeafOf s maxInSet)
      ∧
    (∀ keys, spec.sort = some keys →
      keys.length ≤ SortKeys.maxKeys ∧ ∀ key ∈ keys, key.field = "_id" ∨ s.HasPath key.field)
      ∧
    (∀ p, spec.predicate = some p →
      spec.filter = p.toFilter
        ∧ ∀ c ∈ p.criteria, ∀ fallback, c.toFilterWith fallback = c.toFilter) := by
  obtain ⟨t, slots, hsource⟩ := exists_derived_of_compile_eq_ok hcompile hquery
  obtain ⟨hread, -⟩ := derived_of_compile_eq_ok hcompile hsource
  have hfilter := (bind_derived_eq_ok hsource h).2
  refine ⟨?leaves, fun keys => hasSortField_of_bind hcompile hsource h, ?fallback⟩
  case leaves =>
    rw [hfilter]
    cases hp : spec.predicate with
    | none => simp [Filter.leaves]
    | some p =>
      rw [Option.elim_some, Predicate.leaves_toFilter]
      intro leaf hleaf
      obtain ⟨c, hc, hleaf⟩ := List.mem_flatMap.mp hleaf
      obtain ⟨clause, hclause, hpath, -, -, -, hcheck⟩ :=
        exists_clause_of_mem_criteria hcompile hsource h hp hc
      have hschema : s.HasPath c.path.dotted :=
        hpath ▸ PartTree.hasPath_of_mem_clauses hread hclause
      exact Criterion.leavesIn_toFilter hschema (Criterion.checked_of_check hcheck) leaf hleaf
  case fallback =>
    intro p hp
    rw [hfilter, hp]
    refine ⟨rfl, ?_⟩
    intro c hc fallback
    obtain ⟨_, -, -, -, -, -, hcheck⟩ := exists_clause_of_mem_criteria hcompile hsource h hp hc
    exact Criterion.toFilterWith_eq (Criterion.checked_of_check hcheck) fallback

def shelfSchema : EntitySchema :=
  ⟨"Shelf", [⟨"at", .geoPoint⟩, ⟨"no", .scalar .number⟩]⟩

def shelfSearch : Signature where
  entity := "Shelf"
  name := "findByAtNearAndNoInOrderByNo"
  params := [.point, .sequence]

def shelfArguments : List Argument :=
  [.point ⟨0.0, 0.0⟩, .value (.array [.int32 1, .int32 2])]

theorem wellFormed_of_bind_shelf :
    ∃ q spec p keys,
      compile shelfSearch shelfSchema = .ok q
        ∧
      q.bind shelfArguments 2 = .ok spec
        ∧
      spec.filter.leaves.length = 2 ∧ (∀ leaf ∈ spec.filter.leaves, leaf.IsLeafOf shelfSchema 2)
        ∧
      spec.sort = some keys
        ∧ keys.length ≤ SortKeys.maxKeys
        ∧ (∀ key ∈ keys, key.field = "_id" ∨ shelfSchema.HasPath key.field)
        ∧
      spec.predicate = some p ∧ spec.filter = p.toFilter
        ∧ ∀ c ∈ p.criteria, ∀ fallback, c.toFilterWith fallback = c.toFilter := by
  have hbinds : binds shelfSearch shelfSchema shelfArguments 2
      (fun spec => spec.filter.leaves.length = 2 ∧ spec.sort.isSome = true
        ∧ spec.predicate.isSome = true) = true := by
    decide +kernel
  obtain ⟨q, spec, hcompile, hbind, hspec⟩ := exists_of_binds hbinds
  obtain ⟨hlength, hsort, hpredicate⟩ := of_decide_eq_true hspec
  obtain ⟨keys, hkeys⟩ := Option.isSome_iff_exists.mp hsort
  obtain ⟨p, hp⟩ := Option.isSome_iff_exists.mp hpredicate
  obtain ⟨hleaves, hfields, hfallback⟩ := wellFormed_of_bind rfl hcompile hbind
  obtain ⟨hmost, hfields⟩ := hfields keys hkeys
  exact ⟨q, spec, p, keys, hcompile, hbind, hlength, hleaves, hkeys, hmost, hfields, hp,
    hfallback p hp⟩

end CompiledQuery
end DerivedQuery
