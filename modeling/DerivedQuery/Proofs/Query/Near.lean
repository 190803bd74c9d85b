import DerivedQuery.Proofs.Query.Paging
import DerivedQuery.Proofs.Query.Ranking

/-!
This module contains that a method whose results are ranked by distance searches near a point: its
filter has one such clause, which every match meets, and the clause has a greatest distance.
-/

namespace DerivedQuery

/-! ### Filters -/

namespace Filter

theorem nearClauseIn?_eq_findSome? (fs : List Filter) :
    nearClauseIn? fs = fs.findSome? nearClause? := by
  induction fs with
  | nil => rfl
  | cons f fs ih =>
    rw [nearClauseIn?, ih, List.findSome?_cons]
    cases f.nearClause? <;> rfl

theorem nearClause?_conjoin (fs : List Filter) :
    (conjoin fs).nearClause? = fs.findSome? nearClause? := by
  unfold conjoin
  split
  next => rfl
  next f =>
    rw [List.findSome?_cons, List.findSome?_nil]
    cases f.nearClause? <;> rfl
  next => rw [nearClause?, nearClauseIn?_eq_findSome?]

end Filter

/-! ### Criteria -/

namespace Criterion

variable {c : Criterion} {method : String} {maxInSet : Nat}

theorem nearClause?_of_within (hwithin : c.operator = .within)
    (h : c.check method maxInSet = .ok ()) : c.toFilter.nearClause? = none := by
  unfold check at h
  rw [hwithin] at h
  simp only [Operator.operand] at h
  unfold toFilter toFilterWith
  rw [hwithin]
  unfold areaShape? at h
  split at h
  next => contradiction
  next shape hnear hvalues =>
    dsimp only
    rw [hvalues]
    cases shape with
    | near center limit => exact absurd rfl (hnear center limit)
    | _ => rfl
  next => contradiction

theorem nearClause?_of_ne (hnear : c.operator ≠ .near) (h : c.check method maxInSet = .ok ()) :
    c.toFilter.nearClause? = none := by
  cases hoperator : c.operator with
  | near => contradiction
  | within => exact nearClause?_of_within hoperator h
  | equals | notEquals =>
    unfold toFilter toFilterWith
    rw [hoperator]
    dsimp only
    split <;> rfl
  | containing | notContaining =>
    unfold toFilter toFilterWith
    rw [hoperator]
    dsimp only
    split <;> rfl
  | _ =>
    unfold toFilter toFilterWith
    rw [hoperator]
    rfl

theorem exists_nearShape?_of_check (hnear : c.operator = .near)
    (h : c.check method maxInSet = .ok ()) : ∃ shape, nearShape? c.values = some shape := by
  unfold check at h
  rw [hnear] at h
  simp only [Operator.operand] at h
  cases hshape : nearShape? c.values with
  | none =>
    rw [hshape] at h
    contradiction
  | some shape => exact ⟨shape, rfl⟩

theorem near_of_length_values (hnear : c.operator = .near) (hlength : c.values.length = 2)
    (h : c.check method maxInSet = .ok ()) :
    ∃ center limit,
      Predicate.nearOf? c = some ⟨c.path.dotted, center, some limit⟩
        ∧
      c.toFilter = .geo c.path.dotted (.near center (some limit)) := by
  obtain ⟨shape, hshape⟩ := exists_nearShape?_of_check hnear h
  unfold nearShape? at hshape
  split at hshape
  next hvalues => simp [hvalues] at hlength
  next center limit hvalues =>
    refine ⟨center, limit, ?_, ?_⟩
    · unfold Predicate.nearOf?
      rw [hnear, hvalues]
    · unfold toFilter toFilterWith
      rw [hnear, hvalues]
      rfl
  next => contradiction

end Criterion

/-! ### Predicates -/

namespace Predicate

theorem nearOf?_of_ne {c : Criterion} (hnear : c.operator ≠ .near) : nearOf? c = none := by
  unfold nearOf?
  split
  next hoperator _ => contradiction
  next => rfl

theorem toFilter_conjoin (ps : List Predicate) :
    (conjoin ps).toFilter = Filter.conjoin (ps.map toFilter) := by
  unfold conjoin
  split
  · rfl
  · rw [toFilter, toFilters_eq_map]

theorem toFilter_ofGroup (args : List Argument) (group : List PlacedClause) :
    (ofGroup args group).toFilter
      =
    Filter.conjoin (group.map fun c => (c.criterion args).toFilter) := by
  rw [ofGroup, toFilter_conjoin, List.map_map]
  rfl

end Predicate

namespace PlacedClause

def isNear (c : PlacedClause) : Bool :=
  c.1.operator == .near

/--
What only the clauses near a point can have is had by the first of them, if at all.
-/
theorem findSome?_of_isNear {β : Type} {f : PlacedClause → Option β} {group : List PlacedClause}
    {c : PlacedClause} (hne : ∀ c ∈ group, c.isNear = false → f c = none)
    (hfirst : group.find? isNear = some c) (hsome : (f c).isSome = true) :
    group.findSome? f = f c := by
  induction group with
  | nil => contradiction
  | cons c' group ih =>
    rw [List.forall_mem_cons] at hne
    rw [List.find?_cons] at hfirst
    rw [List.findSome?_cons]
    split at hfirst
    next =>
      cases hfirst
      obtain ⟨b, hb⟩ := Option.isSome_iff_exists.mp hsome
      rw [hb]
    next hnear =>
      rw [hne.1 hnear]
      exact ih hne.2 hfirst

end PlacedClause

/-! ### Calls -/

/--
The filter searches near the point as far as the distance: the search comes first among its searches
near a point, and every match has a point there.
-/
structure NearQuery.Searches (near : NearQuery) (limit : Distance) (filter : Filter) : Prop where
  maxDistance : near.maxDistance = some limit
  nearClause : filter.nearClause? = some (near.path, near.center, some limit)
  within : ∀ d, filter.eval d = true →
    ∃ p ∈ d.points near.path, Distance.between near.center p limit.metric ≤ limit.value

namespace CompiledQuery

variable {sig : Signature} {s : EntitySchema} {q : CompiledQuery} {args : List Argument}
  {maxInSet : Nat} {spec : Specification}

theorem nearSlot?_eq (placed : List PlacedClause) :
    nearSlot? (placed.map Prod.fst) (placed.map Prod.snd)
      =
    (placed.find? PlacedClause.isNear).map Prod.snd := by
  induction placed with
  | nil => rfl
  | cons c placed ih =>
    rw [List.map_cons, List.map_cons, nearSlot?, List.find?_cons, ih]
    unfold PlacedClause.isNear
    by_cases hnear : c.1.operator = .near
    · rw [if_pos hnear, beq_iff_eq.mpr hnear, Option.map_some]
    · rw [if_neg hnear, beq_eq_false_iff_ne.mpr hnear]

theorem length_groups_of_checkRanking {t : PartTree} {slots : List (List Nat)} {shape : ResultShape}
    (hranked : shape.isDistanceRanked = true) (h : checkRanking sig t slots shape = .ok ()) :
    t.groups.length ≤ 1 ∧ ∃ slot, nearSlot? t.clauses slots = some slot ∧ slot.length = 2 := by
  obtain ⟨clause, hclause, hnear⟩ := exists_near_of_checkRanking hranked h
  have hpos : (t.clauses.filter fun clause => clause.operator == .near).length ≠ 0 := by
    rw [← Nat.pos_iff_ne_zero, List.length_pos_iff_exists_mem]
    exact ⟨clause, List.mem_filter.mpr ⟨hclause, by simp [hnear]⟩⟩
  unfold checkRanking at h
  dsimp only at h
  split_ifs at h with _ hgroups hdistance
  constructor
  · by_contra hlt
    exact hgroups ⟨hpos, by omega⟩
  · simpa [hranked, Option.map_eq_some_iff] using hdistance

theorem length_values {clause : Clause} {slot : List Nat} (haccepts : q.accepts args = true)
    (h : ∀ i ∈ slot, i ∈ q.signature.valueIndices) :
    (Criterion.ofClause clause slot args).values.length = slot.length := by
  unfold Criterion.ofClause
  rw [List.length_filterMap_eq_countP, List.countP_eq_length]
  intro i hi
  obtain ⟨j, kind, hj, hkind, -⟩ := Signature.exists_of_mem_valueIndicesFrom (h i hi)
  rw [Nat.zero_add] at hj
  obtain ⟨arg, harg, -⟩ := exists_of_fitsAll haccepts (hj ▸ hkind)
  rw [harg]
  rfl

theorem exists_group_of_bind (hcompile : compile sig s = .ok q) (h : q.bind args maxInSet = .ok spec)
    (hranked : q.shape.isDistanceRanked = true) :
    ∃ (method : String) (group : List PlacedClause) (c : PlacedClause),
      spec.predicate = some (Predicate.ofGroup args group)
        ∧
      (∀ c ∈ group, (c.criterion args).check method maxInSet = .ok ())
        ∧
      group.find? PlacedClause.isNear = some c
        ∧
      (c.criterion args).values.length = 2 := by
  obtain ⟨t, slots, hsource, hfrom⟩ := exists_derivedFrom_of_ranked hcompile hranked
  obtain ⟨hgroups, slot, hslot, hlength⟩ := length_groups_of_checkRanking hranked hfrom.ranking
  obtain ⟨placed, hplaced, hgiven, hpredicate, hchecks⟩ :=
    Predicate.build_eq_ok (bind_derived_eq_ok hsource h).1
  obtain ⟨-, rfl, hpositions, -⟩ := isPlaced_of_bind hfrom.bind hplaced hgiven
  rw [PartTree.clauses, ← hplaced, ← List.map_flatten, nearSlot?_eq,
    Option.map_eq_some_iff] at hslot
  obtain ⟨c, hfirst, rfl⟩ := hslot
  obtain ⟨group, rfl⟩ : ∃ group, placed = [group] := by
    rw [← hplaced, List.length_map] at hgroups
    cases placed with
    | nil => contradiction
    | cons group placed =>
      have hnil : placed = [] := List.eq_nil_of_length_eq_zero (by simpa using hgroups)
      rw [hnil]
      exact ⟨group, rfl⟩
  rw [List.flatten_singleton] at hfirst hchecks hpositions
  refine ⟨t.method, group, c, hpredicate, hchecks, hfirst, ?_⟩
  obtain ⟨hcheck, -⟩ := bind_ok_iff.mp h
  rw [checkArguments_eq_ok_iff] at hcheck
  rw [← hlength]
  apply length_values hcheck
  intro i hi
  rw [(compile_eq_ok hcompile).1, ← hpositions]
  exact List.mem_flatten_of_mem (List.mem_map_of_mem (List.mem_of_find?_eq_some hfirst)) hi

theorem exists_searches_of_bind (hcompile : compile sig s = .ok q)
    (h : q.bind args maxInSet = .ok spec) (hranked : q.shape.isDistanceRanked = true) :
    ∃ near limit, spec.near = some near ∧ near.Searches limit spec.filter := by
  obtain ⟨method, group, c, hpredicate, hchecks, hfirst, hvalues⟩ :=
    exists_group_of_bind hcompile h hranked
  have hmem := List.mem_of_find?_eq_some hfirst
  have hisNear : c.isNear = true := List.find?_some hfirst
  have hnear : (c.criterion args).operator = .near := beq_iff_eq.mp hisNear
  obtain ⟨center, limit, hnearOf, hto⟩ :=
    Criterion.near_of_length_values hnear hvalues (hchecks c hmem)
  have hfilter : spec.filter = (Predicate.ofGroup args group).toFilter := by
    obtain ⟨t, slots, hsource, -⟩ := exists_derivedFrom_of_ranked hcompile hranked
    rw [(bind_derived_eq_ok hsource h).2, hpredicate, Option.elim_some]
  refine ⟨⟨c.1.path.dotted, center, some limit⟩, limit, ?near, rfl, ?nearClause, ?within⟩
  case near =>
    rw [near_of_bind h, hpredicate, Option.bind_some, Predicate.near?, Predicate.criteria_ofGroup,
      List.findSome?_map]
    refine (PlacedClause.findSome?_of_isNear ?_ hfirst ?_).trans hnearOf
    · intro other _ hother
      exact Predicate.nearOf?_of_ne (ne_of_beq_false hother)
    · exact Option.isSome_of_eq_some hnearOf
  case nearClause =>
    have hclause : (c.criterion args).toFilter.nearClause?
        = some (c.1.path.dotted, center, some limit) := by
      rw [hto]
      rfl
    rw [hfilter, Predicate.toFilter_ofGroup, Filter.nearClause?_conjoin, List.findSome?_map]
    refine (PlacedClause.findSome?_of_isNear ?_ hfirst ?_).trans hclause
    · intro other hmem hother
      exact Criterion.nearClause?_of_ne (ne_of_beq_false hother) (hchecks other hmem)
    · exact Option.isSome_of_eq_some hclause
  case within =>
    intro d hd
    rw [hfilter, Predicate.eval_ofGroup] at hd
    have hclause := hd c hmem
    rw [hto, Filter.eval, List.any_eq_true] at hclause
    obtain ⟨p, hp, hcontains⟩ := hclause
    exact ⟨p, hp, of_decide_eq_true hcontains⟩

end CompiledQuery
end DerivedQuery
