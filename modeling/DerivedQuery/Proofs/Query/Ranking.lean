import DerivedQuery.Proofs.Query.Clauses

/-!
This module contains why a method whose results are ranked by distance has a point to rank them
around.
-/

namespace DerivedQuery

/-! ### Predicates -/

namespace Predicate

theorem isSome_nearOf?_of_check {c : Criterion} {method : String} {maxInSet : Nat}
    (hnear : c.operator = .near) (h : c.check method maxInSet = .ok ()) :
    (nearOf? c).isSome = true := by
  unfold Criterion.check at h
  rw [hnear] at h
  simp only [Operator.operand] at h
  unfold Criterion.nearShape? at h
  unfold nearOf?
  rw [hnear]
  split at h
  next hvalues => simp [hvalues]
  next hvalues => simp [hvalues]
  next => contradiction

theorem isSome_near?_of_build {t : PartTree} {slots : List (List Nat)} {args : List Argument}
    {maxInSet : Nat} {predicate : Option Predicate} {clause : Clause} (hclause : clause ∈ t.clauses)
    (hnear : clause.operator = .near) (h : build t slots args maxInSet = .ok predicate) :
    (predicate.bind near?).isSome = true := by
  obtain ⟨placed, hgroups, -, rfl, hchecks⟩ := build_eq_ok h
  rw [PartTree.clauses, ← hgroups, ← List.map_flatten, List.mem_map] at hclause
  obtain ⟨c, hc, rfl⟩ := hclause
  have hne : placed.isEmpty = false := by
    cases placed with
    | nil => simp at hc
    | cons => rfl
  rw [hne]
  simp only [Bool.false_eq_true, if_false, Option.bind_some, near?]
  rw [List.findSome?_isSome_iff]
  refine ⟨PlacedClause.criterion args c, mem_criteria_disjoin_ofGroup.mpr ⟨c, hc, rfl⟩, ?_⟩
  exact isSome_nearOf?_of_check hnear (hchecks c hc)

end Predicate

/-! ### Methods -/

namespace CompiledQuery

variable {sig : Signature} {s : EntitySchema} {q : CompiledQuery}

theorem exists_near_of_nearSlot? {clauses : List Clause} {slots : List (List Nat)}
    (h : (nearSlot? clauses slots).isSome = true) : ∃ clause ∈ clauses, clause.operator = .near := by
  induction clauses generalizing slots with
  | nil => simp [nearSlot?] at h
  | cons clause clauses ih =>
    cases slots with
    | nil => simp [nearSlot?] at h
    | cons slot slots =>
      by_cases hnear : clause.operator = .near
      · exact ⟨clause, List.mem_cons_self, hnear⟩
      · rw [nearSlot?, if_neg hnear] at h
        obtain ⟨other, hother, hnear⟩ := ih h
        exact ⟨other, List.mem_cons_of_mem clause hother, hnear⟩

theorem exists_near_of_checkRanking {t : PartTree} {slots : List (List Nat)} {shape : ResultShape}
    (hranked : shape.isDistanceRanked = true) (h : checkRanking sig t slots shape = .ok ()) :
    ∃ clause ∈ t.clauses, clause.operator = .near := by
  refine exists_near_of_nearSlot? (?_ : (nearSlot? t.clauses slots).isSome = true)
  unfold checkRanking at h
  rw [hranked] at h
  cases hslot : nearSlot? t.clauses slots with
  | some slot => rfl
  | none =>
    simp only [hslot, Option.map_none, ne_eq, reduceCtorEq, not_false_eq_true, and_self, if_true] at h
    split at h
    next => contradiction
    next => split at h <;> contradiction

theorem query_eq_none_of_ranked (h : compile sig s = .ok q)
    (hranked : q.shape.isDistanceRanked = true) : sig.query = none := by
  cases hquery : sig.query with
  | none => rfl
  | some text =>
    obtain ⟨_, _, _, _, _, _, -, -, -, hexplicit, -, rfl⟩ :=
      (compile_eq_ok_iff_explicit hquery).mp h
    obtain ⟨-, -, hunranked, -⟩ := compileExplicit_eq_ok_iff.mp hexplicit
    contradiction

theorem exists_derivedFrom_of_ranked (h : compile sig s = .ok q)
    (hranked : q.shape.isDistanceRanked = true) :
    ∃ t slots, q.source = .derived t slots ∧ DerivedFrom sig s t slots q.shape := by
  obtain ⟨_, _, _, _, t, slots, -, -, -, hfrom, -, rfl⟩ :=
    (compile_eq_ok_iff_derived (query_eq_none_of_ranked h hranked)).mp h
  exact ⟨t, slots, rfl, hfrom⟩

theorem exists_near_of_compile (h : compile sig s = .ok q)
    (hranked : q.shape.isDistanceRanked = true) :
    ∃ t slots, q.source = .derived t slots ∧ ∃ clause ∈ t.clauses, clause.operator = .near := by
  obtain ⟨t, slots, hsource, hfrom⟩ := exists_derivedFrom_of_ranked h hranked
  exact ⟨t, slots, hsource, exists_near_of_checkRanking hranked hfrom.ranking⟩

theorem isSome_near_of_bind {args : List Argument} {maxInSet : Nat} {spec : Specification}
    (hcompile : compile sig s = .ok q) (h : q.bind args maxInSet = .ok spec)
    (hranked : spec.shape.isDistanceRanked = true) : spec.near.isSome = true := by
  rw [shape_of_bind h] at hranked
  obtain ⟨t, slots, hsource, clause, hclause, hnear⟩ := exists_near_of_compile hcompile hranked
  obtain ⟨hbuild, -⟩ := bind_derived_eq_ok hsource h
  rw [near_of_bind h]
  exact Predicate.isSome_near?_of_build hclause hnear hbuild

end CompiledQuery
end DerivedQuery
