import DerivedQuery.Proofs.Filter.Reading
import DerivedQuery.Proofs.Method.PartTree
import DerivedQuery.Proofs.Query.Compiled

/-!
This module contains that a document meets the filter of a call if it meets every clause of one of
the groups of the method name, where each clause has the arguments in its own slot.
-/

namespace DerivedQuery

abbrev PlacedClause := Clause × List Nat

def PlacedClause.criterion (args : List Argument) (c : PlacedClause) : Criterion :=
  Criterion.ofClause c.1 c.2 args

/--
The clauses of the groups with their slots. The slots are given out in the order of the name. Each
clause takes as many positions as its operator asks for, and together these are the positions of all
parameters that bind to clauses, in the order of their declaration.
-/
structure PartTree.IsPlaced (t : PartTree) (sig : Signature) (slots : List (List Nat))
    (placed : List (List PlacedClause)) : Prop where
  groups : placed.map (List.map Prod.fst) = t.groups
  slotsInOrder : placed.flatten.map Prod.snd = slots
  positions : slots.flatten = sig.valueIndices
  arity : ∀ c ∈ placed.flatten,
    c.1.operator.arity.1 ≤ c.2.length ∧ c.2.length ≤ c.1.operator.arity.2

/-! ### Slots -/

namespace Slots

theorem map_fst_numberedFrom (start : Nat) (kinds : List ParameterKind) :
    (numberedFrom start kinds).map Prod.fst = Signature.valueIndicesFrom start kinds := by
  induction kinds generalizing start with
  | nil => rfl
  | cons kind kinds ih =>
    rw [numberedFrom, Signature.valueIndicesFrom]
    split
    · rw [ih]
    · rw [List.map_cons, ih]

theorem take_eq_ok {clause : Clause} {ws : List Wanted} {given left : List Numbered}
    {taken : List Nat} (h : take clause ws given = .ok (taken, left)) :
    taken.length = ws.length ∧ given.map Prod.fst = taken ++ left.map Prod.fst := by
  induction ws generalizing given taken with
  | nil =>
    cases h
    exact ⟨rfl, rfl⟩
  | cons w ws ih =>
    cases given with
    | nil => contradiction
    | cons p given =>
      rw [take] at h
      split at h
      next =>
        rw [bind_eq_ok_iff] at h
        obtain ⟨⟨taken', left'⟩, htake, heq⟩ := h
        cases heq
        obtain ⟨hlength, hgiven⟩ := ih htake
        rw [List.length_cons, List.length_cons, hlength, List.map_cons, hgiven]
        exact ⟨rfl, rfl⟩
      next => contradiction

theorem takeDistance_eq {op : Operator} {given left : List Numbered} {more : List Nat}
    (h : takeDistance op given = (more, left)) :
    (more = [] ∨ op.operand = .point ∧ more.length = 1)
      ∧
    given.map Prod.fst = more ++ left.map Prod.fst := by
  unfold takeDistance at h
  split at h
  next i rest =>
    split at h
    next hpoint =>
      cases h
      exact ⟨.inr ⟨by simpa using hpoint, rfl⟩, rfl⟩
    next =>
      cases h
      exact ⟨.inl rfl, rfl⟩
  next =>
    cases h
    exact ⟨.inl rfl, rfl⟩

theorem arity_of_length {op : Operator} {taken more : List Nat}
    (htaken : taken.length = (wanted op).length)
    (hmore : more = [] ∨ op.operand = .point ∧ more.length = 1) :
    op.arity.1 ≤ (taken ++ more).length ∧ (taken ++ more).length ≤ op.arity.2 := by
  rw [List.length_append, htaken]
  rcases hmore with rfl | ⟨hpoint, hmore⟩
  · unfold wanted Operator.arity
    cases op.operand <;> simp
  · unfold wanted Operator.arity
    rw [hpoint, hmore]
    simp

theorem takeClause_eq_ok {clause : Clause} {given left : List Numbered} {slot : List Nat}
    (h : takeClause clause given = .ok (slot, left)) :
    (clause.operator.arity.1 ≤ slot.length ∧ slot.length ≤ clause.operator.arity.2)
      ∧
    given.map Prod.fst = slot ++ left.map Prod.fst := by
  unfold takeClause at h
  rw [bind_eq_ok_iff] at h
  obtain ⟨⟨taken, rest⟩, htake, h⟩ := h
  obtain ⟨hlength, hgiven⟩ := take_eq_ok htake
  rcases hdistance : takeDistance clause.operator rest with ⟨more, left'⟩
  dsimp only at h
  rw [hdistance] at h
  cases h
  obtain ⟨hmore, hrest⟩ := takeDistance_eq hdistance
  refine ⟨arity_of_length hlength hmore, ?_⟩
  rw [hgiven, hrest, List.append_assoc]

theorem takeAll_eq_ok {clauses : List Clause} {given left : List Numbered}
    {slots : List (List Nat)} (h : takeAll clauses given = .ok (slots, left)) :
    List.Forall₂ (fun clause slot =>
        clause.operator.arity.1 ≤ slot.length ∧ slot.length ≤ clause.operator.arity.2)
      clauses slots
      ∧
    given.map Prod.fst = slots.flatten ++ left.map Prod.fst := by
  induction clauses generalizing given slots with
  | nil =>
    cases h
    exact ⟨.nil, rfl⟩
  | cons clause clauses ih =>
    rw [takeAll, bind_eq_ok_iff] at h
    obtain ⟨⟨slot, rest⟩, hclause, h⟩ := h
    rw [bind_eq_ok_iff] at h
    obtain ⟨⟨slots', left'⟩, hclauses, heq⟩ := h
    cases heq
    obtain ⟨harity, hgiven⟩ := takeClause_eq_ok hclause
    obtain ⟨harities, hrest⟩ := ih hclauses
    refine ⟨.cons harity harities, ?_⟩
    rw [hgiven, hrest, List.flatten_cons, List.append_assoc]

theorem bind_eq_ok {sig : Signature} {t : PartTree} {slots : List (List Nat)}
    (h : bind sig t = .ok slots) :
    List.Forall₂ (fun clause slot =>
        clause.operator.arity.1 ≤ slot.length ∧ slot.length ≤ clause.operator.arity.2)
      t.clauses slots
      ∧
    slots.flatten = sig.valueIndices := by
  unfold bind at h
  split at h
  next => contradiction
  next htake =>
    cases h
    obtain ⟨harity, hgiven⟩ := takeAll_eq_ok htake
    refine ⟨harity, ?_⟩
    rw [numbered, map_fst_numberedFrom, List.map_nil, List.append_nil] at hgiven
    exact hgiven.symm
  next => contradiction

end Slots

/-! ### Predicates -/

namespace Criterion

theorem eq_of_areaShape? {args : List Argument} {s : Shape} (h : areaShape? args = some s) :
    args = [.shape s] ∧ ∀ center distance, s ≠ .near center distance := by
  unfold areaShape? at h
  split at h
  next => contradiction
  next hnear =>
    cases h
    refine ⟨rfl, ?_⟩
    intro center distance heq
    exact hnear center distance heq
  next => contradiction

end Criterion

namespace Predicate

def ofGroup (args : List Argument) (group : List PlacedClause) : Predicate :=
  conjoin (group.map fun c => .leaf (c.criterion args))

theorem buildGroup_eq_ok {method : String} {args : List Argument} {maxInSet : Nat}
    {clauses : List Clause} {slots rest : List (List Nat)} {leaves : List Predicate}
    (h : buildGroup method args maxInSet clauses slots = .ok (leaves, rest)) :
    ∃ group : List PlacedClause,
      group.map Prod.fst = clauses ∧ slots = group.map Prod.snd ++ rest
        ∧ leaves = group.map (fun c => .leaf (c.criterion args))
        ∧ ∀ c ∈ group, (c.criterion args).check method maxInSet = .ok () := by
  induction clauses generalizing slots leaves with
  | nil =>
    cases h
    exact ⟨[], rfl, rfl, rfl, by simp⟩
  | cons clause clauses ih =>
    cases slots with
    | nil => contradiction
    | cons slot slots =>
      rw [buildGroup] at h
      simp only [bind_eq_ok_iff] at h
      obtain ⟨_, hcheck, ⟨leaves', rest'⟩, hgroup, heq⟩ := h
      cases heq
      obtain ⟨group, rfl, rfl, rfl, hchecks⟩ := ih hgroup
      refine ⟨(clause, slot) :: group, rfl, rfl, rfl, ?_⟩
      intro c hc
      cases hc with
      | head => exact hcheck
      | tail _ hc => exact hchecks c hc

theorem buildGroups_eq_ok {method : String} {args : List Argument} {maxInSet : Nat}
    {groups : List (List Clause)} {slots : List (List Nat)} {predicates : List Predicate}
    (h : buildGroups method args maxInSet groups slots = .ok predicates) :
    ∃ placed : List (List PlacedClause),
      placed.map (List.map Prod.fst) = groups
        ∧ (∃ rest, slots = placed.flatten.map Prod.snd ++ rest)
        ∧ predicates = placed.map (ofGroup args)
        ∧ ∀ c ∈ placed.flatten, (c.criterion args).check method maxInSet = .ok () := by
  induction groups generalizing slots predicates with
  | nil =>
    cases h
    exact ⟨[], rfl, ⟨slots, rfl⟩, rfl, by simp⟩
  | cons group groups ih =>
    rw [buildGroups] at h
    simp only [bind_eq_ok_iff] at h
    obtain ⟨⟨leaves, rest⟩, hgroup, predicates', hgroups, heq⟩ := h
    cases heq
    obtain ⟨first, rfl, rfl, rfl, hchecks⟩ := buildGroup_eq_ok hgroup
    obtain ⟨placed, rfl, ⟨rest', hrest⟩, rfl, hothers⟩ := ih hgroups
    refine ⟨first :: placed, rfl, ⟨rest', ?_⟩, rfl, ?_⟩
    · dsimp only at hrest
      rw [hrest, List.flatten_cons, List.map_append, List.append_assoc]
    · intro c hc
      rw [List.flatten_cons, List.mem_append] at hc
      exact hc.elim (hchecks c) (hothers c)

theorem build_eq_ok {t : PartTree} {slots : List (List Nat)} {args : List Argument} {maxInSet : Nat}
    {predicate : Option Predicate} (h : build t slots args maxInSet = .ok predicate) :
    ∃ placed : List (List PlacedClause),
      placed.map (List.map Prod.fst) = t.groups
        ∧ (∃ rest, slots = placed.flatten.map Prod.snd ++ rest)
        ∧ predicate
            = (if placed.isEmpty then none else some (disjoin (placed.map (ofGroup args))))
        ∧ ∀ c ∈ placed.flatten, (c.criterion args).check t.method maxInSet = .ok () := by
  unfold build at h
  rw [bind_eq_ok_iff] at h
  obtain ⟨predicates, hgroups, heq⟩ := h
  cases heq
  obtain ⟨placed, hclauses, hslots, rfl, hchecks⟩ := buildGroups_eq_ok hgroups
  refine ⟨placed, hclauses, hslots, ?_, hchecks⟩
  cases placed <;> rfl

/-! ### Criteria -/

theorem criteriaOf_eq_flatMap (ps : List Predicate) : criteriaOf ps = ps.flatMap criteria := by
  induction ps with
  | nil => rfl
  | cons p ps ih => rw [criteriaOf, List.flatMap_cons, ih]

theorem criteria_conjoin (ps : List Predicate) : (conjoin ps).criteria = ps.flatMap criteria := by
  unfold conjoin
  split
  · rw [List.flatMap_singleton]
  · rw [criteria, criteriaOf_eq_flatMap]

theorem criteria_disjoin (ps : List Predicate) : (disjoin ps).criteria = ps.flatMap criteria := by
  unfold disjoin
  split
  · rw [List.flatMap_singleton]
  · rw [criteria, criteriaOf_eq_flatMap]

theorem criteria_ofGroup (args : List Argument) (group : List PlacedClause) :
    (ofGroup args group).criteria = group.map (PlacedClause.criterion args) := by
  rw [ofGroup, criteria_conjoin, List.flatMap_map]
  exact List.map_eq_flatMap.symm

theorem criteria_disjoin_ofGroup (args : List Argument) (placed : List (List PlacedClause)) :
    (disjoin (placed.map (ofGroup args))).criteria
      =
    placed.flatten.map (PlacedClause.criterion args) := by
  rw [criteria_disjoin, List.flatMap_map, List.map_flatten, ← List.flatMap_def]
  exact congrArg (placed.flatMap ·) (funext (criteria_ofGroup args))

theorem mem_criteria_disjoin_ofGroup {args : List Argument} {placed : List (List PlacedClause)}
    {c : Criterion} :
    c ∈ (disjoin (placed.map (ofGroup args))).criteria
      ↔
    ∃ clause ∈ placed.flatten, clause.criterion args = c := by
  rw [criteria_disjoin_ofGroup, List.mem_map]

/-! ### Evaluation -/

theorem toFilters_eq_map (ps : List Predicate) : toFilters ps = ps.map toFilter := by
  induction ps with
  | nil => rfl
  | cons p ps ih => rw [toFilters, List.map_cons, ih]

theorem evalAll_map_toFilter (d : Document) (ps : List Predicate) :
    Filter.evalAll d (ps.map toFilter) = true ↔ ∀ p ∈ ps, p.toFilter.eval d = true := by
  induction ps with
  | nil => simp [Filter.evalAll]
  | cons p ps ih => simp [Filter.evalAll, ih]

theorem evalAny_map_toFilter (d : Document) (ps : List Predicate) :
    Filter.evalAny d (ps.map toFilter) = true ↔ ∃ p ∈ ps, p.toFilter.eval d = true := by
  induction ps with
  | nil => simp [Filter.evalAny]
  | cons p ps ih => simp [Filter.evalAny, ih]

theorem eval_toFilter_conjoin (d : Document) (ps : List Predicate) :
    (conjoin ps).toFilter.eval d = true ↔ ∀ p ∈ ps, p.toFilter.eval d = true := by
  unfold conjoin
  split
  · simp
  · rw [toFilter, Filter.eval_conjoin, toFilters_eq_map, evalAll_map_toFilter]

theorem eval_toFilter_disjoin (d : Document) {ps : List Predicate} (hne : ps ≠ []) :
    (disjoin ps).toFilter.eval d = true ↔ ∃ p ∈ ps, p.toFilter.eval d = true := by
  unfold disjoin
  split
  · simp
  next hmany =>
    rw [toFilter, toFilters_eq_map, ← evalAny_map_toFilter]
    match ps with
    | [] => contradiction
    | [p] => exact absurd rfl (hmany p)
    | p :: q :: ps =>
      change (Filter.or ((p :: q :: ps).map toFilter)).eval d = true ↔ _
      rw [Filter.eval]

theorem eval_ofGroup (d : Document) (args : List Argument) (group : List PlacedClause) :
    (ofGroup args group).toFilter.eval d = true
      ↔
    ∀ c ∈ group, (c.criterion args).toFilter.eval d = true := by
  rw [ofGroup, eval_toFilter_conjoin, List.forall_mem_map]
  rfl

end Predicate

namespace CompiledQuery

variable {sig : Signature} {s : EntitySchema} {q : CompiledQuery} {t : PartTree}
  {slots : List (List Nat)} {args : List Argument} {maxInSet : Nat} {spec : Specification}

theorem isPlaced_of_bind {placed : List (List PlacedClause)} (hbind : Slots.bind sig t = .ok slots)
    (hgroups : placed.map (List.map Prod.fst) = t.groups)
    (hslots : ∃ rest, slots = placed.flatten.map Prod.snd ++ rest) :
    t.IsPlaced sig slots placed := by
  obtain ⟨harity, hpositions⟩ := Slots.bind_eq_ok hbind
  have hclauses : t.clauses = placed.flatten.map Prod.fst := by
    rw [PartTree.clauses, ← hgroups, List.map_flatten]
  obtain ⟨rest, hrest⟩ := hslots
  -- there are as many slots as clauses, so none is left over
  have hnil : rest = [] := by
    have hlength := harity.length_eq
    rw [hclauses, hrest, List.length_append, List.length_map, List.length_map] at hlength
    exact List.eq_nil_of_length_eq_zero (by omega)
  rw [hnil, List.append_nil] at hrest
  rw [hclauses, hrest, List.forall₂_map_left_iff, List.forall₂_map_right_iff,
    List.forall₂_same] at harity
  exact ⟨hgroups, hrest.symm, hpositions, harity⟩

/--
A document meets the filter of a call if the name has no clauses, or if all clauses of one of its
groups hold. A clause holds if its own filter does, with the arguments in its own slot.
-/
theorem eval_filter_bind_iff (hcompile : compile sig s = .ok q)
    (hsource : q.source = .derived t slots) (hbind : q.bind args maxInSet = .ok spec) :
    ∃ placed,
      t.IsPlaced sig slots placed
        ∧
      ∀ d, spec.filter.eval d = true
        ↔ t.clauses = []
          ∨ ∃ group ∈ placed, ∀ c ∈ group,
              (Criterion.ofClause c.1 c.2 args).toFilter.eval d = true := by
  obtain ⟨hread, hslots⟩ := derived_of_compile_eq_ok hcompile hsource
  obtain ⟨hbuild, hfilter⟩ := bind_derived_eq_ok hsource hbind
  obtain ⟨placed, hgroups, hgiven, hpredicate, -⟩ := Predicate.build_eq_ok hbuild
  refine ⟨placed, isPlaced_of_bind hslots hgroups hgiven, ?_⟩
  intro d
  rw [hfilter, hpredicate, PartTree.clauses, ← hgroups]
  cases placed with
  | nil => simp [Filter.eval]
  | cons group placed =>
    rw [List.isEmpty_cons, if_neg (by simp), Option.elim_some,
      Predicate.eval_toFilter_disjoin d (by simp)]
    simp only [List.mem_map, exists_exists_and_eq_and, Predicate.eval_ofGroup]
    constructor
    · intro h
      exact .inr h
    · rintro (hnone | h)
      · -- groups without any clause hold as well
        refine ⟨group, List.mem_cons_self, ?_⟩
        intro c hc
        simp only [List.map_cons, List.flatten_cons, List.append_eq_nil_iff, List.map_eq_nil_iff]
          at hnone
        rw [hnone.1] at hc
        contradiction
      · exact h

def personSignature : Signature where
  entity := "Person"
  name := "findByLastnameOrAgeBetweenAndActiveTrue"
  params := [.value, .value, .value]

def personArguments : List Argument :=
  [.value (.string "Matthews"), .value (.int32 20), .value (.int64 40)]

theorem eval_filter_bind_iff_person :
    ∃ q t slots spec,
      compile personSignature PartTree.person = .ok q
        ∧
      q.source = .derived t slots
        ∧
      q.bind personArguments 1000 = .ok spec
        ∧
      ∃ placed,
        t.IsPlaced personSignature slots placed
          ∧
        ∀ d, spec.filter.eval d = true
          ↔ t.clauses = []
            ∨ ∃ group ∈ placed, ∀ c ∈ group,
                (Criterion.ofClause c.1 c.2 personArguments).toFilter.eval d = true := by
  have hbinds : binds personSignature PartTree.person personArguments 1000 (fun _ => true)
      = true := by
    decide +kernel
  obtain ⟨q, spec, hcompile, hbind, -⟩ := exists_of_binds hbinds
  obtain ⟨t, slots, hsource⟩ := exists_derived_of_compile_eq_ok hcompile rfl
  exact ⟨q, t, slots, spec, hcompile, hsource, hbind, eval_filter_bind_iff hcompile hsource hbind⟩

end CompiledQuery
end DerivedQuery
