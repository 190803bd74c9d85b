import DerivedQuery.Proofs.Query.Near
import DerivedQuery.Proofs.Store.Pages

/-!
This module contains that a bound call has what the shape of its result needs: a page if the result
is one, and a point with a greatest distance if the results are ranked. What executions do without
them is never reached. The search by which results are ranked is the one by which the filter
selects.
-/

namespace DerivedQuery

/-! ### The search of the predicate and of the filter -/

def NearQuery.clause (near : NearQuery) : String × Point × Option Distance :=
  (near.path, near.center, near.maxDistance)

namespace Criterion

variable {c : Criterion} {method : String} {maxInSet : Nat}

theorem nearOf?_eq_nearClause? (h : c.check method maxInSet = .ok ()) :
    (Predicate.nearOf? c).map NearQuery.clause = c.toFilter.nearClause? := by
  by_cases hnear : c.operator = .near
  · obtain ⟨shape, hshape⟩ := exists_nearShape?_of_check hnear h
    unfold Predicate.nearOf? toFilter toFilterWith
    unfold nearShape? at hshape
    split at hshape
    next center hvalues =>
      rw [hnear, hvalues]
      rfl
    next center limit hvalues =>
      rw [hnear, hvalues]
      rfl
    next => contradiction
  · rw [Predicate.nearOf?_of_ne hnear, nearClause?_of_ne hnear h]
    rfl

end Criterion

namespace Predicate

variable {args : List Argument} {method : String} {maxInSet : Nat}

theorem near?_ofGroup_eq_nearClause? {group : List PlacedClause}
    (h : ∀ c ∈ group, (c.criterion args).check method maxInSet = .ok ()) :
    (ofGroup args group).near?.map NearQuery.clause
      =
    (ofGroup args group).toFilter.nearClause? := by
  rw [near?, criteria_ofGroup, toFilter_ofGroup, Filter.nearClause?_conjoin, List.findSome?_map,
    List.findSome?_map]
  induction group with
  | nil => rfl
  | cons c group ih =>
    rw [List.forall_mem_cons] at h
    rw [List.findSome?_cons, List.findSome?_cons, Function.comp_apply, Function.comp_apply,
      ← Criterion.nearOf?_eq_nearClause? h.1]
    cases nearOf? (c.criterion args) with
    | none => exact ih h.2
    | some near => rfl

theorem near?_eq_none {placed : List (List PlacedClause)}
    (h : ∀ c ∈ placed.flatten, c.isNear = false) :
    (disjoin (placed.map (ofGroup args))).near? = none := by
  rw [near?, List.findSome?_eq_none_iff]
  intro c hc
  obtain ⟨clause, hclause, rfl⟩ := mem_criteria_disjoin_ofGroup.mp hc
  exact nearOf?_of_ne (ne_of_beq_false (h clause hclause))

theorem nearClause?_disjoin_eq_none {ps : List Predicate} (h : 1 < ps.length) :
    (disjoin ps).toFilter.nearClause? = none := by
  match ps with
  | [] => contradiction
  | [p] => exact absurd h (Nat.lt_irrefl 1)
  | p :: p' :: ps => rfl

end Predicate

namespace CompiledQuery

variable {sig : Signature} {s : EntitySchema} {q : CompiledQuery} {t : PartTree}
  {slots : List (List Nat)} {args : List Argument} {maxInSet : Nat} {spec : Specification}

theorem isNear_eq_false_of_checkRanking {shape : ResultShape}
    (h : checkRanking sig t slots shape = .ok ()) (hgroups : 1 < t.groups.length) :
    ∀ clause ∈ t.clauses, clause.operator ≠ .near := by
  intro clause hclause hnear
  have hmem : clause ∈ t.clauses.filter fun clause => clause.operator == .near :=
    List.mem_filter.mpr ⟨hclause, beq_iff_eq.mpr hnear⟩
  unfold checkRanking at h
  dsimp only at h
  split_ifs at h with _ halternatives
  exact halternatives ⟨(List.length_pos_of_mem hmem).ne', hgroups⟩

theorem near_eq_nearClause? (hcompile : compile sig s = .ok q)
    (hsource : q.source = .derived t slots) (h : q.bind args maxInSet = .ok spec) :
    spec.near.map NearQuery.clause = spec.filter.nearClause? := by
  obtain ⟨hbuild, hfilter⟩ := bind_derived_eq_ok hsource h
  obtain ⟨placed, hgroups, -, hpredicate, hchecks⟩ := Predicate.build_eq_ok hbuild
  rw [near_of_bind h, hfilter, hpredicate]
  match placed with
  | [] => rfl
  | [group] =>
    rw [List.flatten_singleton] at hchecks
    exact Predicate.near?_ofGroup_eq_nearClause? hchecks
  | group :: group' :: placed =>
    have hmany : 1 < t.groups.length := by
      rw [← hgroups, List.length_map, List.length_cons, List.length_cons]
      omega
    have hfar := isNear_eq_false_of_checkRanking
      (derivedFrom_of_compile_eq_ok hcompile hsource).ranking hmany
    rw [List.isEmpty_cons, if_neg (by simp), Option.bind_some, Option.elim_some,
      Predicate.nearClause?_disjoin_eq_none (by simp), Predicate.near?_eq_none]
    · rfl
    · intro c hc
      apply beq_eq_false_iff_ne.mpr
      apply hfar
      rw [PartTree.clauses, ← hgroups, ← List.map_flatten]
      exact List.mem_map_of_mem hc

/-! ### Limits -/

theorem limit_pos_of_limitOfName : ∀ n ∈ limitOfName sig s, 0 < n := by
  unfold limitOfName
  split
  next t hread => exact PartTree.limit_pos_of_read hread
  next => simp

theorem limit_pos_of_bind (hcompile : compile sig s = .ok q) (h : q.bind args maxInSet = .ok spec) :
    ∀ n ∈ spec.limit, 0 < n := by
  obtain ⟨-, source, _, hbound, -, -, rfl⟩ := bind_ok_iff.mp h
  obtain ⟨-, -, hfrom⟩ := compile_eq_ok hcompile
  unfold bindSource at hbound
  cases hfrom with
  | derived t slots _ hread _ hsource =>
    rw [hsource, bind_eq_ok_iff] at hbound
    obtain ⟨predicate, -, heq⟩ := hbound
    cases heq
    exact PartTree.limit_pos_of_read hread
  | explicit text template _ _ hsource =>
    rw [hsource, bind_eq_ok_iff] at hbound
    obtain ⟨filter, -, heq⟩ := hbound
    cases heq
    exact limit_pos_of_limitOfName

end CompiledQuery

theorem Specification.pageSize_pos {spec : Specification} (h : ∀ n ∈ spec.limit, 0 < n)
    (p : PageRequest) : 0 < spec.pageSize p := by
  unfold pageSize
  split
  next => exact p.size_pos
  next limit hlimit => exact Nat.lt_min.mpr ⟨h limit hlimit, p.size_pos⟩

/-! ### Failures of executions -/

/--
The store failed, or a document of it is no entity. Errors of declarations and calls are of other
kinds.
-/
def QueryError.IsOfExecution : QueryError → Prop
  | .execution .. | .notAnEntity => True
  | _ => False

namespace Store

theorem stepRaises_fail {α : Type} (cause : String) :
    StepRaises QueryError.IsOfExecution (fail cause : StoreAction QueryError α) := by
  intro s e s' h
  cases h
  trivial

theorem stepRaises_reporting {α : Type} (action : StoreAction String α) :
    StepRaises QueryError.IsOfExecution (reporting action) := by
  intro s e s' h
  unfold reporting at h
  split at h
  next => contradiction
  next cause s₁ _ => exact stepRaises_fail cause s₁ e s' h

end Store

namespace Execution

variable {γ : Type} (read : EntityReader γ) (spec : Specification) (options : FindOptions)
  (settings : Settings)

theorem stepRaises_handBack (documents : List Document) (failure : Option String) :
    StepRaises QueryError.IsOfExecution (handBack read documents failure) := by
  unfold handBack
  split
  · exact stepRaises_throw trivial
  · exact stepRaises_pure _
  · exact Store.stepRaises_fail _

theorem stepRaises_collect (filter : Filter) :
    StepRaises QueryError.IsOfExecution (collect read filter options) := by
  intro s e s' h
  by_cases hcall : ∃ cause, s.collection.failure = some (.call cause)
  · obtain ⟨cause, hcause⟩ := hcall
    rw [collect_of_call hcause] at h
    cases h
    trivial
  · rw [collect_of_not_call (not_exists.mp hcall)] at h
    exact stepRaises_handBack read _ _ _ e s' h

theorem stepRaises_total : StepRaises QueryError.IsOfExecution (total spec) :=
  (Store.stepRaises_reporting _).bind fun _ => stepRaises_pure _

theorem stepRaises_one : StepRaises QueryError.IsOfExecution (one read spec options) := by
  refine (Store.stepRaises_reporting _).bind fun found => ?_
  split
  · exact stepRaises_pure _
  · split
    · exact stepRaises_pure _
    · exact stepRaises_throw trivial

theorem stepRaises_existsAny : StepRaises QueryError.IsOfExecution (existsAny spec) :=
  (Store.stepRaises_reporting _).bind fun _ => stepRaises_pure _

variable {spec}

theorem stepRaises_ranked (hnear : spec.near.isSome = true) :
    StepRaises QueryError.IsOfExecution (ranked read spec options) := by
  obtain ⟨near, hnear⟩ := Option.isSome_iff_exists.mp hnear
  rw [ranked_eq_collect hnear]
  exact (stepRaises_collect _ options spec.filter).bind fun _ => stepRaises_pure _

theorem stepRaises_outcome
    (hnear : spec.shape.isDistanceRanked = true → spec.near.isSome = true) :
    StepRaises QueryError.IsOfExecution (outcome read spec options) := by
  have hcollect := stepRaises_collect read options spec.filter
  have htotal := stepRaises_total spec
  unfold outcome
  cases hshape : spec.shape with
  | list => exact hcollect.bind fun _ => stepRaises_pure _
  | one => exact (stepRaises_one read spec options).bind fun _ => stepRaises_pure _
  | count => exact htotal.bind fun _ => stepRaises_pure _
  | exists_ => exact (stepRaises_existsAny spec).bind fun _ => stepRaises_pure _
  | page => exact hcollect.bind fun _ => htotal.bind fun _ => stepRaises_pure _
  | geoResults =>
    rw [hshape] at hnear
    exact (stepRaises_ranked read options (hnear rfl)).bind fun _ => stepRaises_pure _
  | geoPage =>
    rw [hshape] at hnear
    exact (stepRaises_ranked read options (hnear rfl)).bind fun _ =>
      htotal.bind fun _ => stepRaises_pure _

theorem stepRaises_run (hnear : spec.shape.isDistanceRanked = true → spec.near.isSome = true) :
    StepRaises QueryError.IsOfExecution (run settings read spec) := by
  refine (stepRaises_outcome read _ hnear).bind fun _ => ?_
  refine StepRaises.bind ?_ fun _ => stepRaises_pure _
  intro s e s' h
  cases h

theorem stepRaises_stream (spec : Specification) :
    StepRaises QueryError.IsOfExecution (stream settings spec) := by
  refine (Store.stepRaises_reporting _).bind fun _ => ?_
  refine StepRaises.bind ?_ fun _ => ?_
  · intro s e s' h
    cases h
  · intro s e s' h
    cases h

/-! ### Pages of executions -/

theorem isPaged_of_pageInfo? {result : Outcome γ} {store store' : Store} {info : PageInfo}
    (h : outcome read spec options store = .ok result store')
    (hinfo : result.pageInfo? = some info) : spec.shape.isPaged = true := by
  unfold outcome at h
  cases hshape : spec.shape with
  | page | geoPage => rfl
  | list | one | count | exists_ | geoResults =>
    simp only [hshape, run_bind_eq_ok_iff] at h
    obtain ⟨_, _, -, hresult⟩ := h
    cases hresult
    contradiction

/-! ### Calls -/

variable {sig : Signature} {s : EntitySchema} {q : CompiledQuery} {args : List Argument}
  {maxInSet : Nat}

theorem pageInfo?_of_run (hcompile : CompiledQuery.compile sig s = .ok q)
    (h : q.bind args maxInSet = .ok spec) {result : Outcome γ} {store store' : Store}
    {info : PageInfo} (hrun : run settings read spec store = .ok result store')
    (hinfo : result.pageInfo? = some info) :
    ∃ p, spec.page = some p ∧ info.page = p.page ∧ info.size = spec.pageSize p ∧ 0 < info.size := by
  obtain ⟨store₁, houtcome, -⟩ := run_eq_ok hrun
  have hpaged := isPaged_of_pageInfo? read _ houtcome hinfo
  obtain ⟨hreported, -⟩ := paged_eq_ok hpaged houtcome
  rw [CompiledQuery.shape_of_bind h] at hpaged
  obtain ⟨p, hpage⟩ := CompiledQuery.exists_page_of_bind hcompile hpaged h
  rw [hinfo, pageInfo, hpage, Option.some.injEq] at hreported
  rw [hreported]
  exact ⟨p, hpage, rfl, rfl, spec.pageSize_pos (CompiledQuery.limit_pos_of_bind hcompile h) p⟩

/--
A bound call has the page and the search that the shape of its result needs, so its execution
neither fails for want of a search nor reports a place without a page. Its results are ranked by the
search that its filter makes.
-/
theorem execution_fits_shape (hcompile : CompiledQuery.compile sig s = .ok q)
    (h : q.bind args maxInSet = .ok spec) :
    (spec.shape.isPaged = true → ∃ p, spec.page = some p)
      ∧
    (spec.shape.isDistanceRanked = true →
      ∃ near limit, spec.near = some near ∧ near.maxDistance = some limit)
      ∧
    (∀ {γ : Type} (settings : Settings) (read : EntityReader γ) (store store' : Store),
      (∀ method fault, run settings read spec store ≠ .error (.ranking method fault) store')
        ∧
      (∀ method fault, stream settings spec store ≠ .error (.ranking method fault) store')
        ∧
      ∀ result info, run settings read spec store = .ok result store' →
        result.pageInfo? = some info →
        ∃ p, spec.page = some p ∧ info.page = p.page ∧ info.size = spec.pageSize p
          ∧ 0 < info.size)
      ∧
    (∀ t slots, q.source = .derived t slots → ∀ path center maxDistance,
      spec.near = some ⟨path, center, maxDistance⟩
        ↔
      spec.filter.nearClause? = some (path, center, maxDistance)) := by
  have hshape := CompiledQuery.shape_of_bind h
  have hsearch (hranked : spec.shape.isDistanceRanked = true) :
      ∃ near limit, spec.near = some near ∧ near.maxDistance = some limit := by
    rw [hshape] at hranked
    obtain ⟨near, limit, hnear, hsearches⟩ :=
      CompiledQuery.exists_searches_of_bind hcompile h hranked
    exact ⟨near, limit, hnear, hsearches.maxDistance⟩
  refine ⟨?page, hsearch, ?executions, ?same⟩
  case page =>
    intro hpaged
    rw [hshape] at hpaged
    exact CompiledQuery.exists_page_of_bind hcompile hpaged h
  case executions =>
    intro γ settings read store store'
    have hnear := CompiledQuery.isSome_near_of_bind hcompile h
    refine ⟨?_, ?_, ?_⟩
    · intro method fault hrun
      exact stepRaises_run read settings hnear store _ store' hrun
    · intro method fault hstream
      exact stepRaises_stream settings spec store _ store' hstream
    · intro result info hrun hinfo
      exact pageInfo?_of_run read settings hcompile h hrun hinfo
  case same =>
    intro t slots hsource path center maxDistance
    rw [← CompiledQuery.near_eq_nearClause? hcompile hsource h, Option.map_eq_some_iff]
    constructor
    · intro hnear
      exact ⟨_, hnear, rfl⟩
    · rintro ⟨near, hnear, hclause⟩
      cases hclause
      exact hnear

def stopSchema : EntitySchema :=
  ⟨"Stop", [⟨"at", .geoPoint⟩]⟩

def stopPages : Signature where
  entity := "Stop"
  name := "findTop3ByAtNear"
  params := [.page, .point, .distance]
  returns := some .geoPage

def stopArguments : List Argument :=
  [.page ⟨0, 5, none, Nat.succ_pos 4⟩, .point ⟨0.0, 0.0⟩, .distance ⟨5.0, .neutral⟩]

theorem execution_fits_shape_stop :
    ∃ q spec t slots p near limit,
      CompiledQuery.compile stopPages stopSchema = .ok q
        ∧
      q.bind stopArguments 1000 = .ok spec
        ∧
      q.source = .derived t slots
        ∧
      spec.page = some p ∧ spec.near = some near ∧ near.maxDistance = some limit
        ∧
      spec.filter.nearClause? = some (near.path, near.center, near.maxDistance)
        ∧
      (∀ method fault store',
        run {} some spec { collection := { name := "stops" } }
          ≠ .error (.ranking method fault) store')
        ∧
      ∃ result info store',
        run {} some spec { collection := { name := "stops" } } = .ok result store'
          ∧
        result.pageInfo? = some info ∧ info.page = p.page ∧ info.size = spec.pageSize p
          ∧ 0 < info.size := by
  have hbinds : CompiledQuery.binds stopPages stopSchema stopArguments 1000
      (fun spec => decide (spec.shape = .geoPage)
        && returnsPage {} { name := "stops" } ⟨0, 0, 3⟩ 0 spec) = true := by
    decide +kernel
  obtain ⟨q, spec, hcompile, hbind, hspec⟩ := CompiledQuery.exists_of_binds hbinds
  rw [Bool.and_eq_true, decide_eq_true_iff] at hspec
  obtain ⟨hshape, hreturns⟩ := hspec
  obtain ⟨t, slots, hsource⟩ := CompiledQuery.exists_derived_of_compile_eq_ok hcompile rfl
  obtain ⟨result, store', hrun, -, hinfo, -⟩ := exists_of_returnsPage hreturns
  obtain ⟨-, hsearch, hexecutions, hsame⟩ := execution_fits_shape hcompile hbind
  rw [hshape] at hsearch
  obtain ⟨near, limit, hnear, hlimit⟩ := hsearch rfl
  obtain ⟨p, hpage, hplace⟩ := (hexecutions {} some _ store').2.2 result _ hrun hinfo
  refine ⟨q, spec, t, slots, p, near, limit, hcompile, hbind, hsource, hpage, hnear, hlimit, ?_, ?_,
    result, _, store', hrun, hinfo, hplace⟩
  · exact (hsame t slots hsource _ _ _).mp hnear
  · intro method fault store''
    exact (hexecutions {} some _ store'').1 method fault

end Execution

end DerivedQuery
