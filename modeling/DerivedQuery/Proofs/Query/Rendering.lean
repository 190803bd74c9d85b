import DerivedQuery.Proofs.Filter.RoundTrip
import DerivedQuery.Proofs.Query.Clauses
import DerivedQuery.Proofs.Schema.Resolution

/-!
This module contains that the query document of a call is read as what the call asks for, unless a
value that is compared for equality is itself a document of operators.
-/

namespace DerivedQuery

/-! ### Paths -/

namespace PropertyPath

theorem isOperatorName_dotted {path : PropertyPath} {name : String} {names : List String}
    (hsegments : path.segments = name :: names) (hname : isOperatorName name = false) :
    isOperatorName path.dotted = false := by
  unfold isOperatorName dotted at *
  rw [hsegments, String.toList_intercalate]
  cases names with
  | nil => simpa using hname
  | cons next names =>
    rw [List.map_cons, List.map_cons, List.intercalate_cons_cons, List.append_assoc]
    cases hchars : name.toList with
    | nil => rfl
    | cons c cs =>
      rw [hchars] at hname
      exact hname

theorem exists_segments_of_found {s : EntitySchema} {token : List Char} {path : PropertyPath}
    (h : Resolution.of s token = .found path) :
    ∃ p ∈ s.properties, ∃ names, path.segments = p.name :: names := by
  rw [Resolution.of_eq_found_iff] at h
  obtain ⟨chain, hshortest, -, halong⟩ := h
  have hne := hshortest.1.ne_nil
  obtain ⟨_, cuts, _, _, _, hspells⟩ := hshortest.1
  generalize cuts.flatten = segments at hspells
  cases hspells with
  | nil => contradiction
  | @cons _ _ _ place chain hposition _ _ =>
    exact ⟨place.1, List.mem_of_getElem? hposition, _, halong.segments⟩

end PropertyPath

namespace Clause

theorem exists_found_of_firstReading? {s : EntitySchema} {method : String}
    {readings : List (List Char × Operator)} {path : PropertyPath} {op : Operator}
    (h : firstReading? s method readings = some (.ok (path, op))) :
    ∃ property, Resolution.of s property = .found path := by
  induction readings with
  | nil => contradiction
  | cons reading readings ih =>
    obtain ⟨property, op'⟩ := reading
    rw [firstReading?] at h
    split at h
    next hfound =>
      cases h
      exact ⟨property, hfound⟩
    next => simp at h
    next => exact ih h

theorem exists_found_of_read {s : EntitySchema} {method : String} {all : Bool}
    {fragment : List Char} {clause : Clause} (h : read s method all fragment = .ok clause) :
    ∃ property, Resolution.of s property = .found clause.path := by
  rw [read_eq_ok_iff] at h
  have hresolve := h.1
  unfold resolve at hresolve
  split at hresolve
  next result hreading =>
    subst hresolve
    exact exists_found_of_firstReading? hreading
  next => contradiction

end Clause

namespace PartTree

theorem exists_segments_of_mem_clauses {method : String} {s : EntitySchema} {t : PartTree}
    (h : read method s = .ok t) {clause : Clause} (hclause : clause ∈ t.clauses) :
    ∃ p ∈ s.properties, ∃ names, clause.path.segments = p.name :: names := by
  obtain ⟨_, _, _, hread⟩ := exists_read_of_mem_clauses h hclause
  obtain ⟨_, hfound⟩ := Clause.exists_found_of_read hread
  exact PropertyPath.exists_segments_of_found hfound

end PartTree

/-! ### Filters of clauses -/

namespace Criterion

def TestsEquality (c : Criterion) : Prop :=
  c.operator = .equals ∨ c.operator = .containing ∧ c.path.isCollection = true

def holdsOperators (c : Criterion) : Bool :=
  match c.value? 0 with
  | some (.document d) => Document.isOperators d
  | _ => false

/--
A value that is compared for equality is no document of operators.
-/
def IsPlain (c : Criterion) : Prop :=
  c.TestsEquality → c.holdsOperators = false

instance (c : Criterion) : Decidable c.TestsEquality :=
  inferInstanceAs (Decidable (_ ∨ _))

instance (c : Criterion) : Decidable c.IsPlain :=
  inferInstanceAs (Decidable (_ → _))

variable {c : Criterion}

theorem renderable_compare_eq {path : String} (hpath : isOperatorName path = false)
    (hvalue : c.holdsOperators = false) :
    (Filter.compare path .eq ((c.value? 0).getD .null)).Renderable := by
  refine ⟨hpath, ?_⟩
  intro _ d hd
  unfold holdsOperators at hvalue
  cases hfirst : c.value? 0 with
  | none =>
    rw [hfirst] at hd
    contradiction
  | some value =>
    rw [hfirst, Option.getD_some] at hd
    rw [hfirst, hd] at hvalue
    exact hvalue

theorem metric_of_nearShape? {args : List Argument} {center : Point} {distance : Distance}
    (hneutral : ∀ d, .distance d ∈ args → d.metric = .neutral)
    (h : nearShape? args = some (.near center (some distance))) : distance.metric = .neutral := by
  apply hneutral
  unfold nearShape? at h
  split at h
  next => simp at h
  next =>
    simp only [Option.some.injEq, Shape.near.injEq] at h
    simp [h.2]
  next => contradiction

theorem renderable_toFilter {method : String} {maxInSet : Nat}
    (hcheck : c.check method maxInSet = .ok ())
    (hpath : isOperatorName c.path.dotted = false)
    (hneutral : ∀ d, .distance d ∈ c.values → d.metric = .neutral) (hplain : c.IsPlain) :
    c.toFilter.Renderable := by
  unfold toFilter toFilterWith
  cases hop : c.operator
  case equals =>
    dsimp only
    split
    next => exact hpath
    next => exact renderable_compare_eq hpath (hplain (.inl hop))
  case notEquals =>
    dsimp only
    split
    next => exact hpath
    next => exact ⟨hpath, by simp⟩
  case containing =>
    dsimp only
    split
    next hcollection => exact renderable_compare_eq hpath (hplain (.inr ⟨hop, hcollection⟩))
    next => exact hpath
  case notContaining =>
    dsimp only
    split
    next => exact ⟨hpath, by simp⟩
    next => exact hpath
  case between => exact ⟨⟨hpath, by simp⟩, ⟨hpath, by simp⟩, trivial⟩
  case near =>
    refine ⟨hpath, ?_⟩
    intro center distance hshape
    cases hnear : nearShape? c.values with
    | none =>
      rw [hnear] at hshape
      simp [Fallback.usual] at hshape
    | some s =>
      rw [hnear, Option.getD_some] at hshape
      rw [hshape] at hnear
      exact metric_of_nearShape? hneutral hnear
  case within =>
    unfold check at hcheck
    rw [hop] at hcheck
    dsimp only [Operator.operand] at hcheck
    cases harea : areaShape? c.values with
    | none =>
      rw [harea] at hcheck
      contradiction
    | some s =>
      obtain ⟨hvalues, hnear⟩ := eq_of_areaShape? harea
      rw [hvalues]
      refine ⟨hpath, ?_⟩
      intro center distance heq
      exact absurd heq (hnear center _)
  all_goals first | exact hpath | exact ⟨hpath, by simp⟩

end Criterion

/-! ### Filters of calls -/

namespace Filter

theorem renderable_conjoin {fs : List Filter} (h : RenderableAll fs) : (conjoin fs).Renderable := by
  unfold conjoin
  split
  · trivial
  · exact h.1
  · exact h

theorem renderable_disjoin {fs : List Filter} (h : RenderableAll fs) : (disjoin fs).Renderable := by
  unfold disjoin
  split
  · trivial
  · exact h.1
  · exact h

end Filter

namespace Predicate

theorem renderableAll_toFilters {ps : List Predicate} (h : ∀ p ∈ ps, p.toFilter.Renderable) :
    Filter.RenderableAll (toFilters ps) := by
  induction ps with
  | nil => trivial
  | cons p ps ih =>
    refine ⟨h p List.mem_cons_self, ih ?_⟩
    intro p' hp'
    exact h p' (List.mem_cons_of_mem p hp')

theorem renderable_conjoin {ps : List Predicate} (h : ∀ p ∈ ps, p.toFilter.Renderable) :
    (conjoin ps).toFilter.Renderable := by
  unfold conjoin
  split
  · exact h _ List.mem_cons_self
  · exact Filter.renderable_conjoin (renderableAll_toFilters h)

theorem renderable_disjoin {ps : List Predicate} (h : ∀ p ∈ ps, p.toFilter.Renderable) :
    (disjoin ps).toFilter.Renderable := by
  unfold disjoin
  split
  · exact h _ List.mem_cons_self
  · exact Filter.renderable_disjoin (renderableAll_toFilters h)

end Predicate

namespace CompiledQuery

variable {sig : Signature} {s : EntitySchema} {q : CompiledQuery} {t : PartTree}
  {slots : List (List Nat)} {args : List Argument} {maxInSet : Nat} {spec : Specification}

theorem renderable_filter (hnames : ∀ p ∈ s.properties, isOperatorName p.name = false)
    (hcompile : compile sig s = .ok q) (hsource : q.source = .derived t slots)
    (hbind : q.bind args maxInSet = .ok spec)
    (hneutral : ∀ d, .distance d ∈ args → d.metric = .neutral)
    (hplain : ∀ p, spec.predicate = some p → ∀ c ∈ p.criteria, c.IsPlain) :
    spec.filter.Renderable := by
  obtain ⟨hread, -⟩ := derived_of_compile_eq_ok hcompile hsource
  obtain ⟨hbuild, hfilter⟩ := bind_derived_eq_ok hsource hbind
  obtain ⟨placed, hgroups, -, hpredicate, hchecks⟩ := Predicate.build_eq_ok hbuild
  have hclauses : t.clauses = placed.flatten.map Prod.fst := by
    rw [PartTree.clauses, ← hgroups, List.map_flatten]
  rw [hfilter]
  cases hempty : placed.isEmpty with
  | true =>
    rw [hpredicate, hempty]
    trivial
  | false =>
    rw [hempty] at hpredicate
    rw [hpredicate]
    apply Predicate.renderable_disjoin
    intro p hp
    obtain ⟨group, hgroup, rfl⟩ := List.mem_map.mp hp
    apply Predicate.renderable_conjoin
    intro leaf hleaf
    obtain ⟨clause, hclause, rfl⟩ := List.mem_map.mp hleaf
    have hmem : clause ∈ placed.flatten := List.mem_flatten.mpr ⟨group, hgroup, hclause⟩
    apply Criterion.renderable_toFilter (hchecks clause hmem)
    · obtain ⟨p, hp, names, hsegments⟩ := PartTree.exists_segments_of_mem_clauses hread
        (hclauses ▸ List.mem_map_of_mem hmem)
      exact PropertyPath.isOperatorName_dotted hsegments (hnames p hp)
    · intro d hd
      obtain ⟨i, -, hi⟩ := List.mem_filterMap.mp hd
      exact hneutral d (List.mem_of_getElem? hi)
    · apply hplain _ hpredicate
      rw [Predicate.mem_criteria_disjoin_ofGroup]
      exact ⟨clause, hmem, rfl⟩

/--
The query document of a call is read as a filter that the same documents meet, if no value that is
compared for equality is a document of operators.
-/
theorem ofDocument_toDocument_filter (hnames : ∀ p ∈ s.properties, isOperatorName p.name = false)
    (hcompile : compile sig s = .ok q) (hsource : q.source = .derived t slots)
    (hbind : q.bind args maxInSet = .ok spec)
    (hneutral : ∀ d, .distance d ∈ args → d.metric = .neutral)
    (hplain : ∀ p, spec.predicate = some p → ∀ c ∈ p.criteria, c.IsPlain) :
    ∃ g, Filter.ofDocument spec.filter.toDocument = .ok g ∧ ∀ d, g.eval d = spec.filter.eval d := by
  have hrenderable := renderable_filter hnames hcompile hsource hbind hneutral hplain
  obtain ⟨fs, hfs, heval⟩ := (Filter.toDocument_means hrenderable).reads
  refine ⟨Filter.conjoin fs, ?_, ?_⟩
  · rw [Filter.ofDocument, hfs]
    rfl
  · intro d
    rw [Filter.eval_conjoin, heval]

theorem ofDocument_toDocument_filter_person :
    ∃ q t slots spec,
      compile personSignature PartTree.person = .ok q
        ∧
      q.source = .derived t slots
        ∧
      q.bind personArguments 1000 = .ok spec
        ∧
      ∃ g, Filter.ofDocument spec.filter.toDocument = .ok g
        ∧
      ∀ d, g.eval d = spec.filter.eval d := by
  have hbinds : binds personSignature PartTree.person personArguments 1000
      (fun spec => spec.predicate.all fun p => p.criteria.all fun c => decide c.IsPlain)
        = true := by
    decide +kernel
  obtain ⟨q, spec, hcompile, hbind, hplain⟩ := exists_of_binds hbinds
  obtain ⟨t, slots, hsource⟩ := exists_derived_of_compile_eq_ok hcompile rfl
  have hreads := ofDocument_toDocument_filter (by decide) hcompile hsource hbind
    (by simp [personArguments])
    (by
      intro p hp c hc
      rw [hp, Option.all_some, List.all_eq_true] at hplain
      exact of_decide_eq_true (hplain c hc))
  exact ⟨q, t, slots, spec, hcompile, hsource, hbind, hreads⟩

def noteSchema : EntitySchema where
  name := "Memo"
  properties := [⟨"note", .scalar .any⟩]

def noteSignature : Signature where
  entity := "Memo"
  name := "findByNote"
  params := [.value]

def noteArguments : List Argument :=
  [.value (.document [("$gt", .int32 5)])]

/--
The call asks for the memos whose note is the document. Its query document asks for those whose note
is more than five, such as the memo of the last line.
-/
theorem ofDocument_toDocument_filter_note :
    ∃ q t slots spec,
      compile noteSignature noteSchema = .ok q
        ∧
      q.source = .derived t slots
        ∧
      q.bind noteArguments 1000 = .ok spec
        ∧
      ∃ g, Filter.ofDocument spec.filter.toDocument = .ok g
        ∧
      spec.filter.eval [("note", .int32 6)] = false
        ∧
      g.eval [("note", .int32 6)] = true := by
  have hbinds : binds noteSignature noteSchema noteArguments 1000
      (fun spec => !spec.filter.eval [("note", .int32 6)]
        && (Filter.ofDocument spec.filter.toDocument).toOption.any
          fun g => g.eval [("note", .int32 6)])
        = true := by
    decide +kernel
  obtain ⟨q, spec, hcompile, hbind, hspec⟩ := exists_of_binds hbinds
  obtain ⟨t, slots, hsource⟩ := exists_derived_of_compile_eq_ok hcompile rfl
  rw [Bool.and_eq_true, Bool.not_eq_true'] at hspec
  obtain ⟨hfilter, hread⟩ := hspec
  cases hg : Filter.ofDocument spec.filter.toDocument with
  | error fault =>
    rw [hg] at hread
    cases hread
  | ok g =>
    rw [hg, Except.toOption, Option.any_some] at hread
    exact ⟨q, t, slots, spec, hcompile, hsource, hbind, g, hg, hfilter, hread⟩

end CompiledQuery
end DerivedQuery
