import DerivedQuery.Proofs.Query.Compiled

/-!
This module contains how a call of a compiled method can fail, and that it fails if the arguments
are not of the declared kinds.
-/

namespace DerivedQuery

def QueryError.IsBindError : QueryError → Prop
  | .parameterCount .. | .clauseMismatch .. | .unresolvedProperty .. | .geometry _ => True
  | _ => False

open QueryError (IsBindError)

theorem Criterion.raises_check (c : Criterion) (method : String) (maxInSet : Nat) :
    Raises IsBindError (c.check method maxInSet) := by
  have hshape (missing : ClauseFault) (shape : Option Shape) :
      Raises IsBindError (checkShape method missing shape) := by
    cases shape with
    | none => exact raises_error trivial
    | some shape => exact raises_mapError (fun _ => trivial) _
  unfold check
  cases c.operator.operand with
  | none => exact raises_ok ()
  | single | pair | sequence => exact raises_mapError (fun _ => trivial) _
  | point | area => exact hshape _ _

theorem Predicate.raises_buildGroup (method : String) (args : List Argument) (maxInSet : Nat)
    (clauses : List Clause) (slots : List (List Nat)) :
    Raises IsBindError (buildGroup method args maxInSet clauses slots) := by
  induction clauses generalizing slots with
  | nil => exact raises_ok _
  | cons clause clauses ih =>
    cases slots with
    | nil => exact raises_error trivial
    | cons slot slots =>
      exact (Criterion.raises_check _ _ _).bind fun _ => (ih slots).bind fun _ => raises_ok _

theorem Predicate.raises_build (t : PartTree) (slots : List (List Nat)) (args : List Argument)
    (maxInSet : Nat) : Raises IsBindError (build t slots args maxInSet) := by
  refine Raises.bind ?_ fun _ => raises_ok _
  induction t.groups generalizing slots with
  | nil => exact raises_ok _
  | cons group groups ih =>
    exact (raises_buildGroup _ _ _ _ _).bind fun built => (ih built.2).bind fun _ => raises_ok _

theorem Template.raises_render (t : Template) (method : String) (args : List Argument) :
    Raises IsBindError (t.render method args) := by
  unfold render
  split
  · exact raises_error trivial
  · exact raises_mapError (fun _ => trivial) _

namespace CompiledQuery

theorem raises_resolveSort (s : EntitySchema) (method : String) (keys : SortKeys) :
    Raises IsBindError (resolveSort s method keys) := by
  apply raises_mapM
  intro key
  split
  · exact raises_ok key
  · refine Raises.bind ?_ fun _ => raises_ok _
    unfold PropertyPath.resolveDotted
    split
    · exact raises_ok _
    · exact raises_error trivial

theorem raises_boundSort (q : CompiledQuery) (args : List Argument) (source : BoundSource) :
    Raises IsBindError (q.boundSort args source) := by
  unfold boundSort
  split
  · rw [map_eq_pure_bind]
    exact (raises_resolveSort _ _ _).bind fun keys => raises_ok (some keys)
  · exact raises_ok source.sort

theorem raises_bindSource (q : CompiledQuery) (args : List Argument) (maxInSet : Nat) :
    Raises IsBindError (q.bindSource args maxInSet) := by
  unfold bindSource
  split
  · exact (Predicate.raises_build _ _ _ _).bind fun _ => raises_ok _
  · exact (Template.raises_render _ _ _).bind fun _ => raises_ok _

theorem raises_checkArguments (q : CompiledQuery) (args : List Argument) :
    Raises IsBindError (q.checkArguments args) := by
  unfold checkArguments
  dsimp only
  split
  · exact raises_error trivial
  · split
    · exact raises_error trivial
    · exact raises_ok ()

theorem raises_bind (q : CompiledQuery) (args : List Argument) (maxInSet : Nat) :
    Raises IsBindError (q.bind args maxInSet) := by
  rw [bind_eq]
  refine (q.raises_checkArguments args).bind fun _ => ?_
  refine (q.raises_bindSource args maxInSet).bind fun source => ?_
  refine (q.raises_boundSort args source).bind fun sort => ?_
  split
  · exact raises_error trivial
  · exact raises_ok _

theorem misfit?_eq_none_iff (start : Nat) {args : List Argument} {kinds : List ParameterKind}
    (h : args.length = kinds.length) :
    misfit? start args kinds = none ↔ fitsAll args kinds = true := by
  induction args generalizing start kinds with
  | nil =>
    cases kinds with
    | nil => simp [misfit?, fitsAll]
    | cons => contradiction
  | cons arg args ih =>
    cases kinds with
    | nil => contradiction
    | cons kind kinds =>
      rw [misfit?, fitsAll]
      by_cases hfits : arg.fits kind
      · simp [hfits, ih (start + 1) (by simpa using h)]
      · simp [hfits]

theorem length_eq_of_fitsAll {args : List Argument} {kinds : List ParameterKind}
    (h : fitsAll args kinds = true) : args.length = kinds.length := by
  induction args generalizing kinds with
  | nil =>
    cases kinds with
    | nil => rfl
    | cons => simp [fitsAll] at h
  | cons arg args ih =>
    cases kinds with
    | nil => simp [fitsAll] at h
    | cons kind kinds =>
      rw [fitsAll, Bool.and_eq_true] at h
      simp [ih h.2]

theorem checkArguments_eq_ok_iff {q : CompiledQuery} {args : List Argument} :
    q.checkArguments args = .ok () ↔ q.accepts args = true := by
  unfold checkArguments accepts
  dsimp only
  split
  next hlength =>
    constructor
    · intro h
      contradiction
    · intro h
      exact absurd (length_eq_of_fitsAll h) hlength
  next hlength =>
    rw [← misfit?_eq_none_iff 0 (not_not.mp hlength)]
    cases misfit? 0 args q.signature.params <;> simp

theorem exists_bind_eq_error {q : CompiledQuery} {args : List Argument}
    (h : q.accepts args = false) (maxInSet : Nat) : ∃ e, q.bind args maxInSet = .error e := by
  cases hbind : q.bind args maxInSet with
  | error e => exact ⟨e, rfl⟩
  | ok spec =>
    rw [checkArguments_eq_ok_iff.mp (bind_eq_ok hbind).1] at h
    contradiction

theorem bind_ne_unknownMethod (q : CompiledQuery) (args : List Argument) (maxInSet : Nat)
    (name : String) : q.bind args maxInSet ≠ .error (.unknownMethod name) := by
  intro h
  exact q.raises_bind args maxInSet _ h

end CompiledQuery
end DerivedQuery
