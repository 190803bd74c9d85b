import DerivedQuery.Proofs.Query.Clauses
import DerivedQuery.Proofs.Query.Faults

/-!
This module contains that the page argument of a call decides about the page only: turned to another
page, the call asks for the same documents in the same order.
-/

namespace DerivedQuery

/-! ### Page arguments -/

def PageRequest.turnTo (n : Nat) (p : PageRequest) : PageRequest :=
  { p with page := n }

namespace Argument

def turnTo (n : Nat) : Argument → Argument
  | .page p => .page (p.turnTo n)
  | arg => arg

theorem fits_turnTo (n : Nat) (arg : Argument) (kind : ParameterKind) :
    (arg.turnTo n).fits kind = arg.fits kind := by
  cases arg with
  | page p => cases kind <;> rfl
  | _ => rfl

theorem turnTo_of_fits {n : Nat} {arg : Argument} {kind : ParameterKind}
    (hfits : arg.fits kind = true) (hkind : kind.isSpecial = false) : arg.turnTo n = arg := by
  cases arg with
  | page p => cases kind <;> simp_all [fits, ParameterKind.isSpecial]
  | _ => rfl

theorem exists_page_of_fits {arg : Argument} (h : arg.fits .page = true) : ∃ p, arg = .page p := by
  cases arg with
  | page p => exact ⟨p, rfl⟩
  | _ => simp [fits] at h

end Argument

/-! ### Value arguments -/

theorem Signature.exists_of_mem_valueIndicesFrom {start i : Nat} {kinds : List ParameterKind}
    (h : i ∈ valueIndicesFrom start kinds) :
    ∃ j kind, i = start + j ∧ kinds[j]? = some kind ∧ kind.isSpecial = false := by
  induction kinds generalizing start with
  | nil => simp [valueIndicesFrom] at h
  | cons kind kinds ih =>
    have hrest : i ∈ valueIndicesFrom (start + 1) kinds →
        ∃ j kind', i = start + j ∧ (kind :: kinds)[j]? = some kind' ∧ kind'.isSpecial = false := by
      intro h
      obtain ⟨j, kind', hi, hkind⟩ := ih h
      exact ⟨j + 1, kind', by omega, by simpa using hkind⟩
    rw [valueIndicesFrom] at h
    split at h
    next => exact hrest h
    next hspecial =>
      obtain rfl | h := List.mem_cons.mp h
      · exact ⟨0, kind, by simp, by simp, by simpa using hspecial⟩
      · exact hrest h

/--
The arguments of two calls agree wherever they can bind to clauses or fill places.
-/
def AgreeOnValues (sig : Signature) (args args' : List Argument) : Prop :=
  ∀ i ∈ sig.valueIndices, args'[i]? = args[i]?

def AgreeOnSlots (e : Nat → Nat) (slots : List (List Nat)) (args args' : List Argument) : Prop :=
  ∀ slot ∈ slots, ∀ i ∈ slot, args'[e i]? = args[i]?

namespace Predicate

variable {args args' : List Argument} {e : Nat → Nat} {slots : List (List Nat)} {method : String}
  {maxInSet : Nat}

theorem buildGroup_renumbered {clauses : List Clause} (h : AgreeOnSlots e slots args args') :
    buildGroup method args' maxInSet clauses (slots.map (List.map e))
      =
    (buildGroup method args maxInSet clauses slots).map
      (Prod.map id (List.map (List.map e))) := by
  induction clauses generalizing slots with
  | nil => rfl
  | cons clause clauses ih =>
    cases slots with
    | nil => rfl
    | cons slot slots =>
      obtain ⟨hslot, hslots⟩ := List.forall_mem_cons.mp h
      have hvalues : (slot.map e).filterMap (args'[·]?) = slot.filterMap (args[·]?) := by
        rw [List.filterMap_map]
        exact List.filterMap_congr hslot
      have hclause : Criterion.ofClause clause (slot.map e) args'
          = Criterion.ofClause clause slot args := by
        unfold Criterion.ofClause
        rw [hvalues]
      rw [List.map_cons, buildGroup, buildGroup, hclause, ih hslots]
      cases (Criterion.ofClause clause slot args).check method maxInSet with
      | error failure => rfl
      | ok => cases buildGroup method args maxInSet clauses slots <;> rfl

theorem buildGroups_renumbered {groups : List (List Clause)} (h : AgreeOnSlots e slots args args') :
    buildGroups method args' maxInSet groups (slots.map (List.map e))
      =
    buildGroups method args maxInSet groups slots := by
  induction groups generalizing slots with
  | nil => rfl
  | cons group groups ih =>
    rw [buildGroups, buildGroups, buildGroup_renumbered h]
    cases hgroup : buildGroup method args maxInSet group slots with
    | error failure => rfl
    | ok built =>
      obtain ⟨leaves, rest⟩ := built
      obtain ⟨placed, -, hslots, -⟩ := buildGroup_eq_ok hgroup
      have hrest : AgreeOnSlots e rest args args' := by
        intro slot hslot
        apply h slot
        rw [hslots]
        exact List.mem_append_right _ hslot
      change (buildGroups method args' maxInSet groups (rest.map (List.map e)) >>= _) = _
      rw [ih hrest]
      rfl

theorem build_renumbered {t : PartTree} (h : AgreeOnSlots e slots args args') :
    build t (slots.map (List.map e)) args' maxInSet = build t slots args maxInSet := by
  rw [build, build, buildGroups_renumbered h]

end Predicate

namespace CompiledQuery

variable {sig : Signature} {s : EntitySchema} {q : CompiledQuery} {args args' : List Argument}
  {maxInSet : Nat}

theorem bindSource_congr (hcompile : compile sig s = .ok q)
    (h : AgreeOnValues q.signature args args') :
    q.bindSource args' maxInSet = q.bindSource args maxInSet := by
  unfold bindSource
  cases hsource : q.source with
  | derived t slots =>
    obtain ⟨-, hslots⟩ := derived_of_compile_eq_ok hcompile hsource
    have hindices := (Slots.bind_eq_ok hslots).2
    rw [← (compile_eq_ok hcompile).1] at hindices
    have hagree : AgreeOnSlots id slots args args' := by
      intro slot hslot i hi
      apply h i
      rw [← hindices]
      exact List.mem_flatten_of_mem hslot hi
    have hbuild : Predicate.build t slots args' maxInSet = Predicate.build t slots args maxInSet := by
      rw [← Predicate.build_renumbered hagree, List.map_id_fun, List.map_id]
    simp only [hbuild]
  | explicit template limit =>
    have hvalues : q.valueArguments args' = q.valueArguments args := List.filterMap_congr h
    simp only [hvalues]

/-! ### Turning the page -/

theorem fitsAll_iff {kinds : List ParameterKind} :
    fitsAll args kinds = true
      ↔
    ∀ i : Nat, Option.Rel (fun arg kind => arg.fits kind = true) args[i]? kinds[i]? := by
  induction args generalizing kinds with
  | nil =>
    cases kinds with
    | nil => simp [fitsAll]
    | cons kind kinds =>
      simp only [fitsAll, Bool.false_eq_true, false_iff, not_forall]
      refine ⟨0, ?_⟩
      simp
  | cons arg args ih =>
    cases kinds with
    | nil =>
      simp only [fitsAll, Bool.false_eq_true, false_iff, not_forall]
      refine ⟨0, ?_⟩
      simp
    | cons kind kinds =>
      rw [fitsAll, Bool.and_eq_true, ih]
      constructor
      · rintro ⟨hfits, hrest⟩ i
        cases i with
        | zero => exact .some hfits
        | succ i => exact hrest i
      · intro h
        exact ⟨by simpa using h 0, fun i => h (i + 1)⟩

theorem exists_of_fitsAll {kinds : List ParameterKind} (h : fitsAll args kinds = true) {i : Nat}
    {kind : ParameterKind} (hkind : kinds[i]? = some kind) :
    ∃ arg, args[i]? = some arg ∧ arg.fits kind = true := by
  have hrel := fitsAll_iff.mp h i
  rw [hkind] at hrel
  cases harg : args[i]? with
  | none =>
    rw [harg] at hrel
    cases hrel
  | some arg =>
    rw [harg] at hrel
    cases hrel with
    | some hfits => exact ⟨arg, rfl, hfits⟩

theorem fitsAll_turnTo (n : Nat) (args : List Argument) (kinds : List ParameterKind) :
    fitsAll (args.map (Argument.turnTo n)) kinds = fitsAll args kinds := by
  induction args generalizing kinds with
  | nil => rfl
  | cons arg args ih =>
    cases kinds with
    | nil => rfl
    | cons kind kinds => rw [List.map_cons, fitsAll, fitsAll, Argument.fits_turnTo, ih]

theorem agreeOnValues_turnTo (n : Nat) (haccepts : q.accepts args = true) :
    AgreeOnValues q.signature args (args.map (Argument.turnTo n)) := by
  intro i hi
  obtain ⟨j, kind, hj, hkind, hspecial⟩ := Signature.exists_of_mem_valueIndicesFrom hi
  rw [Nat.zero_add] at hj
  rw [← hj] at hkind
  obtain ⟨arg, harg, hfits⟩ := exists_of_fitsAll haccepts hkind
  rw [List.getElem?_map, harg, Option.map_some, Argument.turnTo_of_fits hfits hspecial]

theorem sortArgument?_turnTo (n : Nat) (q : CompiledQuery) (args : List Argument) :
    q.sortArgument? (args.map (Argument.turnTo n)) = q.sortArgument? args := by
  unfold sortArgument?
  cases q.sortParameter with
  | none => rfl
  | some i =>
    rw [Option.bind_some, Option.bind_some, List.getElem?_map]
    cases args[i]? with
    | none => rfl
    | some arg => cases arg <;> rfl

theorem pageArgument?_turnTo (n : Nat) (q : CompiledQuery) (args : List Argument) :
    q.pageArgument? (args.map (Argument.turnTo n))
      =
    (q.pageArgument? args).map (PageRequest.turnTo n) := by
  unfold pageArgument?
  cases q.pageParameter with
  | none => rfl
  | some i =>
    rw [Option.bind_some, Option.bind_some, List.getElem?_map]
    cases args[i]? with
    | none => rfl
    | some arg => cases arg <;> rfl

theorem boundSort_turnTo (n : Nat) (q : CompiledQuery) (args : List Argument)
    (source : BoundSource) :
    q.boundSort (args.map (Argument.turnTo n)) source = q.boundSort args source := by
  unfold boundSort
  rw [sortArgument?_turnTo, pageArgument?_turnTo]
  cases q.pageArgument? args <;> rfl

theorem bind_turnTo (n : Nat) {spec : Specification} (hcompile : compile sig s = .ok q)
    (h : q.bind args maxInSet = .ok spec) :
    q.bind (args.map (Argument.turnTo n)) maxInSet
      =
    .ok { spec with page := spec.page.map (PageRequest.turnTo n) } := by
  obtain ⟨hcheck, source, sort, hsource, hsort, hlength, rfl⟩ := bind_ok_iff.mp h
  rw [checkArguments_eq_ok_iff] at hcheck
  rw [bind_ok_iff, checkArguments_eq_ok_iff]
  refine ⟨?_, source, sort, ?_, ?_, hlength, ?_⟩
  · rw [accepts, fitsAll_turnTo]
    exact hcheck
  · rw [bindSource_congr hcompile (agreeOnValues_turnTo n hcheck), hsource]
  · rw [boundSort_turnTo, hsort]
  · rw [specified, pageArgument?_turnTo]
    rfl

theorem exists_page_of_bind {spec : Specification} (hcompile : compile sig s = .ok q)
    (hpaged : q.shape.isPaged = true) (h : q.bind args maxInSet = .ok spec) :
    ∃ p, spec.page = some p := by
  obtain ⟨hcheck, source, sort, -, -, -, rfl⟩ := bind_ok_iff.mp h
  rw [checkArguments_eq_ok_iff] at hcheck
  obtain ⟨i, hpage, hkind⟩ := exists_pageParameter hcompile hpaged
  obtain ⟨arg, harg, hfits⟩ := exists_of_fitsAll hcheck hkind
  obtain ⟨p, rfl⟩ := Argument.exists_page_of_fits hfits
  refine ⟨p, ?_⟩
  rw [specified, pageArgument?, hpage, Option.bind_some, harg]

end CompiledQuery
end DerivedQuery
