import DerivedQuery.Proofs.Query.Lead
import DerivedQuery.Proofs.Query.Paging
import Mathlib.Data.List.Sort
import Mathlib.Logic.Equiv.Basic

/-!
This module contains that sort and page parameters never bind to clauses, wherever they stand. If they
move, and the arguments with them, then the slots of all clauses are renumbered, and the calls are
bound to the same.
-/

namespace DerivedQuery

/-! ### Positions -/

/--
The lists have the same elements, and `e` takes the position of each in the first list to its position
in the second one.
-/
def Rearranged {α : Type} (e : Equiv.Perm Nat) (l l' : List α) : Prop :=
  ∀ i, l'[e i]? = l[i]?

variable {e : Equiv.Perm Nat}

theorem Rearranged.symm {α : Type} {l l' : List α} (h : Rearranged e l l') :
    Rearranged e.symm l' l := by
  intro i
  rw [← h, e.apply_symm_apply]

theorem Rearranged.comp {α : Type} {l l' : List α} (h : Rearranged e l l') :
    (fun i => l'[e i]?) = fun i => l[i]? :=
  funext h

/--
The declarations differ only in the positions of sort and page parameters. All other parameters keep
their order.
-/
structure Signature.Rearranges (e : Equiv.Perm Nat) (sig sig' : Signature) : Prop where
  same : sig' = { sig with params := sig'.params }
  params : Rearranged e sig.params sig'.params
  order : ∀ i ∈ sig.valueIndices, ∀ j ∈ sig.valueIndices, i < j → e i < e j

namespace Signature

variable {sig sig' : Signature}

theorem mem_valueIndicesFrom {start i : Nat} {kinds : List ParameterKind} :
    i ∈ valueIndicesFrom start kinds
      ↔
    ∃ j kind, i = start + j ∧ kinds[j]? = some kind ∧ kind.isSpecial = false := by
  constructor
  · exact exists_of_mem_valueIndicesFrom
  · rintro ⟨j, kind, rfl, hkind, hspecial⟩
    induction kinds generalizing start j with
    | nil => simp at hkind
    | cons kind' kinds ih =>
      rw [valueIndicesFrom]
      cases j with
      | zero =>
        simp only [List.getElem?_cons_zero, Option.some.injEq] at hkind
        simp [hkind, hspecial]
      | succ j =>
        rw [List.getElem?_cons_succ] at hkind
        have hmem : start + 1 + j ∈ valueIndicesFrom (start + 1) kinds := ih j hkind
        rw [Nat.add_assoc, Nat.add_comm 1 j] at hmem
        split
        · exact hmem
        · exact List.mem_cons_of_mem start hmem

theorem getElem?_cons_sub {α : Type} {start i : Nat} {kinds : List ParameterKind}
    (h : i ∈ valueIndicesFrom (start + 1) kinds) (a : α) (as : List α) :
    (a :: as)[i - start]? = as[i - (start + 1)]? := by
  obtain ⟨j, -, rfl, -⟩ := mem_valueIndicesFrom.mp h
  have hleft : start + 1 + j - start = j + 1 := by omega
  have hright : start + 1 + j - (start + 1) = j := by omega
  rw [hleft, hright, List.getElem?_cons_succ]

theorem mem_valueIndices {i : Nat} :
    i ∈ sig.valueIndices ↔ ∃ kind, sig.params[i]? = some kind ∧ kind.isSpecial = false := by
  rw [valueIndices, mem_valueIndicesFrom]
  constructor
  · rintro ⟨j, kind, rfl, hkind⟩
    rw [Nat.zero_add]
    exact ⟨kind, hkind⟩
  · rintro ⟨kind, hkind⟩
    exact ⟨i, kind, (Nat.zero_add i).symm, hkind⟩

theorem pairwise_valueIndicesFrom (start : Nat) (kinds : List ParameterKind) :
    (valueIndicesFrom start kinds).Pairwise (· < ·) := by
  induction kinds generalizing start with
  | nil => exact .nil
  | cons kind kinds ih =>
    rw [valueIndicesFrom]
    split
    · exact ih (start + 1)
    · rw [List.pairwise_cons]
      refine ⟨?_, ih (start + 1)⟩
      intro i hi
      obtain ⟨j, -, rfl, -⟩ := mem_valueIndicesFrom.mp hi
      omega

theorem Rearranges.name_eq (h : sig.Rearranges e sig') : sig'.name = sig.name := by
  rw [h.same]

theorem Rearranges.mem_valueIndices_iff (h : sig.Rearranges e sig') {i : Nat} :
    e i ∈ sig'.valueIndices ↔ i ∈ sig.valueIndices := by
  rw [mem_valueIndices, mem_valueIndices, h.params]

theorem Rearranges.valueIndices_eq (h : sig.Rearranges e sig') :
    sig'.valueIndices = sig.valueIndices.map e := by
  -- both sides ascend
  refine List.Pairwise.eq_of_mem_iff (pairwise_valueIndicesFrom 0 sig'.params) ?_ ?_
  · rw [List.pairwise_map]
    refine (pairwise_valueIndicesFrom 0 sig.params).imp_of_mem ?_
    intro i j hi hj hij
    exact h.order i hi j hj hij
  · intro i
    rw [← e.apply_symm_apply i, h.mem_valueIndices_iff, List.mem_map_of_injective e.injective]

theorem Rearranges.symm (h : sig.Rearranges e sig') : sig'.Rearranges e.symm sig where
  same := by rw [h.same]
  params := h.params.symm
  order := by
    intro i hi j hj hij
    rw [h.valueIndices_eq, List.mem_map] at hi hj
    obtain ⟨i, hi, rfl⟩ := hi
    obtain ⟨j, hj, rfl⟩ := hj
    rw [e.symm_apply_apply, e.symm_apply_apply]
    rcases lt_trichotomy i j with hlt | rfl | hgt
    · exact hlt
    · exact absurd hij (lt_irrefl _)
    · exact absurd (hij.trans (h.order j hj i hi hgt)) (lt_irrefl _)

end Signature

/-! ### Slots -/

namespace Slots

def renumber (e : Nat → Nat) (p : Numbered) : Numbered :=
  (e p.1, p.2)

theorem numberedFrom_eq (start : Nat) (kinds : List ParameterKind) :
    numberedFrom start kinds
      =
    (Signature.valueIndicesFrom start kinds).filterMap fun i =>
      kinds[i - start]?.map fun kind => (i, kind) := by
  induction kinds generalizing start with
  | nil => rfl
  | cons kind kinds ih =>
    have hrest : (Signature.valueIndicesFrom (start + 1) kinds).filterMap
        (fun i => (kind :: kinds)[i - start]?.map fun kind => (i, kind))
          = numberedFrom (start + 1) kinds := by
      rw [ih]
      apply List.filterMap_congr
      intro i hi
      rw [Signature.getElem?_cons_sub hi]
    rw [numberedFrom, Signature.valueIndicesFrom]
    split
    · rw [hrest]
    · rw [List.filterMap_cons, hrest, Nat.sub_self]
      rfl

theorem numbered_rearranged {sig sig' : Signature} (h : sig.Rearranges e sig') :
    numbered sig' = (numbered sig).map (renumber e) := by
  have hnumbered (sig : Signature) : numbered sig
      = sig.valueIndices.filterMap fun i => sig.params[i]?.map fun kind => (i, kind) :=
    numberedFrom_eq 0 sig.params
  rw [hnumbered, hnumbered, h.valueIndices_eq, List.filterMap_map, List.map_filterMap]
  congr 1
  funext i
  rw [Function.comp_apply, h.params, Option.map_map]
  rfl

variable (e : Nat → Nat) (clause : Clause)

theorem toOption_take_renumber (ws : List Wanted) (given : List Numbered) :
    (take clause ws (given.map (renumber e))).toOption
      =
    (take clause ws given).toOption.map (Prod.map (List.map e) (List.map (renumber e))) := by
  induction ws generalizing given with
  | nil => rfl
  | cons w ws ih =>
    cases given with
    | nil => rfl
    | cons p given =>
      rw [List.map_cons, take, take]
      have hkind : (renumber e p).2 = p.2 := rfl
      rw [hkind]
      split
      · simp only [toOption_bind, ih]
        cases (take clause ws given).toOption <;> rfl
      · rfl

theorem takeDistance_renumber (op : Operator) (given : List Numbered) :
    takeDistance op (given.map (renumber e))
      =
    Prod.map (List.map e) (List.map (renumber e)) (takeDistance op given) := by
  cases given with
  | nil => rfl
  | cons p given =>
    obtain ⟨i, kind⟩ := p
    cases kind with
    | distance =>
      simp only [List.map_cons, renumber, takeDistance]
      split <;> rfl
    | _ => rfl

theorem toOption_takeClause_renumber (given : List Numbered) :
    (takeClause clause (given.map (renumber e))).toOption
      =
    (takeClause clause given).toOption.map (Prod.map (List.map e) (List.map (renumber e))) := by
  unfold takeClause
  simp only [toOption_bind, toOption_take_renumber]
  cases (take clause (wanted clause.operator) given).toOption with
  | none => rfl
  | some taken =>
    simp only [Option.map_some, Option.bind_some, Prod.map_fst, Prod.map_snd, takeDistance_renumber]
    exact congrArg some (Prod.ext List.map_append.symm rfl)

theorem toOption_takeAll_renumber (clauses : List Clause) (given : List Numbered) :
    (takeAll clauses (given.map (renumber e))).toOption
      =
    (takeAll clauses given).toOption.map
      (Prod.map (List.map (List.map e)) (List.map (renumber e))) := by
  induction clauses generalizing given with
  | nil => rfl
  | cons clause clauses ih =>
    rw [takeAll, takeAll]
    simp only [toOption_bind, toOption_takeClause_renumber]
    cases (takeClause clause given).toOption with
    | none => rfl
    | some taken =>
      simp only [Option.map_some, Option.bind_some, Prod.map_snd, ih]
      cases (takeAll clauses taken.2).toOption <;> rfl

theorem toOption_bind_rearranged {e : Equiv.Perm Nat} {sig sig' : Signature}
    (h : sig.Rearranges e sig') (t : PartTree) :
    (bind sig' t).toOption = (bind sig t).toOption.map (List.map (List.map e)) := by
  have htake := toOption_takeAll_renumber e t.clauses (numbered sig)
  rw [← numbered_rearranged h] at htake
  unfold bind
  cases htaken : takeAll t.clauses (numbered sig) with
  | error failure =>
    rw [htaken] at htake
    cases hmoved : takeAll t.clauses (numbered sig') with
    | error failure' => rfl
    | ok taken =>
      rw [hmoved] at htake
      contradiction
  | ok taken =>
    obtain ⟨slots, left⟩ := taken
    rw [htaken] at htake
    rw [toOption_eq_some_iff.mp htake]
    cases left <;> rfl

end Slots

/-! ### Compilation -/

namespace CompiledQuery

variable {sig sig' : Signature} {s : EntitySchema} {q : CompiledQuery}

theorem special_rearranged (h : sig.Rearranges e sig') {kind : ParameterKind}
    {position : Option Nat} (hspecial : special sig kind = .ok position) :
    special sig' kind = .ok (position.map e) := by
  rw [special_eq_ok_iff] at hspecial ⊢
  intro i
  rw [← e.apply_symm_apply i, h.params, hspecial]
  cases position with
  | none => simp
  | some j => rw [Option.map_some, Option.some.injEq, Option.some.injEq, e.apply_eq_iff_eq]

theorem nearSlot?_map (f : List Nat → List Nat) (clauses : List Clause) (slots : List (List Nat)) :
    nearSlot? clauses (slots.map f) = (nearSlot? clauses slots).map f := by
  induction clauses generalizing slots with
  | nil => rfl
  | cons clause clauses ih =>
    cases slots with
    | nil => rfl
    | cons slot slots =>
      rw [List.map_cons, nearSlot?, nearSlot?, ih]
      split <;> rfl

theorem checkRanking_rearranged (e : Nat → Nat) (kinds : List ParameterKind) (t : PartTree)
    (slots : List (List Nat)) (shape : ResultShape) :
    checkRanking { sig with params := kinds } t (slots.map (List.map e)) shape
      =
    checkRanking sig t slots shape := by
  unfold checkRanking
  have hlength : List.length ∘ List.map e = List.length := funext fun slot => List.length_map e
  rw [nearSlot?_map, Option.map_map, hlength]

def rearranged (e : Equiv.Perm Nat) (sig : Signature) (q : CompiledQuery) : CompiledQuery :=
  { q with
    signature := sig
    source :=
      match q.source with
      | .derived t slots => .derived t (slots.map (List.map e))
      | .explicit template limit => .explicit template limit
    sortParameter := q.sortParameter.map e
    pageParameter := q.pageParameter.map e }

@[simp]
theorem signature_rearranged (e : Equiv.Perm Nat) (sig : Signature) (q : CompiledQuery) :
    (q.rearranged e sig).signature = sig := rfl

theorem derivedFrom_rearranged (h : sig.Rearranges e sig') {t : PartTree} {slots : List (List Nat)}
    {shape : ResultShape} (hfrom : DerivedFrom sig s t slots shape) :
    DerivedFrom sig' s t (slots.map (List.map e)) shape := by
  have hbind : Slots.bind sig' t = .ok (slots.map (List.map e)) := by
    rw [← toOption_eq_some_iff, Slots.toOption_bind_rearranged h,
      toOption_eq_some_iff.mpr hfrom.bind, Option.map_some]
  obtain ⟨kinds, rfl⟩ : ∃ kinds, sig' = { sig with params := kinds } := ⟨_, h.same⟩
  refine ⟨hfrom.read, hfrom.orderBy, hfrom.shape, hbind, ?_⟩
  rw [checkRanking_rearranged]
  exact hfrom.ranking

theorem compileExplicit_rearranged (h : sig.Rearranges e sig') (text : String) :
    compileExplicit sig' s text = compileExplicit sig s text := by
  have hlength : sig'.valueIndices.length = sig.valueIndices.length := by
    rw [h.valueIndices_eq, List.length_map]
  obtain ⟨kinds, rfl⟩ : ∃ kinds, sig' = { sig with params := kinds } := ⟨_, h.same⟩
  unfold compileExplicit
  rw [hlength]
  rfl

theorem compile_rearranged (h : sig.Rearranges e sig') (hcompile : compile sig s = .ok q) :
    compile sig' s = .ok (q.rearranged e sig') := by
  have hquery' : sig'.query = sig.query := by rw [h.same]
  have hresolve : resolveProjection sig' s = resolveProjection sig s := by
    rw [h.same]
    rfl
  cases hquery : sig.query with
  | none =>
    obtain ⟨sort, page, projection, shape, t, slots, hsort, hpage, hprojection, hfrom, hpaged, rfl⟩ :=
      (compile_eq_ok_iff_derived hquery).mp hcompile
    rw [compile_eq_ok_iff_derived (hquery'.trans hquery)]
    refine ⟨_, _, projection, shape, t, _, special_rearranged h hsort, special_rearranged h hpage,
      hresolve.trans hprojection, derivedFrom_rearranged h hfrom, ?_, rfl⟩
    rwa [Option.isNone_map]
  | some text =>
    obtain ⟨sort, page, projection, shape, template, source, hsort, hpage, hprojection, hexplicit,
      hpaged, rfl⟩ := (compile_eq_ok_iff_explicit hquery).mp hcompile
    have hsource := (compileExplicit_eq_ok hexplicit).2
    rw [compile_eq_ok_iff_explicit (hquery'.trans hquery)]
    refine ⟨_, _, projection, shape, template, source, special_rearranged h hsort,
      special_rearranged h hpage, hresolve.trans hprojection,
      (compileExplicit_rearranged h text).trans hexplicit, ?_, ?_⟩
    · rwa [Option.isNone_map]
    · rw [hsource]
      rfl

end CompiledQuery

/-! ### Binding -/

namespace CompiledQuery

variable {sig sig' : Signature} {s : EntitySchema} {q : CompiledQuery} {args args' : List Argument}
  {maxInSet : Nat} {spec : Specification}

theorem fitsAll_rearranged {kinds kinds' : List ParameterKind} (hargs : Rearranged e args args')
    (hkinds : Rearranged e kinds kinds') (h : fitsAll args kinds = true) :
    fitsAll args' kinds' = true := by
  rw [fitsAll_iff] at h ⊢
  intro i
  rw [← e.apply_symm_apply i, hargs, hkinds]
  exact h (e.symm i)

theorem valueArguments_rearranged (h : q.signature.Rearranges e sig')
    (hargs : Rearranged e args args') :
    (q.rearranged e sig').valueArguments args' = q.valueArguments args := by
  unfold valueArguments
  rw [signature_rearranged, h.valueIndices_eq, List.filterMap_map]
  exact congrArg (q.signature.valueIndices.filterMap ·) hargs.comp

theorem bindSource_rearranged (h : q.signature.Rearranges e sig') (hargs : Rearranged e args args') :
    (q.rearranged e sig').bindSource args' maxInSet = q.bindSource args maxInSet := by
  unfold bindSource
  rw [valueArguments_rearranged h hargs, signature_rearranged, h.name_eq]
  unfold rearranged
  cases q.source with
  | derived t slots =>
    have hagree : AgreeOnSlots e slots args args' := fun _ _ i _ => hargs i
    simp only [Predicate.build_renumbered hagree]
  | explicit template limit => rfl

theorem bind_getElem?_map (hargs : Rearranged e args args') (position : Option Nat) :
    (position.map e).bind (args'[·]?) = position.bind (args[·]?) := by
  cases position with
  | none => rfl
  | some i => exact hargs i

theorem bind_rearranged (h : q.signature.Rearranges e sig') (hargs : Rearranged e args args')
    (hbind : q.bind args maxInSet = .ok spec) :
    (q.rearranged e sig').bind args' maxInSet = .ok spec := by
  have hsort : (q.rearranged e sig').sortArgument? args' = q.sortArgument? args := by
    unfold sortArgument? rearranged
    dsimp only
    rw [bind_getElem?_map hargs]
  have hpage : (q.rearranged e sig').pageArgument? args' = q.pageArgument? args := by
    unfold pageArgument? rearranged
    dsimp only
    rw [bind_getElem?_map hargs]
  obtain ⟨hcheck, source, sort, hsource, hbound, hlength, rfl⟩ := bind_ok_iff.mp hbind
  refine bind_ok_iff.mpr ⟨?_, source, sort, ?_, ?_, hlength, ?_⟩
  · rw [checkArguments_eq_ok_iff] at hcheck ⊢
    exact fitsAll_rearranged hargs h.params hcheck
  · rw [bindSource_rearranged h hargs, hsource]
  · unfold boundSort at hbound ⊢
    rw [hsort, hpage, signature_rearranged, h.name_eq]
    exact hbound
  · unfold specified
    rw [hpage, signature_rearranged, h.name_eq]
    rfl

end CompiledQuery

/-! ### Values of criteria -/

def Argument.isSpecial : Argument → Bool
  | .sort _ | .page _ => true
  | _ => false

theorem Argument.isSpecial_of_fits {arg : Argument} {kind : ParameterKind}
    (h : arg.fits kind = true) : arg.isSpecial = kind.isSpecial := by
  cases arg with
  | shape s => cases s <;> cases kind <;> simp_all [fits, isSpecial, ParameterKind.isSpecial]
  | _ => cases kind <;> simp_all [fits, isSpecial, ParameterKind.isSpecial]

def Specification.criteria (spec : Specification) : List Criterion :=
  spec.predicate.elim [] Predicate.criteria

namespace CompiledQuery

variable {sig sig' : Signature} {s : EntitySchema} {q : CompiledQuery} {args : List Argument}
  {maxInSet : Nat} {spec : Specification}

theorem filterMap_valueIndicesFrom {kinds : List ParameterKind} (h : fitsAll args kinds = true)
    (start : Nat) :
    ((Signature.valueIndicesFrom start kinds).filterMap fun i => args[i - start]?)
      =
    args.filter fun arg => !arg.isSpecial := by
  induction args generalizing kinds start with
  | nil => simp
  | cons arg args ih =>
    cases kinds with
    | nil => contradiction
    | cons kind kinds =>
      rw [fitsAll, Bool.and_eq_true] at h
      have hrest : ((Signature.valueIndicesFrom (start + 1) kinds).filterMap
          fun i => (arg :: args)[i - start]?) = args.filter fun arg => !arg.isSpecial := by
        rw [← ih h.2 (start + 1)]
        apply List.filterMap_congr
        intro i hi
        exact Signature.getElem?_cons_sub hi arg args
      rw [Signature.valueIndicesFrom, List.filter_cons, Argument.isSpecial_of_fits h.1]
      split
      next hspecial => rw [hrest, hspecial]; rfl
      next hspecial =>
        rw [List.filterMap_cons, hrest, Nat.sub_self]
        simp [hspecial]

theorem valueArguments_eq_filter (haccepts : q.accepts args = true) :
    q.valueArguments args = args.filter fun arg => !arg.isSpecial :=
  filterMap_valueIndicesFrom haccepts 0

theorem flatMap_values_criterion (args : List Argument) (placed : List PlacedClause) :
    (placed.map (PlacedClause.criterion args)).flatMap Criterion.values
      =
    (placed.map Prod.snd).flatten.filterMap (args[·]?) := by
  rw [List.filterMap_flatten, List.map_map, List.flatMap_map, ← List.flatMap_def]
  rfl

theorem flatMap_values_criteria {t : PartTree} {slots : List (List Nat)}
    (hcompile : compile sig s = .ok q) (hsource : q.source = .derived t slots)
    (hbind : q.bind args maxInSet = .ok spec) :
    spec.criteria.flatMap Criterion.values = args.filter fun arg => !arg.isSpecial := by
  obtain ⟨-, hslots⟩ := derived_of_compile_eq_ok hcompile hsource
  obtain ⟨hbuild, -⟩ := bind_derived_eq_ok hsource hbind
  obtain ⟨placed, hgroups, hgiven, hpredicate, -⟩ := Predicate.build_eq_ok hbuild
  have hplaced := isPlaced_of_bind hslots hgroups hgiven
  have hcriteria : spec.criteria = placed.flatten.map (PlacedClause.criterion args) := by
    rw [Specification.criteria, hpredicate, ← Predicate.criteria_disjoin_ofGroup]
    cases placed <;> rfl
  obtain ⟨hcheck, -⟩ := bind_ok_iff.mp hbind
  rw [checkArguments_eq_ok_iff] at hcheck
  rw [hcriteria, flatMap_values_criterion, hplaced.slotsInOrder, hplaced.positions,
    ← valueArguments_eq_filter hcheck, valueArguments, (compile_eq_ok hcompile).1]

/--
Methods whose sort and page parameters stand at different positions compile alike, and their calls
are bound to the same. The criteria hold the arguments that are neither sorts nor pages, in order.
-/
theorem bind_iff_of_rearranges (h : sig.Rearranges e sig') :
    ((∃ q, compile sig s = .ok q) ↔ ∃ q', compile sig' s = .ok q')
      ∧
    ∀ q q', compile sig s = .ok q → compile sig' s = .ok q' →
      (∀ args args' maxInSet spec, Rearranged e args args' →
        (q.bind args maxInSet = .ok spec ↔ q'.bind args' maxInSet = .ok spec))
        ∧
      (∀ t slots args maxInSet spec, q.source = .derived t slots →
        q.bind args maxInSet = .ok spec →
        spec.criteria.flatMap Criterion.values = args.filter fun arg => !arg.isSpecial) := by
  have hbind {sig sig' : Signature} {e : Equiv.Perm Nat} (h : sig.Rearranges e sig')
      {q q' : CompiledQuery} (hq : compile sig s = .ok q) (hq' : compile sig' s = .ok q')
      {args args' : List Argument} (hargs : Rearranged e args args') {maxInSet : Nat}
      {spec : Specification} (hbind : q.bind args maxInSet = .ok spec) :
      q'.bind args' maxInSet = .ok spec := by
    rw [compile_rearranged h hq, Except.ok.injEq] at hq'
    rw [← hq']
    rw [← (compile_eq_ok hq).1] at h
    exact bind_rearranged h hargs hbind
  refine ⟨⟨?_, ?_⟩, ?_⟩
  · rintro ⟨q, hq⟩
    exact ⟨_, compile_rearranged h hq⟩
  · rintro ⟨q', hq'⟩
    exact ⟨_, compile_rearranged h.symm hq'⟩
  · intro q q' hq hq'
    refine ⟨?_, ?_⟩
    · intro args args' maxInSet spec hargs
      exact ⟨hbind h hq hq' hargs, hbind h.symm hq' hq hargs.symm⟩
    · intro t slots args maxInSet spec hsource
      exact flatMap_values_criteria hq hsource

def personsByAge : Signature where
  entity := "Person"
  name := "findByAgeBetween"
  params := [.value, .page, .value]

def personsByAgeOnPage : Signature :=
  { personsByAge with params := [.page, .value, .value] }

theorem rearranged_swap {α : Type} (a b : α) (l : List α) :
    Rearranged (Equiv.swap 0 1) (a :: b :: l) (b :: a :: l) := by
  intro i
  match i with
  | 0 => rfl
  | 1 => rfl
  | i + 2 =>
    rw [Equiv.swap_apply_of_ne_of_ne (by omega) (by omega)]
    rfl

def ageArguments : List Argument :=
  [.value (.int32 20), .page ⟨0, 5, none, by decide⟩, .value (.int32 40)]

def ageArgumentsOnPage : List Argument :=
  [.page ⟨0, 5, none, by decide⟩, .value (.int32 20), .value (.int32 40)]

theorem bind_iff_of_rearranges_person :
    personsByAge.Rearranges (Equiv.swap 0 1) personsByAgeOnPage
      ∧
    Rearranged (Equiv.swap 0 1) ageArguments ageArgumentsOnPage
      ∧
    ∃ q q' spec,
      compile personsByAge PartTree.person = .ok q
        ∧
      compile personsByAgeOnPage PartTree.person = .ok q'
        ∧
      q.bind ageArguments 1000 = .ok spec
        ∧
      q'.bind ageArgumentsOnPage 1000 = .ok spec
        ∧
      spec.criteria.flatMap Criterion.values = ageArguments.filter fun arg => !arg.isSpecial := by
  have hrearranges : personsByAge.Rearranges (Equiv.swap 0 1) personsByAgeOnPage :=
    ⟨rfl, rearranged_swap ParameterKind.value .page [.value], by decide⟩
  have hargs : Rearranged (Equiv.swap 0 1) ageArguments ageArgumentsOnPage :=
    rearranged_swap _ _ _
  have hbinds : binds personsByAge PartTree.person ageArguments 1000 (fun _ => true) = true := by
    decide +kernel
  obtain ⟨q, spec, hq, hbind, -⟩ := exists_of_binds hbinds
  obtain ⟨t, slots, hsource⟩ := exists_derived_of_compile_eq_ok hq rfl
  obtain ⟨hcompiles, hcalls⟩ := bind_iff_of_rearranges hrearranges (s := PartTree.person)
  obtain ⟨q', hq'⟩ := hcompiles.mp ⟨q, hq⟩
  obtain ⟨hiff, hvalues⟩ := hcalls q q' hq hq'
  exact ⟨hrearranges, hargs, q, q', spec, hq, hq', hbind, (hiff _ _ 1000 spec hargs).mp hbind,
    hvalues t slots ageArguments 1000 spec hsource hbind⟩

end CompiledQuery

end DerivedQuery
