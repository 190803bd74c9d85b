import DerivedQuery.Proofs.Method.Lead
import DerivedQuery.Proofs.Query.Faults

/-!
This module contains that methods whose names differ in their leads compile alike, and that their
calls are bound to the same filter.
-/

namespace DerivedQuery

/-! ### The name of the method -/

theorem Criterion.toOption_check (c : Criterion) (method other : String) (maxInSet : Nat) :
    (c.check method maxInSet).toOption = (c.check other maxInSet).toOption := by
  unfold check
  cases c.operator.operand with
  | none => rfl
  | single | pair | sequence => simp only [toOption_mapError]
  | point => cases nearShape? c.values <;> rfl
  | area => cases areaShape? c.values <;> rfl

namespace Predicate

variable (method other : String) (args : List Argument) (maxInSet : Nat)

theorem toOption_buildGroup (clauses : List Clause) (slots : List (List Nat)) :
    (buildGroup method args maxInSet clauses slots).toOption
      =
    (buildGroup other args maxInSet clauses slots).toOption := by
  induction clauses generalizing slots with
  | nil => rfl
  | cons clause clauses ih =>
    cases slots with
    | nil => rfl
    | cons slot slots =>
      rw [buildGroup, buildGroup]
      simp only [toOption_bind]
      rw [Criterion.toOption_check _ method other, ih]

theorem toOption_buildGroups (groups : List (List Clause)) (slots : List (List Nat)) :
    (buildGroups method args maxInSet groups slots).toOption
      =
    (buildGroups other args maxInSet groups slots).toOption := by
  induction groups generalizing slots with
  | nil => rfl
  | cons group groups ih =>
    rw [buildGroups, buildGroups]
    simp only [toOption_bind, ih]
    rw [toOption_buildGroup method other]

theorem toOption_build {t t' : PartTree} (h : t'.groups = t.groups) (slots : List (List Nat)) :
    (build t' slots args maxInSet).toOption = (build t slots args maxInSet).toOption := by
  rw [build, build, h]
  simp only [toOption_bind]
  rw [toOption_buildGroups t'.method t.method]

end Predicate

theorem PropertyPath.toOption_resolveDotted (s : EntitySchema) (dotted method other : String) :
    (resolveDotted s dotted method).toOption = (resolveDotted s dotted other).toOption := by
  unfold resolveDotted
  split <;> rfl

def Signature.renamed (sig : Signature) (name : String) (returns : Option ResultShape) : Signature :=
  { sig with name, returns }

theorem Slots.toOption_bind_renamed (sig : Signature) (name : String) (returns : Option ResultShape)
    {t t' : PartTree} (h : t'.groups = t.groups) :
    (bind (sig.renamed name returns) t').toOption = (bind sig t).toOption := by
  have hclauses : t'.clauses = t.clauses := congrArg List.flatten h
  have hnumbered : numbered (sig.renamed name returns) = numbered sig := rfl
  unfold bind
  rw [hclauses, hnumbered]
  split <;> rfl

def Specification.reshaped (spec : Specification) (method : String) (shape : ResultShape)
    (limit : Option Nat) : Specification :=
  { spec with method, shape, limit }

namespace CompiledQuery

theorem toOption_resolveSort (s : EntitySchema) (method other : String) (keys : SortKeys) :
    (resolveSort s method keys).toOption = (resolveSort s other keys).toOption := by
  unfold resolveSort
  rw [toOption_mapM, toOption_mapM]
  congr 1
  funext key
  split
  · rfl
  · simp only [toOption_bind, PropertyPath.toOption_resolveDotted s key.field method other]

section

variable (sig : Signature) (name : String) (returns : Option ResultShape)

theorem toOption_special_renamed (kind : ParameterKind) :
    (special (sig.renamed name returns) kind).toOption = (special sig kind).toOption := by
  unfold special Signature.renamed
  dsimp only
  split <;> rfl

theorem toOption_resolveProjection_renamed (s : EntitySchema) :
    (resolveProjection (sig.renamed name returns) s).toOption
      =
    (resolveProjection sig s).toOption := by
  have hfield : ∀ field, (projectedField (sig.renamed name returns) s field).toOption
      = (projectedField sig s field).toOption := by
    intro field
    unfold projectedField Signature.renamed
    dsimp only
    split
    · rw [toOption_bind, toOption_bind, PropertyPath.toOption_resolveDotted s field name sig.name]
    · rw [toOption_bind, toOption_bind, PropertyPath.toOption_resolve s name sig.name]
  unfold resolveProjection
  have hprojection : (sig.renamed name returns).projection = sig.projection := rfl
  rw [hprojection]
  split
  · rfl
  · split
    · rfl
    · simp only [toOption_bind, toOption_mapM, hfield]

theorem checkRanking_renamed {t t' : PartTree} (hgroups : t'.groups = t.groups)
    {slots : List (List Nat)} {shape shape' : ResultShape}
    (hshape' : shape'.isDistanceRanked = false) (h : checkRanking sig t slots shape = .ok ()) :
    checkRanking (sig.renamed name returns) t' slots shape' = .ok () := by
  have hclauses : t'.clauses = t.clauses := congrArg List.flatten hgroups
  unfold checkRanking at h ⊢
  rw [hclauses, hgroups, hshape']
  dsimp only at h ⊢
  split at h
  next => contradiction
  next hseveral =>
    split at h
    next => contradiction
    next hor =>
      rw [if_neg hseveral, if_neg hor]
      simp

end

/-! ### Compilation -/

variable {sig : Signature} {s : EntitySchema} {q : CompiledQuery}

theorem DerivedFrom.renamed {t t' : PartTree} {slots : List (List Nat)} {shape shape' : ResultShape}
    (h : DerivedFrom sig s t slots shape) {name : String} {returns : Option ResultShape}
    (hread : PartTree.read name s = .ok t') (hsame : PartTree.SameClauses t t')
    (hreturns : resultShape (sig.renamed name returns) t'.kind = .ok shape')
    (hshape' : shape'.isDistanceRanked = false) :
    DerivedFrom (sig.renamed name returns) s t' slots shape' where
  read := hread
  orderBy := by
    rw [hsame.orderBy_eq]
    exact h.orderBy
  shape := hreturns
  bind :=
    eq_ok_of_toOption_eq (Slots.toOption_bind_renamed sig name returns hsame.groups_eq) h.bind
  ranking := checkRanking_renamed sig name returns hsame.groups_eq hshape' h.ranking

/--
The methods have the same clauses and the same order. They may differ in their names, in what they
declare to hand back, and in their limits.
-/
structure Alike (q q' : CompiledQuery) (limit : Option Nat) : Prop where
  signature_eq : q'.signature = q.signature.renamed q'.signature.name q'.signature.returns
  projection_eq : q'.projection = q.projection
  sortParameter_eq : q'.sortParameter = q.sortParameter
  pageParameter_eq : q'.pageParameter = q.pageParameter
  schema_eq : q'.schema = q.schema
  source : ∃ t t' slots,
    q.source = .derived t slots ∧ q'.source = .derived t' slots ∧ PartTree.SameClauses t t'
      ∧ t'.limit = limit

open PartTree (IsLead nameOf)

theorem exists_compile_nameOf {verb verb' : String} {subject subject' tail : List Char}
    {kind kind' : QueryKind} {limit limit' : Option Nat} (hquery : sig.query = none)
    (hname : sig.name = nameOf verb subject tail) (hcompile : compile sig s = .ok q)
    (h : IsLead verb subject kind limit) (h' : IsLead verb' subject' kind' limit')
    (returns : Option ResultShape) {shape : ResultShape}
    (hreturns : resultShape (sig.renamed (nameOf verb' subject' tail) returns) kind' = .ok shape)
    (hranked : shape.isDistanceRanked = false) (hpaged : shape.isPaged = false) :
    ∃ q', compile (sig.renamed (nameOf verb' subject' tail) returns) s = .ok q'
      ∧ q'.shape = shape ∧ Alike q q' limit' := by
  obtain ⟨sort, page, projection, _, t, slots, hsort, hpage, hprojection, hfrom, -, rfl⟩ :=
    (compile_eq_ok_iff_derived hquery).mp hcompile
  have hread := hfrom.read
  rw [hname] at hread
  obtain ⟨t', hread', hkind, hlimit, hsame⟩ := PartTree.exists_read_nameOf h h' hread
  rw [← hkind] at hreturns
  have hfrom' := hfrom.renamed hread' hsame hreturns hranked
  refine ⟨⟨sig.renamed (nameOf verb' subject' tail) returns, shape, .derived t' slots, projection,
    sort, page, s⟩, ?_, rfl, ⟨rfl, rfl, rfl, rfl, rfl, t, t', slots, rfl, rfl, hsame, hlimit⟩⟩
  have hquery' : (sig.renamed (nameOf verb' subject' tail) returns).query = none := hquery
  rw [compile_eq_ok_iff_derived hquery']
  refine ⟨sort, page, projection, shape, t', slots, ?_, ?_, ?_, hfrom', ?_, rfl⟩
  · exact eq_ok_of_toOption_eq (toOption_special_renamed sig _ _ .sort) hsort
  · exact eq_ok_of_toOption_eq (toOption_special_renamed sig _ _ .page) hpage
  · exact eq_ok_of_toOption_eq (toOption_resolveProjection_renamed sig _ _ s) hprojection
  · simp [hpaged]

/-! ### Binding -/

variable {q' : CompiledQuery} {limit : Option Nat} {args : List Argument} {maxInSet : Nat}
  {spec : Specification}

theorem Alike.bind (h : Alike q q' limit) (hbind : q.bind args maxInSet = .ok spec) :
    q'.bind args maxInSet
      =
    .ok (spec.reshaped q'.signature.name q'.shape limit) := by
  obtain ⟨t, t', slots, hsource, hsource', hsame, hlimit⟩ := h.source
  have hparams : q'.signature.params = q.signature.params := by
    rw [h.signature_eq]
    rfl
  obtain ⟨hcheck, source, sort, hbound, hsort, hlength, rfl⟩ := bind_ok_iff.mp hbind
  have hpage : q'.pageArgument? args = q.pageArgument? args := by
    unfold pageArgument?
    rw [h.pageParameter_eq]
  have hsortArgument : q'.sortArgument? args = q.sortArgument? args := by
    unfold sortArgument?
    rw [h.sortParameter_eq]
  refine bind_ok_iff.mpr ⟨?_, { source with limit := limit }, sort, ?_, ?_, hlength, ?_⟩
  · rw [checkArguments_eq_ok_iff] at hcheck ⊢
    unfold accepts at hcheck ⊢
    rw [hparams]
    exact hcheck
  · unfold bindSource at hbound ⊢
    rw [hsource, bind_eq_ok_iff] at hbound
    obtain ⟨predicate, hbuild, heq⟩ := hbound
    cases heq
    rw [hsource', bind_eq_ok_iff]
    refine ⟨predicate,
      eq_ok_of_toOption_eq (Predicate.toOption_build args maxInSet hsame.groups_eq slots) hbuild, ?_⟩
    rw [PartTree.sort?, PartTree.sort?, hsame.orderBy_eq, hlimit]
    rfl
  · unfold boundSort at hsort ⊢
    rw [hsortArgument, hpage, h.schema_eq]
    split at hsort
    · rw [map_eq_pure_bind, bind_eq_ok_iff] at hsort ⊢
      obtain ⟨keys, hkeys, hsome⟩ := hsort
      exact ⟨keys, eq_ok_of_toOption_eq (toOption_resolveSort _ _ _ _) hkeys, hsome⟩
    · exact hsort
  · unfold specified Specification.reshaped
    rw [hpage, h.projection_eq]

end CompiledQuery
end DerivedQuery
