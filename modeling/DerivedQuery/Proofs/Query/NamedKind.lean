import DerivedQuery.Proofs.Method.PartTree
import DerivedQuery.Proofs.Query.Compiled

/-!
This module contains that a query text leaves the kind of a method, and with it the shape of its
result, as the name says. A name whose words are joined by underscores is looked at before it is put
into its one form: with a query text it searches, whatever its verb.
-/

namespace DerivedQuery
namespace CompiledQuery

open PartTree (afterVerb?)

variable {sig : Signature} {s : EntitySchema} {t : PartTree} {name : List Char} {text : String}

/-! ### The kind of a name -/

theorem find_or_looked_at : ∀ verb ∈ PartTree.verbs,
    verb.2 = .find ∨ verb = ("count", .count) ∨ verb = ("exists", .exists_) := by
  decide

theorem kindOfName_of_afterVerb? {verb : String × QueryKind} {rest : List Char}
    (hverb : verb ∈ PartTree.verbs) (h : afterVerb? verb.1 name = some rest) :
    kindOfName name = verb.2 := by
  have honly : ∀ other ∈ PartTree.verbs, (afterVerb? other.1 name).isSome = true →
      verb = other := by
    intro other hother hsome
    obtain ⟨rest', h'⟩ := Option.isSome_iff_exists.mp hsome
    rw [PartTree.afterVerb?_eq_some_iff] at h h'
    exact PartTree.verb_unique hverb hother (h.1.symm.trans h'.1)
  unfold kindOfName
  split
  next hcount => rw [honly ("count", .count) (by decide) hcount]
  next hcount =>
    split
    next hexists => rw [honly ("exists", .exists_) (by decide) hexists]
    next hexists =>
      rcases find_or_looked_at verb hverb with hfind | rfl | rfl
      · exact hfind.symm
      · exact absurd (Option.isSome_of_eq_some h) hcount
      · exact absurd (Option.isSome_of_eq_some h) hexists

theorem afterVerb?_of_not_isUpper (verb : String) (h : name.any Char.isUpper = false) :
    afterVerb? verb name = none := by
  rw [Option.eq_none_iff_forall_ne_some]
  intro rest hafter
  obtain ⟨rfl, hcapital⟩ := PartTree.afterVerb?_eq_some_iff.mp hafter
  rw [List.any_append, Bool.or_eq_false_iff] at h
  cases rest with
  | nil => contradiction
  | cons c rest =>
    have hupper : c.isUpper = true := hcapital
    simp [hupper] at h

theorem kindOfName_of_not_isUpper (h : name.any Char.isUpper = false) :
    kindOfName name = .find := by
  unfold kindOfName
  rw [afterVerb?_of_not_isUpper _ h, afterVerb?_of_not_isUpper _ h]
  rfl

theorem kindOfName_normalizeChars {method : String} (h : PartTree.read method s = .ok t) :
    kindOfName (MethodName.normalizeChars method.toList) = t.kind := by
  obtain ⟨p, hread⟩ := PartTree.read_eq_ok_iff.mp h
  obtain ⟨hverb, hafter⟩ := PartTree.afterVerb?_of_readVerb_eq_ok hread.verb
  exact kindOfName_of_afterVerb? hverb hafter

def KeepsKind (method : String) (kind : QueryKind) : Prop :=
  MethodName.normalize method = method ∨ kind = .find

theorem kindOfName_eq_kind_iff {method : String} (h : PartTree.read method s = .ok t) :
    kindOfName method.toList = t.kind ↔ KeepsKind method t.kind := by
  have hkind := kindOfName_normalizeChars h
  unfold KeepsKind MethodName.normalize
  rw [← String.toList_inj, String.toList_ofList]
  by_cases hupper : method.toList.any Char.isUpper = true
  · have hsame := MethodName.normalizeChars_of_isUpper hupper
    rw [hsame] at hkind
    exact iff_of_true hkind (.inl hsame)
  · rw [Bool.not_eq_true] at hupper
    have hfind := kindOfName_of_not_isUpper hupper
    constructor
    · intro heq
      exact .inr (heq.symm.trans hfind)
    · rintro (hsame | hsearch)
      · rw [← hkind, hsame]
      · rw [hfind, hsearch]

/-! ### The shape of the result -/

theorem resultShape_of_compile_query {q : CompiledQuery}
    (h : compile { sig with query := some text } s = .ok q) :
    resultShape sig (kindOfName sig.name.toList) = .ok q.shape := by
  obtain ⟨_, _, _, shape, _, _, -, -, -, hexplicit, -, rfl⟩ := (compile_eq_ok_iff_explicit rfl).mp h
  exact (compileExplicit_eq_ok_iff.mp hexplicit).2.1

theorem exists_compile_query {q : CompiledQuery} {template : Template}
    (h : compile { sig with query := none } s = .ok q)
    (htemplate : Template.compile sig.name text sig.fields sig.valueIndices.length = .ok template)
    (hranked : q.shape.isDistanceRanked = false)
    (hshape : resultShape sig (kindOfName sig.name.toList) = .ok q.shape) :
    ∃ q', compile { sig with query := some text } s = .ok q' ∧ q'.shape = q.shape := by
  obtain ⟨sort, page, projection, shape, _, _, hsort, hpage, hprojection, -, hpaged, rfl⟩ :=
    (compile_eq_ok_iff_derived rfl).mp h
  have hexplicit : compileExplicit { sig with query := some text } s text
      = .ok (template, .explicit template (limitOfName sig s), shape) :=
    compileExplicit_eq_ok_iff.mpr ⟨htemplate, hshape, ne_true_of_eq_false hranked, rfl⟩
  exact ⟨_, (compile_eq_ok_iff_explicit rfl).mpr
    ⟨sort, page, projection, shape, template, _, hsort, hpage, hprojection, hexplicit, hpaged, rfl⟩,
    rfl⟩

/--
With a query text a method is of the kind that is read from its name exactly if the name is in its
one form or searches. Then the shape is the one for this kind, and a method that compiles from its
name compiles to the same shape with a query text.
-/
theorem kindOfName_eq_kind_iff_and_shape_eq (h : PartTree.read sig.name s = .ok t) :
    (kindOfName sig.name.toList = t.kind ↔ KeepsKind sig.name t.kind)
      ∧
    (KeepsKind sig.name t.kind →
      ∀ text,
        (∀ q, compile { sig with query := some text } s = .ok q →
          resultShape sig t.kind = .ok q.shape)
          ∧
        ∀ q template, compile { sig with query := none } s = .ok q →
          Template.compile sig.name text sig.fields sig.valueIndices.length = .ok template →
          q.shape.isDistanceRanked = false →
          ∃ q', compile { sig with query := some text } s = .ok q' ∧ q'.shape = q.shape) := by
  refine ⟨kindOfName_eq_kind_iff h, ?_⟩
  intro hkeeps text
  have hkind := (kindOfName_eq_kind_iff h).mpr hkeeps
  constructor
  · intro q hcompile
    rw [← hkind]
    exact resultShape_of_compile_query hcompile
  · intro q template hcompile htemplate hranked
    apply exists_compile_query hcompile htemplate hranked
    obtain ⟨_, _, _, _, t', _, -, -, -, hfrom, -, rfl⟩ :=
      (compile_eq_ok_iff_derived rfl).mp hcompile
    have htree : t = t' := Except.ok.inj (h.symm.trans hfrom.read)
    rw [hkind, htree]
    exact hfrom.shape

def byBrand (name : String) : Signature :=
  { name := name, params := [.value] }

def brandText : String := "\x7b 'brand': ?0 \x7d"

theorem kindOfName_eq_kind_iff_and_shape_eq_countByBrand :
    ∃ t q q',
      PartTree.read "countByBrand" PartTree.person = .ok t
        ∧
      kindOfName "countByBrand".toList = t.kind
        ∧
      compile (byBrand "countByBrand") PartTree.person = .ok q
        ∧
      compile { byBrand "countByBrand" with query := some brandText } PartTree.person = .ok q'
        ∧
      q'.shape = q.shape := by
  have hread : (PartTree.read "countByBrand" PartTree.person).toOption.isSome = true := by
    decide +kernel
  obtain ⟨t, h⟩ := exists_eq_ok_of_isSome hread
  have hcompile : ((compile (byBrand "countByBrand") PartTree.person).toOption.map (·.shape))
      = some .count := by
    decide +kernel
  obtain ⟨q, hq, hshape⟩ := Option.map_eq_some_iff.mp hcompile
  have htemplate : (Template.compile "countByBrand" brandText none 1).toOption.isSome = true := by
    decide +kernel
  obtain ⟨template, ht⟩ := exists_eq_ok_of_isSome htemplate
  have hkeeps : KeepsKind "countByBrand" t.kind := .inl (by decide)
  have hname : PartTree.read (byBrand "countByBrand").name PartTree.person = .ok t := h
  obtain ⟨hkind, hcompiles⟩ := kindOfName_eq_kind_iff_and_shape_eq hname
  obtain ⟨q', hq', hsame⟩ := (hcompiles hkeeps brandText).2 q template
    (toOption_eq_some_iff.mp hq) ht (by rw [hshape]; rfl)
  exact ⟨t, q, q', h, hkind.mpr hkeeps, toOption_eq_some_iff.mp hq, hq', hsame⟩

/--
A method that counts lists what it finds once it has a query text.
-/
theorem kindOfName_count_by_brand_ne :
    ∃ t q q',
      PartTree.read "count_by_brand" PartTree.person = .ok t
        ∧
      compile (byBrand "count_by_brand") PartTree.person = .ok q
        ∧
      compile { byBrand "count_by_brand" with query := some brandText } PartTree.person = .ok q'
        ∧
      t.kind = .count ∧ kindOfName "count_by_brand".toList = .find
        ∧
      q.shape = .count ∧ q'.shape = .list := by
  have hread : ((PartTree.read "count_by_brand" PartTree.person).toOption.map (·.kind))
      = some .count := by
    decide +kernel
  have hderived : ((compile (byBrand "count_by_brand") PartTree.person).toOption.map (·.shape))
      = some .count := by
    decide +kernel
  have hexplicit : ((compile { byBrand "count_by_brand" with query := some brandText }
      PartTree.person).toOption.map (·.shape)) = some .list := by
    decide +kernel
  obtain ⟨t, ht, hkind⟩ := Option.map_eq_some_iff.mp hread
  obtain ⟨q, hq, hshape⟩ := Option.map_eq_some_iff.mp hderived
  obtain ⟨q', hq', hshape'⟩ := Option.map_eq_some_iff.mp hexplicit
  exact ⟨t, q, q', toOption_eq_some_iff.mp ht, toOption_eq_some_iff.mp hq,
    toOption_eq_some_iff.mp hq', hkind, by decide, hshape, hshape'⟩

end CompiledQuery
end DerivedQuery
