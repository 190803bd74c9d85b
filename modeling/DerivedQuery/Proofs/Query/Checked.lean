import DerivedQuery.Proofs.Query.Near

/-!
This module contains what the check of a clause against its arguments guarantees, one case for each
kind of operand, and that the arguments of operators that match text are texts.
-/

namespace DerivedQuery

theorem Value.isOrdered_of_compare? {low high : Value} {o : Ordering}
    (h : low.compare? high = some o) :
    Criterion.isOrdered low = true ∧ Criterion.isOrdered high = true := by
  unfold compare? at h
  cases low <;> cases high <;> simp_all [number?, Criterion.isOrdered]

namespace Criterion

variable {c : Criterion} {method : String} {maxInSet : Nat}

def Checked (c : Criterion) (maxInSet : Nat) : Prop :=
  match c.operator.operand with
  | .none => True
  | .single =>
    ∃ v, c.value? 0 = some v ∧ (c.operator.isRange = true → isOrdered v = true)
      ∧ (c.matchesText = true →
          ∃ s, v = .string s ∧ (c.operator = .regex → Pattern.isValid s = true))
  | .pair =>
    ∃ low high, c.value? 0 = some low ∧ c.value? 1 = some high
      ∧ isOrdered low = true ∧ isOrdered high = true
  | .sequence => ∃ items, c.value? 0 = some (.array items) ∧ items.length ≤ maxInSet
  | .point => ∃ shape, nearShape? c.values = some shape ∧ shape.validate = .ok ()
  | .area => ∃ shape, c.values = [.shape shape] ∧ shape.validate = .ok ()

theorem matchesText_of_isRange (h : c.operator.isRange = true) : c.matchesText = false := by
  unfold matchesText
  cases hop : c.operator <;> simp_all [Operator.isPattern, Operator.isRange]

theorem checkText_eq_ok_iff {v : Value} :
    c.checkText v = .ok ()
      ↔
    ∃ s, v = .string s ∧ (c.operator = .regex → Pattern.isValid s = true) := by
  unfold checkText
  split
  next s => simp
  next hstring =>
    constructor
    · intro h
      contradiction
    · rintro ⟨s, rfl, -⟩
      exact absurd rfl (hstring s)

theorem checkSingle_eq_ok_iff {v : Value} (hvalue : c.value? 0 = some v) :
    c.checkSingle = .ok ()
      ↔
    (c.matchesText = true → c.checkText v = .ok ())
      ∧
    (c.matchesText = false →
      (c.operator.isRange = true → isOrdered v = true) ∧ c.checkType v = .ok ()) := by
  rw [checkSingle, hvalue]
  dsimp only
  cases c.matchesText with
  | true => simp
  | false => cases c.operator.isRange <;> cases isOrdered v <;> simp

theorem exists_value_of_checkSingle (h : c.checkSingle = .ok ()) :
    ∃ v, c.value? 0 = some v ∧ (c.operator.isRange = true → isOrdered v = true)
      ∧ (c.matchesText = true →
          ∃ s, v = .string s ∧ (c.operator = .regex → Pattern.isValid s = true)) := by
  cases hvalue : c.value? 0 with
  | none =>
    rw [checkSingle, hvalue] at h
    contradiction
  | some v =>
    rw [checkSingle_eq_ok_iff hvalue] at h
    refine ⟨v, rfl, fun hrange => ?_, fun htext => checkText_eq_ok_iff.mp (h.1 htext)⟩
    exact (h.2 (matchesText_of_isRange hrange)).1 hrange

theorem exists_bounds_of_checkPair (h : c.checkPair = .ok ()) :
    ∃ low high, c.value? 0 = some low ∧ c.value? 1 = some high
      ∧ isOrdered low = true ∧ isOrdered high = true := by
  unfold checkPair at h
  split at h
  next low high hlow hhigh =>
    split at h
    next => contradiction
    next hcomparable =>
      simp only [Bool.or_eq_true, not_or, Option.isNone_iff_eq_none] at hcomparable
      obtain ⟨o, ho⟩ := Option.ne_none_iff_exists'.mp hcomparable.2
      exact ⟨low, high, hlow, hhigh, Value.isOrdered_of_compare? ho⟩
  next => contradiction

theorem exists_items_of_checkSequence (h : c.checkSequence maxInSet = .ok ()) :
    ∃ items, c.value? 0 = some (.array items) ∧ items.length ≤ maxInSet := by
  unfold checkSequence at h
  split at h
  next items hitems =>
    split at h
    next => contradiction
    next hlength => exact ⟨items, hitems, Nat.le_of_not_lt hlength⟩
  next => contradiction

theorem exists_shape_of_checkShape {missing : ClauseFault} {shape? : Option Shape}
    (h : checkShape method missing shape? = .ok ()) :
    ∃ shape, shape? = some shape ∧ shape.validate = .ok () := by
  cases shape? with
  | none => contradiction
  | some shape => exact ⟨shape, rfl, mapError_eq_ok_iff.mp h⟩

theorem checked_of_check (h : c.check method maxInSet = .ok ()) : c.Checked maxInSet := by
  unfold check at h
  unfold Checked
  cases hoperand : c.operator.operand with
  | none => trivial
  | single =>
    rw [hoperand] at h
    exact exists_value_of_checkSingle (mapError_eq_ok_iff.mp h)
  | pair =>
    rw [hoperand] at h
    exact exists_bounds_of_checkPair (mapError_eq_ok_iff.mp h)
  | sequence =>
    rw [hoperand] at h
    exact exists_items_of_checkSequence (mapError_eq_ok_iff.mp h)
  | point =>
    rw [hoperand] at h
    exact exists_shape_of_checkShape h
  | area =>
    rw [hoperand] at h
    obtain ⟨shape, hshape, hvalid⟩ := exists_shape_of_checkShape h
    exact ⟨shape, (eq_of_areaShape? hshape).1, hvalid⟩

theorem values_eq_of_value? {v : Value} (h : c.value? 0 = some v) (hlength : c.values.length = 1) :
    c.values = [.value v] := by
  obtain ⟨arg, hvalues⟩ := List.length_eq_one_iff.mp hlength
  rw [value?, hvalues] at h
  rw [hvalues]
  cases arg with
  | value w =>
    cases h
    rfl
  | _ => contradiction

end Criterion

/-! ### Calls -/

theorem Operator.operand_of_isPattern {op : Operator} (h : op.isPattern = true) :
    op.operand = .single := by
  cases op <;> simp_all [isPattern, operand]

namespace CompiledQuery

variable {sig : Signature} {s : EntitySchema} {q : CompiledQuery} {t : PartTree}
  {slots : List (List Nat)} {args : List Argument} {maxInSet : Nat} {spec : Specification}
  {p : Predicate} {c : Criterion}

theorem exists_clause_of_mem_criteria (hcompile : compile sig s = .ok q)
    (hsource : q.source = .derived t slots) (h : q.bind args maxInSet = .ok spec)
    (hp : spec.predicate = some p) (hc : c ∈ p.criteria) :
    ∃ clause ∈ t.clauses,
      c.path = clause.path ∧ c.operator = clause.operator
        ∧ c.operator.arity.1 ≤ c.values.length ∧ c.values.length ≤ c.operator.arity.2
        ∧ c.check t.method maxInSet = .ok () := by
  obtain ⟨placed, hgroups, hgiven, hpredicate, hchecks⟩ :=
    Predicate.build_eq_ok (bind_derived_eq_ok hsource h).1
  obtain ⟨-, hslots⟩ := derived_of_compile_eq_ok hcompile hsource
  have hplaced := isPlaced_of_bind hslots hgroups hgiven
  have haccepts := checkArguments_eq_ok_iff.mp (bind_eq_ok h).1
  rw [hp] at hpredicate
  split at hpredicate
  next => contradiction
  next =>
    cases hpredicate
    obtain ⟨clause, hclause, rfl⟩ := Predicate.mem_criteria_disjoin_ofGroup.mp hc
    have hmem : clause.1 ∈ t.clauses := by
      rw [PartTree.clauses, ← hgroups, ← List.map_flatten]
      exact List.mem_map_of_mem hclause
    have hlength : (clause.criterion args).values.length = clause.2.length := by
      apply length_values haccepts
      intro i hi
      rw [(compile_eq_ok hcompile).1, ← hplaced.positions, ← hplaced.slotsInOrder]
      exact List.mem_flatten_of_mem (List.mem_map_of_mem hclause) hi
    obtain ⟨hleast, hmost⟩ := hplaced.arity clause hclause
    rw [← hlength] at hleast hmost
    exact ⟨clause.1, hmem, rfl, rfl, hleast, hmost, hchecks clause hclause⟩

end CompiledQuery

/-! ### Texts -/

def Criterion.textFilter (c : Criterion) (s : String) : Filter :=
  let pattern (text : String) : Filter := .pattern c.path.dotted text c.ignoreCase
  match c.operator with
  | .like => pattern (Like.toPattern s)
  | .notLike => .not (pattern (Like.toPattern s))
  | .startingWith => pattern ("^" ++ Pattern.escape s)
  | .endingWith => pattern (Pattern.escape s ++ "$")
  | .containing => pattern (Pattern.escape s)
  | .notContaining => .not (pattern (Pattern.escape s))
  | _ => pattern s

theorem Criterion.toFilter_eq_textFilter {c : Criterion} {s : String}
    (hpattern : c.operator.isPattern = true) (hpath : c.path.isCollection = false)
    (hvalues : c.values = [.value (.string s)]) : c.toFilter = c.textFilter s := by
  have htext : c.text? = some s := by
    rw [text?, value?, hvalues]
    rfl
  unfold toFilter toFilterWith textFilter
  rw [htext]
  cases hop : c.operator <;> simp_all [Operator.isPattern]

namespace CompiledQuery

variable {sig : Signature} {s : EntitySchema} {q : CompiledQuery} {args : List Argument}
  {maxInSet : Nat} {spec : Specification}

/--
A clause that matches text has exactly one value, and unless it is about a collection this is a
text, a valid pattern where the operator takes one, by which alone the documents are matched.
-/
theorem exists_text_of_bind (hquery : sig.query = none) (hcompile : compile sig s = .ok q)
    (h : q.bind args maxInSet = .ok spec) :
    ∀ p, spec.predicate = some p → ∀ c ∈ p.criteria, c.operator.isPattern = true →
      ∃ v, c.values = [.value v]
        ∧
      (c.path.isCollection = false →
        ∃ text, v = .string text ∧ (c.operator = .regex → Pattern.isValid text = true)
          ∧ c.toFilter = c.textFilter text) := by
  intro p hp c hc hpattern
  obtain ⟨t, slots, hsource⟩ := exists_derived_of_compile_eq_ok hcompile hquery
  obtain ⟨clause, -, -, -, hleast, hmost, hcheck⟩ :=
    exists_clause_of_mem_criteria hcompile hsource h hp hc
  have hoperand := Operator.operand_of_isPattern hpattern
  have hchecked := Criterion.checked_of_check hcheck
  rw [Criterion.Checked, hoperand] at hchecked
  obtain ⟨v, hvalue, -, htext⟩ := hchecked
  have hlength : c.values.length = 1 := by
    rw [Operator.arity, hoperand] at hleast hmost
    exact Nat.le_antisymm hmost hleast
  have hvalues := Criterion.values_eq_of_value? hvalue hlength
  refine ⟨v, hvalues, fun hpath => ?_⟩
  obtain ⟨text, rfl, hregex⟩ := htext (by rw [Criterion.matchesText, hpattern, hpath]; rfl)
  exact ⟨text, rfl, hregex, Criterion.toFilter_eq_textFilter hpattern hpath hvalues⟩

def articleSchema : EntitySchema :=
  ⟨"Article", [⟨"title", .scalar .string⟩, ⟨"tags", .collection (.scalar .string)⟩]⟩

def articleMatches : Signature where
  entity := "Article"
  name := "findByTitleRegex"
  params := [.value]

/--
The predicate is one criterion of the asked kind, which is computed.
-/
def isSingle (holds : Criterion → Bool) (spec : Specification) : Bool :=
  match spec.predicate with
  | some (.leaf c) => holds c
  | _ => false

theorem exists_of_isSingle {holds : Criterion → Bool} {spec : Specification}
    (h : isSingle holds spec = true) :
    ∃ p, spec.predicate = some p ∧ ∃ c ∈ p.criteria, holds c = true := by
  unfold isSingle at h
  split at h
  next c hp => exact ⟨.leaf c, hp, c, List.mem_singleton_self c, h⟩
  next => contradiction

theorem exists_text_of_bind_article :
    ∃ q spec p c text,
      compile articleMatches articleSchema = .ok q
        ∧
      q.bind [.value (.string "^a.c$")] 1000 = .ok spec
        ∧
      spec.predicate = some p ∧ c ∈ p.criteria ∧ c.operator = .regex
        ∧
      c.values = [.value (.string text)] ∧ Pattern.isValid text = true
        ∧ c.toFilter = c.textFilter text := by
  have hbinds : binds articleMatches articleSchema [.value (.string "^a.c$")] 1000
      (isSingle fun c => c.operator = .regex ∧ c.path.isCollection = false) = true := by
    decide +kernel
  obtain ⟨q, spec, hcompile, hbind, hspec⟩ := exists_of_binds hbinds
  obtain ⟨p, hp, c, hc, hholds⟩ := exists_of_isSingle hspec
  obtain ⟨hregex, hpath⟩ := of_decide_eq_true hholds
  obtain ⟨v, hvalues, htext⟩ :=
    exists_text_of_bind rfl hcompile hbind p hp c hc (by rw [hregex]; rfl)
  obtain ⟨text, rfl, hvalid, hfilter⟩ := htext hpath
  exact ⟨q, spec, p, c, text, hcompile, hbind, hp, hc, hregex, hvalues, hvalid hregex, hfilter⟩

def articleTagged (operator : String) : Signature where
  entity := "Article"
  name := "findByTags" ++ operator
  params := [.value]

def matchesBy (op : Operator) (text : String) (holds : Value → Bool) (spec : Specification) :
    Bool :=
  match spec.predicate, spec.filter with
  | some (.leaf c), .pattern _ pattern _ =>
    decide (c.operator = op ∧ pattern = text) && (c.value? 0).any holds
  | _, _ => false

theorem exists_of_matchesBy {op : Operator} {text : String} {holds : Value → Bool}
    {spec : Specification} (h : matchesBy op text holds spec = true) :
    ∃ p c v path ignoreCase, spec.predicate = some p ∧ c ∈ p.criteria ∧ c.operator = op
      ∧ c.value? 0 = some v ∧ holds v = true ∧ spec.filter = .pattern path text ignoreCase := by
  unfold matchesBy at h
  split at h
  next c path pattern ignoreCase hp hfilter =>
    rw [Bool.and_eq_true, decide_eq_true_iff] at h
    obtain ⟨⟨hop, rfl⟩, hvalue⟩ := h
    obtain ⟨v, hv, hholds⟩ := (Option.any_eq_true holds _).mp hvalue
    exact ⟨.leaf c, c, v, path, ignoreCase, hp, List.mem_singleton_self c, hop, hv, hholds, hfilter⟩
  next => contradiction

/--
The elements of a collection are matched by a clause that was given no text, and by one whose text
is no valid pattern.
-/
theorem exists_text_of_bind_tags_ne :
    (∃ q spec p c v path ignoreCase,
      compile (articleTagged "StartingWith") articleSchema = .ok q
        ∧
      q.bind [.value (.bool true)] 1000 = .ok spec
        ∧
      spec.predicate = some p ∧ c ∈ p.criteria ∧ c.operator = .startingWith
        ∧
      c.value? 0 = some v ∧ v.string? = none ∧ spec.filter = .pattern path "^" ignoreCase)
      ∧
    ∃ q spec p c v path ignoreCase,
      compile (articleTagged "Regex") articleSchema = .ok q
        ∧
      q.bind [.value (.string "(")] 1000 = .ok spec
        ∧
      spec.predicate = some p ∧ c ∈ p.criteria ∧ c.operator = .regex
        ∧
      c.value? 0 = some v ∧ v.string?.any Pattern.isValid = false
        ∧ spec.filter = .pattern path "(" ignoreCase := by
  constructor
  · have hbinds : binds (articleTagged "StartingWith") articleSchema [.value (.bool true)] 1000
        (matchesBy .startingWith "^" fun v => v.string?.isNone) = true := by
      decide +kernel
    obtain ⟨q, spec, hcompile, hbind, hspec⟩ := exists_of_binds hbinds
    obtain ⟨p, c, v, path, ignoreCase, hp, hc, hop, hv, hnone, hfilter⟩ := exists_of_matchesBy hspec
    exact ⟨q, spec, p, c, v, path, ignoreCase, hcompile, hbind, hp, hc, hop, hv,
      Option.isNone_iff_eq_none.mp hnone, hfilter⟩
  · have hbinds : binds (articleTagged "Regex") articleSchema [.value (.string "(")] 1000
        (matchesBy .regex "(" fun v => !v.string?.any Pattern.isValid) = true := by
      decide +kernel
    obtain ⟨q, spec, hcompile, hbind, hspec⟩ := exists_of_binds hbinds
    obtain ⟨p, c, v, path, ignoreCase, hp, hc, hop, hv, hinvalid, hfilter⟩ :=
      exists_of_matchesBy hspec
    exact ⟨q, spec, p, c, v, path, ignoreCase, hcompile, hbind, hp, hc, hop, hv,
      by simpa using hinvalid, hfilter⟩

end CompiledQuery
end DerivedQuery
