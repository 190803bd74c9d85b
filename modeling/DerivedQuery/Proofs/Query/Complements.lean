import DerivedQuery.Proofs.Query.Checked

/-!
This module contains how the operators go together: one that asks for no match is met by exactly the
documents that the operator which asks for a match is not met by, and a clause for a list of values
is met by the documents that hold one of them.
-/

namespace DerivedQuery

/-! ### Lists of values -/

namespace Filter

variable {path : String} {xs ys : List Value}

theorem eval_in_iff {d : Document} :
    (Filter.in_ path xs).eval d = true ↔ ∃ x ∈ xs, (Filter.compare path .eq x).eval d = true := by
  simp only [eval, equalsAnyAt, List.any_eq_true]

theorem eval_in_congr (h : ∀ x, x ∈ xs ↔ x ∈ ys) (d : Document) :
    (Filter.in_ path xs).eval d = (Filter.in_ path ys).eval d := by
  rw [Bool.eq_iff_iff, eval_in_iff, eval_in_iff]
  exact exists_congr fun x => and_congr_left fun _ => h x

end Filter

/-! ### Complements -/

def Operator.complement? : Operator → Option Operator
  | .equals => some .notEquals
  | .notEquals => some .equals
  | .like => some .notLike
  | .notLike => some .like
  | .containing => some .notContaining
  | .notContaining => some .containing
  | .in_ => some .notIn
  | .notIn => some .in_
  | .isNull => some .isNotNull
  | .isNotNull => some .isNull
  | _ => none

theorem Operator.alike_of_complement? {op op' : Operator} (h : op.complement? = some op') :
    op'.operand = op.operand ∧ op'.isPattern = op.isPattern ∧ op'.isRange = op.isRange
      ∧ op' ≠ .regex := by
  cases op <;> cases h <;> exact ⟨rfl, rfl, rfl, nofun⟩

namespace Criterion

variable {c : Criterion} {op : Operator} {method : String} {maxInSet : Nat}

def asking (c : Criterion) (op : Operator) : Criterion :=
  { c with operator := op }

theorem checkText_asking {v : Value} (hregex : op ≠ .regex) (h : c.checkText v = .ok ()) :
    (c.asking op).checkText v = .ok () := by
  have hoperator : (c.asking op).operator = op := rfl
  cases v with
  | string s => simp [checkText, hoperator, hregex]
  | _ => contradiction

theorem checkType_asking {v : Value} (op : Operator) (h : c.checkType v = .ok ()) :
    (c.asking op).checkType v = .ok () := by
  have hscalar : (c.asking op).path.scalarType? = c.path.scalarType? := rfl
  unfold checkType at h ⊢
  rw [hscalar]
  cases htype : c.path.scalarType? with
  | none => rfl
  | some type =>
    rw [htype] at h
    dsimp only at h ⊢
    split at h
    next hadmits => rw [if_pos hadmits]
    next => contradiction

theorem checkSingle_asking (hpattern : op.isPattern = c.operator.isPattern)
    (hrange : op.isRange = c.operator.isRange) (hregex : op ≠ .regex)
    (h : c.checkSingle = .ok ()) : (c.asking op).checkSingle = .ok () := by
  have hmatches : (c.asking op).matchesText = c.matchesText := congrArg (· && _) hpattern
  have hoperator : (c.asking op).operator = op := rfl
  cases hvalue : c.value? 0 with
  | none =>
    rw [checkSingle, hvalue] at h
    contradiction
  | some v =>
    have hasked : (c.asking op).value? 0 = some v := hvalue
    rw [checkSingle_eq_ok_iff hvalue] at h
    rw [checkSingle_eq_ok_iff hasked, hmatches, hoperator, hrange]
    refine ⟨fun htext => checkText_asking hregex (h.1 htext), fun htext => ?_⟩
    exact ⟨(h.2 htext).1, checkType_asking op (h.2 htext).2⟩

theorem checkSequence_asking (op : Operator) (h : c.checkSequence maxInSet = .ok ()) :
    (c.asking op).checkSequence maxInSet = .ok () := by
  obtain ⟨items, hitems, hlength⟩ := exists_items_of_checkSequence h
  have hvalue : (c.asking op).value? 0 = some (.array items) := hitems
  rw [checkSequence, hvalue]
  dsimp only
  rw [if_neg (Nat.not_lt.mpr hlength)]

theorem check_asking_complement (hop : c.operator.complement? = some op)
    (h : c.check method maxInSet = .ok ()) : (c.asking op).check method maxInSet = .ok () := by
  obtain ⟨hoperand, hpattern, hrange, hregex⟩ := Operator.alike_of_complement? hop
  have hasked : (c.asking op).operator.operand = c.operator.operand := hoperand
  unfold check at h ⊢
  rw [hasked]
  cases hkind : c.operator.operand with
  | none => rfl
  | single =>
    rw [hkind] at h
    have hsingle := checkSingle_asking hpattern hrange hregex (mapError_eq_ok_iff.mp h)
    exact mapError_eq_ok_iff.mpr hsingle
  | sequence =>
    rw [hkind] at h
    exact mapError_eq_ok_iff.mpr (checkSequence_asking op (mapError_eq_ok_iff.mp h))
  | pair | point | area =>
    cases hoperator : c.operator <;> simp_all [Operator.complement?, Operator.operand]

theorem eval_toFilter_asking_complement (hop : c.operator.complement? = some op) (d : Document) :
    (c.asking op).toFilter.eval d = !c.toFilter.eval d := by
  have hvalue : (c.asking op).value? 0 = c.value? 0 := rfl
  have htext : (c.asking op).text? = c.text? := rfl
  unfold toFilter toFilterWith
  rw [hvalue, htext]
  cases hoperator : c.operator with
  | equals | notEquals =>
    rw [hoperator] at hop
    cases hop
    dsimp only [asking]
    split <;> simp [Filter.eval]
  | containing | notContaining =>
    rw [hoperator] at hop
    cases hop
    dsimp only [asking]
    by_cases hpath : c.path.isCollection = true <;> simp [hpath, Filter.eval]
  | like | notLike | in_ | notIn | isNull | isNotNull =>
    rw [hoperator] at hop
    cases hop
    simp [asking, Filter.eval]
  | _ =>
    rw [hoperator] at hop
    contradiction

/-! ### Clauses for lists of values -/

def holding (c : Criterion) (xs : List Value) : Criterion :=
  { c with values := [.value (.array xs)] }

def equalTo (path : PropertyPath) (x : Value) : Criterion where
  path := path
  operator := .equals
  ignoreCase := false
  values := [.value x]

variable {xs : List Value}

theorem toFilter_equalTo (path : PropertyPath) (x : Value) :
    (equalTo path x).toFilter = .compare path.dotted .eq x := by
  cases x <;> rfl

theorem toFilter_in (hop : c.operator = .in_) (hvalue : c.value? 0 = some (.array xs)) :
    c.toFilter = .in_ c.path.dotted xs := by
  rw [toFilter, toFilterWith, hop, hvalue]
  rfl

theorem eval_toFilter_asking_in (hvalue : c.value? 0 = some (.array xs)) (d : Document) :
    (c.asking .in_).toFilter.eval d = true
      ↔
    ∃ x ∈ xs, (equalTo c.path x).toFilter.eval d = true := by
  have hasked : (c.asking .in_).value? 0 = some (.array xs) := hvalue
  rw [toFilter_in rfl hasked, Filter.eval_in_iff]
  simp only [toFilter_equalTo]
  rfl

theorem eval_toFilter_of_sequence (hop : c.operator.operand = .sequence) (d : Document) :
    c.toFilter.eval d = ((c.asking .in_).toFilter.eval d != (c.operator == .notIn)) := by
  cases hoperator : c.operator with
  | in_ =>
    have hself : c.asking .in_ = c := by rw [asking, ← hoperator]
    rw [hself]
    exact (Bool.bne_false _).symm
  | notIn =>
    have hcomplement : c.operator.complement? = some .in_ := by rw [hoperator]; rfl
    rw [eval_toFilter_asking_complement hcomplement]
    exact ((Bool.bne_true _).trans (Bool.not_not _)).symm
  | _ =>
    rw [hoperator] at hop
    contradiction

/--
Values that are fit for an operator are fit for its complement, which the other documents meet. A
clause for a list is met by the documents that meet the clause for one of its values, and so depends
on the members of the list alone.
-/
theorem eval_toFilter_complement_and_members (hcheck : c.check method maxInSet = .ok ()) :
    (∀ op, c.operator.complement? = some op →
      (c.asking op).check method maxInSet = .ok ()
        ∧ ∀ d, (c.asking op).toFilter.eval d = !c.toFilter.eval d)
      ∧
    (c.operator.operand = .sequence → ∃ xs, c.value? 0 = some (.array xs)
        ∧
      (∀ d, (c.asking .in_).toFilter.eval d = true
        ↔ ∃ x ∈ xs, (equalTo c.path x).toFilter.eval d = true)
        ∧
      (∀ ys, (∀ x, x ∈ ys ↔ x ∈ xs) → ∀ d, (c.holding ys).toFilter.eval d = c.toFilter.eval d)
        ∧
      (xs = [] → ∀ d, c.toFilter.eval d = (c.operator == .notIn))) := by
  refine ⟨fun op hop => ⟨check_asking_complement hop hcheck, fun d =>
    eval_toFilter_asking_complement hop d⟩, fun hoperand => ?_⟩
  have hchecked := checked_of_check hcheck
  rw [Checked, hoperand] at hchecked
  obtain ⟨xs, hvalue, -⟩ := hchecked
  refine ⟨xs, hvalue, eval_toFilter_asking_in hvalue, fun ys hmembers d => ?_, ?_⟩
  · have hheld :
        ((c.holding ys).asking .in_).toFilter.eval d = (c.asking .in_).toFilter.eval d := by
      have hvalue' : ((c.holding ys).asking .in_).value? 0 = some (.array ys) := rfl
      have hasked : (c.asking .in_).value? 0 = some (.array xs) := hvalue
      rw [toFilter_in rfl hvalue', toFilter_in rfl hasked]
      exact Filter.eval_in_congr hmembers d
    have hsame : (c.holding ys).operator = c.operator := rfl
    rw [eval_toFilter_of_sequence (c := c.holding ys) hoperand, hheld, hsame,
      ← eval_toFilter_of_sequence hoperand]
  · rintro rfl d
    have hempty : (c.asking .in_).toFilter.eval d = false := by
      rw [Bool.eq_false_iff, ne_eq, eval_toFilter_asking_in hvalue]
      rintro ⟨_, hmem, -⟩
      exact List.not_mem_nil hmem
    rw [eval_toFilter_of_sequence hoperand, hempty, Bool.false_bne]

def titleNotIn : Criterion where
  path := ⟨["title"], .scalar .string⟩
  operator := .notIn
  ignoreCase := false
  values := [.value (.array [.string "a", .string "b"])]

theorem eval_toFilter_complement_and_members_title :
    titleNotIn.check "findByTitleNotIn" 1000 = .ok ()
      ∧
    (∀ d, (titleNotIn.asking .in_).toFilter.eval d = !titleNotIn.toFilter.eval d)
      ∧
    ∀ d, (titleNotIn.holding [.string "b", .string "a", .string "b"]).toFilter.eval d
      = titleNotIn.toFilter.eval d := by
  have hcheck : titleNotIn.check "findByTitleNotIn" 1000 = .ok () := rfl
  obtain ⟨hcomplement, hmembers⟩ := eval_toFilter_complement_and_members hcheck
  obtain ⟨xs, hvalue, -, hheld, -⟩ := hmembers rfl
  cases hvalue
  refine ⟨hcheck, (hcomplement .in_ rfl).2, hheld _ fun x => ?_⟩
  simp only [List.mem_cons, List.not_mem_nil, or_false]
  tauto

end Criterion
end DerivedQuery
