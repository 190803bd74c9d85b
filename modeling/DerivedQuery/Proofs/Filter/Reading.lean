import DerivedQuery.Filter.Evaluation
import DerivedQuery.Filter.Reader
import DerivedQuery.Proofs.Traversal

/-!
This module contains what the filters mean that are read from query documents. The meaning of a
document is the conjunction of the meanings of its fields, and operators on one field that do not
share context have the conjunction of their meanings.
-/

namespace DerivedQuery
namespace Filter

abbrev Meaning := Document → Bool

def ReadsAs (read : Except DocumentFault (List Filter)) (P : Meaning) : Prop :=
  ∃ fs, read = .ok fs ∧ ∀ d, evalAll d fs = P d

/-! ### Conjunction and disjunction -/

theorem evalAll_append (d : Document) (fs gs : List Filter) :
    evalAll d (fs ++ gs) = (evalAll d fs && evalAll d gs) := by
  induction fs with
  | nil => rfl
  | cons f fs ih => rw [List.cons_append, evalAll, evalAll, ih, Bool.and_assoc]

theorem evalAll_singleton (d : Document) (f : Filter) : evalAll d [f] = eval d f := by
  rw [evalAll, evalAll, Bool.and_true]

theorem eval_conjoin (d : Document) (fs : List Filter) : eval d (conjoin fs) = evalAll d fs := by
  unfold conjoin
  split
  · rw [eval, evalAll]
  · rw [evalAll_singleton]
  · rw [eval]

/-! ### Fields -/

def ofEntry (key : String) (value : Value) : Except DocumentFault Filter :=
  match key with
  | "$and" => ofBranches key value >>= fun fs => .ok (.and fs)
  | "$or" => ofBranches key value >>= fun fs => .ok (.or fs)
  | "$nor" => ofBranches key value >>= fun fs => .ok (.not (disjoin fs))
  | key => if isOperatorName key then .error (.unknownOperator key) else ofField key value

theorem ofEntry_and (branches : List Value) :
    ofEntry "$and" (.array branches)
      =
    ofBranchList "$and" branches >>= fun fs => .ok (.and fs) := by
  rfl

theorem ofEntry_or (branches : List Value) :
    ofEntry "$or" (.array branches)
      =
    ofBranchList "$or" branches >>= fun fs => .ok (.or fs) := by
  rfl

theorem ofEntry_nor (branches : List Value) :
    ofEntry "$nor" (.array branches)
      =
    ofBranchList "$nor" branches >>= fun fs => .ok (.not (disjoin fs)) := by
  rfl

theorem ofFields_cons (key : String) (value : Value) (fields : Document) :
    ofFields ((key, value) :: fields)
      =
    ofEntry key value >>= fun f => ofFields fields >>= fun fs => .ok (f :: fs) := by
  unfold ofEntry
  split
  · rw [ofFields, bind_assoc]
    rfl
  · rw [ofFields, bind_assoc]
    rfl
  · rw [ofFields, bind_assoc]
    rfl
  next hand hor hnor =>
    rw [ofFields]
    · split <;> rfl
    · exact hand
    · exact hor
    · exact hnor

theorem ofEntry_of_plain {key : String} (value : Value) (hkey : isOperatorName key = false) :
    ofEntry key value = ofField key value := by
  unfold ofEntry
  split
  · contradiction
  · contradiction
  · contradiction
  · rw [if_neg]
    rw [hkey]
    simp

theorem ofDocument_entry (key : String) (value : Value) :
    ofDocument [(key, value)] = ofEntry key value := by
  rw [ofDocument, ofFields_cons]
  cases ofEntry key value <;> rfl

theorem ReadsAs.cons {key : String} {value : Value} {fields : Document} {P Q : Meaning}
    {f : Filter} (hfirst : ofEntry key value = .ok f) (hP : ∀ d, eval d f = P d)
    (hrest : ReadsAs (ofFields fields) Q) :
    ReadsAs (ofFields ((key, value) :: fields)) fun d => P d && Q d := by
  obtain ⟨fs, hfs, hQ⟩ := hrest
  refine ⟨f :: fs, ?_, ?_⟩
  · rw [ofFields_cons, hfirst, hfs]
    rfl
  · intro d
    rw [evalAll, hP, hQ]

/-! ### Operators -/

structure SameContext (ops : Document) (context other : FieldContext) : Prop where
  ignoreCase : "$regex" ∈ ops.keys → context.ignoreCase = other.ignoreCase
  maxDistance : "$near" ∈ ops.keys → context.maxDistance = other.maxDistance
  sphere : "$nearSphere" ∉ ops.keys

def ofOperator (path : String) (context : FieldContext) (name : String) (value : Value) :
    Except DocumentFault (List Filter) :=
  if name = "$not" then ofField path value >>= fun f => .ok [.not f]
  else operator path context name value

theorem ofOperators_cons (path : String) (context : FieldContext) (name : String) (value : Value)
    (ops : Document) :
    ofOperators path context ((name, value) :: ops)
      =
    ofOperator path context name value >>= fun fs =>
      ofOperators path context ops >>= fun gs => .ok (fs ++ gs) := by
  unfold ofOperator
  rw [ofOperators]
  split
  · rw [bind_assoc]
    rfl
  · rfl

theorem operator_eq {path name : String} {value : Value} {context other : FieldContext}
    (hregex : name = "$regex" → context.ignoreCase = other.ignoreCase)
    (hnear : name = "$near" → context.maxDistance = other.maxDistance)
    (hsphere : name ≠ "$nearSphere") :
    operator path context name value = operator path other name value := by
  unfold operator
  split
  · rfl
  · split
    · rfl
    · rfl
    · rfl
    · rw [hregex rfl]
    · rw [hnear rfl]
    · contradiction
    all_goals rfl

theorem ofOperators_eq {path : String} {ops : Document} {context other : FieldContext}
    (h : SameContext ops context other) :
    ofOperators path context ops = ofOperators path other ops := by
  induction ops with
  | nil => rfl
  | cons field ops ih =>
    obtain ⟨name, value⟩ := field
    -- no other operator looks at the context
    have hoperator : operator path context name value = operator path other name value := by
      apply operator_eq
      · intro hname
        apply h.ignoreCase
        simp [Document.keys, hname]
      · intro hname
        apply h.maxDistance
        simp [Document.keys, hname]
      · intro hname
        apply h.sphere
        simp [Document.keys, hname]
    have hrest : SameContext ops context other := by
      constructor
      · intro hmem
        exact h.ignoreCase (List.mem_cons_of_mem name hmem)
      · intro hmem
        exact h.maxDistance (List.mem_cons_of_mem name hmem)
      · intro hmem
        exact h.sphere (List.mem_cons_of_mem name hmem)
    rw [ofOperators_cons, ofOperators_cons, ofOperator, ofOperator, hoperator, ih hrest]

theorem ofOperators_append {path : String} {context : FieldContext} {a b : Document}
    {fs gs : List Filter} (ha : ofOperators path context a = .ok fs)
    (hb : ofOperators path context b = .ok gs) :
    ofOperators path context (a ++ b) = .ok (fs ++ gs) := by
  induction a generalizing fs with
  | nil =>
    cases ha
    exact hb
  | cons field a ih =>
    obtain ⟨name, value⟩ := field
    rw [ofOperators_cons, bind_eq_ok_iff] at ha
    obtain ⟨first, hfirst, ha⟩ := ha
    rw [bind_eq_ok_iff] at ha
    obtain ⟨rest, hrest, ha⟩ := ha
    cases ha
    rw [List.cons_append, ofOperators_cons, bind_eq_ok_iff]
    refine ⟨first, hfirst, ?_⟩
    rw [ih hrest, List.append_assoc]
    rfl

end Filter
end DerivedQuery
