import DerivedQuery.Proofs.Filter.Reading

/-!
This module contains that the check of a query document whose values are not there yet is sound: if
the operators of the document pass, it is never refused for an operator later, whatever values
without documents take the places that hold `null`.
-/

namespace DerivedQuery

/-! ### Places -/

namespace Value

mutual

/--
No document is in the value, so that nothing in it can be read as operators. The scope of code is
never read.
-/
def isFlat : Value → Bool
  | .document _ => false
  | .array items => areFlat items
  | _ => true

def areFlat : List Value → Bool
  | [] => true
  | item :: items => isFlat item && areFlat items

end

mutual

/--
The second value is the first one with flat values in some of the places that hold `null`.
-/
inductive Fills : Value → Value → Prop where
  | keep (v : Value) : Fills v v
  | place {v : Value} (flat : v.isFlat = true) : Fills .null v
  | array {items items' : List Value} (each : FillsItems items items') :
      Fills (.array items) (.array items')
  | document {d d' : Document} (each : FillsFields d d') : Fills (.document d) (.document d')
  | scopedCode (text : String) {scope scope' : Document} (each : FillsFields scope scope') :
      Fills (.scopedCode text scope) (.scopedCode text scope')

inductive FillsItems : List Value → List Value → Prop where
  | nil : FillsItems [] []
  | cons {v v' : Value} {items items' : List Value} (first : Fills v v')
      (rest : FillsItems items items') : FillsItems (v :: items) (v' :: items')

inductive FillsFields : List (String × Value) → List (String × Value) → Prop where
  | nil : FillsFields [] []
  | cons (name : String) {v v' : Value} {d d' : List (String × Value)} (first : Fills v v')
      (rest : FillsFields d d') : FillsFields ((name, v) :: d) ((name, v') :: d')

end

theorem FillsItems.refl (items : List Value) : FillsItems items items := by
  induction items with
  | nil => exact .nil
  | cons item items ih => exact .cons (.keep item) ih

theorem FillsFields.refl (d : Document) : FillsFields d d := by
  induction d with
  | nil => exact .nil
  | cons field d ih =>
    obtain ⟨name, v⟩ := field
    exact .cons name (.keep v) ih

theorem Fills.exists_array {items : List Value} {v : Value} (h : Fills (.array items) v) :
    ∃ items', v = .array items' ∧ FillsItems items items' := by
  cases h with
  | keep => exact ⟨items, rfl, .refl items⟩
  | array each => exact ⟨_, rfl, each⟩

theorem Fills.exists_document {d : Document} {v : Value} (h : Fills (.document d) v) :
    ∃ d', v = .document d' ∧ FillsFields d d' := by
  cases h with
  | keep => exact ⟨d, rfl, .refl d⟩
  | document each => exact ⟨_, rfl, each⟩

theorem Fills.isFlat_of_null {v : Value} (h : Fills .null v) : v.isFlat = true := by
  cases h with
  | keep => rfl
  | place flat => exact flat

theorem Fills.ne_document {v v' : Value} (h : Fills v v') (hv : ∀ d, v ≠ .document d) (d : Document) :
    v' ≠ .document d := by
  cases h with
  | keep => exact hv d
  | place flat =>
    intro heq
    rw [heq] at flat
    contradiction
  | array => simp
  | document => exact absurd rfl (hv _)
  | scopedCode => simp

theorem FillsFields.keys_eq {d d' : Document} (h : FillsFields d d') : d'.keys = d.keys := by
  induction d generalizing d' with
  | nil =>
    cases h
    rfl
  | cons field d ih =>
    cases h with
    | cons name first rest => exact congrArg (name :: ·) (ih rest)

end Value

/-! ### Faults -/

/--
The fault lies in an operand, not in the name of an operator.
-/
def DocumentFault.IsOfOperand : DocumentFault → Prop
  | .unknownOperator _ => False
  | _ => True

namespace Filter

open Value

variable {path name key : String}

theorem raises_point (operator : String) (v : Value) :
    Raises DocumentFault.IsOfOperand (point operator v) := by
  unfold point
  split
  · exact raises_ok _
  · exact raises_error trivial

theorem raises_items (operator : String) (v : Value) :
    Raises DocumentFault.IsOfOperand (items operator v) := by
  unfold items
  split
  · exact raises_ok _
  · exact raises_error trivial

theorem raises_area (v : Value) : Raises DocumentFault.IsOfOperand (area v) := by
  unfold area
  split
  next =>
    split
    next =>
      apply (raises_point _ _).bind
      intro center
      split
      · exact raises_ok _
      · exact raises_error trivial
    next =>
      apply (raises_point _ _).bind
      intro first
      apply (raises_point _ _).bind
      intro second
      exact raises_ok _
    next => exact (raises_mapM (raises_point _) _).bind fun _ => raises_ok _
    next => exact raises_error trivial
  next => exact raises_error trivial

theorem raises_operator {context : FieldContext} (hname : fieldOperators.contains name = true)
    (hnot : name ≠ "$not") (v : Value) :
    Raises DocumentFault.IsOfOperand (operator path context name v) := by
  unfold operator
  split
  next => exact raises_ok _
  next hsymbol =>
    split
    case h_3 | h_9 | h_10 => exact raises_ok _
    case h_4 =>
      split
      · exact raises_ok _
      · exact raises_error trivial
    case h_1 | h_2 => exact (raises_items _ _).bind fun _ => raises_ok _
    case h_5 | h_6 => exact (raises_point _ _).bind fun _ => raises_ok _
    case h_7 | h_8 => exact (raises_area _).bind fun _ => raises_ok _
    case h_11 =>
      -- What is left of the operators that the check knows are comparisons.
      have hmem : name ∈ Comparison.all.map Comparison.symbol := by
        simp_all [fieldOperators, Comparison.all, Comparison.symbol]
      obtain ⟨op, -, rfl⟩ := List.mem_map.mp hmem
      cases op <;> contradiction

/-! ### Fields -/

theorem ofField_of_ne_document (path : String) {v : Value} (h : ∀ d, v ≠ .document d) :
    ofField path v = .ok (.compare path .eq v) := by
  cases v with
  | document d => exact absurd rfl (h d)
  | _ => rfl

theorem checkOperators_cons {v : Value} {ops : Document}
    (h : checkOperators ((name, v) :: ops) = .ok ()) :
    fieldOperators.contains name = true ∧ (name = "$not" → checkField v = .ok ())
      ∧ checkOperators ops = .ok () := by
  rw [checkOperators] at h
  split at h
  next => contradiction
  next hknown =>
    refine ⟨by simpa using hknown, ?_⟩
    dsimp only at h
    split at h
    next =>
      obtain ⟨_, hfield, hops⟩ := bind_eq_ok_iff.mp h
      exact ⟨fun _ => hfield, hops⟩
    next hnot =>
      refine ⟨fun hname => absurd hname hnot, ?_⟩
      split at h
      next =>
        obtain ⟨_, -, hops⟩ := bind_eq_ok_iff.mp h
        exact hops
      next => exact h

mutual

theorem raises_ofField {v v' : Value} (hcheck : checkField v = .ok ()) (hfills : Fills v v') :
    Raises DocumentFault.IsOfOperand (ofField path v') := by
  cases v with
  | document d =>
    obtain ⟨d', rfl, hfields⟩ := hfills.exists_document
    rw [ofField]
    split
    next hoperators =>
      rw [Document.isOperators_eq, hfields.keys_eq, ← Document.isOperators_eq] at hoperators
      rw [checkField, if_pos hoperators] at hcheck
      exact (raises_ofOperators hcheck hfields).bind fun _ => raises_ok _
    next => exact raises_ok _
  | _ =>
    -- A place never turns into a document, so the value is compared as it is.
    rw [ofField_of_ne_document path (hfills.ne_document (by simp))]
    exact raises_ok _

theorem raises_ofOperators {context : FieldContext} {ops ops' : Document}
    (hcheck : checkOperators ops = .ok ()) (hfills : FillsFields ops ops') :
    Raises DocumentFault.IsOfOperand (ofOperators path context ops') := by
  cases ops with
  | nil =>
    cases hfills
    exact raises_ok _
  | cons op ops =>
    cases hfills with
    | cons name first rest =>
      obtain ⟨hknown, hnot, hrest⟩ := checkOperators_cons hcheck
      rw [ofOperators_cons]
      apply Raises.bind
      · unfold ofOperator
        split
        next hname => exact (raises_ofField (hnot hname) first).bind fun _ => raises_ok _
        next hname => exact raises_operator hknown hname _
      · intro fs
        exact (raises_ofOperators hrest rest).bind fun _ => raises_ok _

end

/-! ### Branches -/

theorem raises_ofBranchList_of_isFlat {v : Value} (h : v.isFlat = true) (branches : List Value) :
    Raises DocumentFault.IsOfOperand (ofBranchList key (v :: branches)) := by
  cases v with
  | document d => contradiction
  | _ => exact raises_error trivial

theorem raises_ofBranches_of_isFlat {v : Value} (h : v.isFlat = true) :
    Raises DocumentFault.IsOfOperand (ofBranches key v) := by
  unfold ofBranches
  split
  next branches =>
    cases branches with
    | nil => exact raises_ok _
    | cons branch branches =>
      rw [isFlat, areFlat, Bool.and_eq_true] at h
      exact raises_ofBranchList_of_isFlat h.1 branches
  next => exact raises_error trivial

/-! ### Documents -/

theorem raises_ofEntry {v : Value}
    (hbranches : key = "$and" ∨ key = "$or" ∨ key = "$nor" →
      Raises DocumentFault.IsOfOperand (ofBranches key v))
    (hfield : isOperatorName key = false → Raises DocumentFault.IsOfOperand (ofField key v))
    (hkey : isOperatorName key = true → key = "$and" ∨ key = "$or" ∨ key = "$nor") :
    Raises DocumentFault.IsOfOperand (ofEntry key v) := by
  unfold ofEntry
  split
  next => exact (hbranches (by simp)).bind fun _ => raises_ok _
  next => exact (hbranches (by simp)).bind fun _ => raises_ok _
  next => exact (hbranches (by simp)).bind fun _ => raises_ok _
  next hand hor hnor =>
    split
    next hoperator => exact absurd (hkey hoperator) (by simp_all)
    next hplain => exact hfield (eq_false_of_ne_true hplain)

structure CheckedEntry (key : String) (v : Value) : Prop where
  known : isOperatorName key = true → key = "$and" ∨ key = "$or" ∨ key = "$nor"
  branches : key = "$and" ∨ key = "$or" ∨ key = "$nor" → checkBranches key v = .ok ()
  field : isOperatorName key = false → checkField v = .ok ()

theorem check_cons {v : Value} {fields : Document} (h : check ((key, v) :: fields) = .ok ()) :
    CheckedEntry key v ∧ check fields = .ok () := by
  rw [check] at h
  dsimp only at h
  simp only [Bool.or_eq_true, decide_eq_true_eq, or_assoc] at h
  split at h
  next hkey =>
    obtain ⟨_, hbranches, hfields⟩ := bind_eq_ok_iff.mp h
    refine ⟨⟨fun _ => hkey, fun _ => hbranches, fun hplain => ?_⟩, hfields⟩
    obtain rfl | rfl | rfl := hkey <;> contradiction
  next hkey =>
    split at h
    next => contradiction
    next hplain =>
      obtain ⟨_, hfield, hfields⟩ := bind_eq_ok_iff.mp h
      refine ⟨⟨fun hoperator => absurd hoperator hplain, fun h => absurd h hkey, fun _ => hfield⟩,
        hfields⟩

mutual

theorem raises_ofFields {d d' : Document} (hcheck : check d = .ok ()) (hfills : FillsFields d d') :
    Raises DocumentFault.IsOfOperand (ofFields d') := by
  cases d with
  | nil =>
    cases hfills
    exact raises_ok _
  | cons field d =>
    cases hfills with
    | cons key first rest =>
      obtain ⟨hentry, hcheck⟩ := check_cons hcheck
      rw [ofFields_cons]
      apply Raises.bind
      · exact raises_ofEntry (fun hkey => raises_ofBranches (hentry.branches hkey) first)
          (fun hkey => raises_ofField (hentry.field hkey) first) hentry.known
      · intro f
        exact (raises_ofFields hcheck rest).bind fun _ => raises_ok _

theorem raises_ofBranches {key : String} {v v' : Value}
    (hcheck : checkBranches key v = .ok ()) (hfills : Fills v v') :
    Raises DocumentFault.IsOfOperand (ofBranches key v') := by
  cases v with
  | array branches =>
    obtain ⟨branches', rfl, hitems⟩ := hfills.exists_array
    exact raises_ofBranchList hcheck hitems
  | null => exact raises_ofBranches_of_isFlat hfills.isFlat_of_null
  | _ => contradiction

theorem raises_ofBranchList {key : String} {branches branches' : List Value}
    (hcheck : checkBranchList key branches = .ok ()) (hfills : FillsItems branches branches') :
    Raises DocumentFault.IsOfOperand (ofBranchList key branches') := by
  cases branches with
  | nil =>
    cases hfills
    exact raises_ok _
  | cons branch branches =>
    cases hfills with
    | cons first rest =>
      cases branch with
      | document d =>
        obtain ⟨d', rfl, hfields⟩ := first.exists_document
        rw [checkBranchList] at hcheck
        obtain ⟨_, hd, hrest⟩ := bind_eq_ok_iff.mp hcheck
        rw [ofBranchList]
        apply (raises_ofFields hd hfields).bind
        intro fs
        exact (raises_ofBranchList hrest rest).bind fun _ => raises_ok _
      | null => exact raises_ofBranchList_of_isFlat first.isFlat_of_null _
      | _ => contradiction

end

/--
A query document whose operators passed the check while its values were missing is read, or refused
for one of its operands, once flat values are there. It is not refused for an operator.
-/
theorem ofDocument_ne_unknownOperator_of_check {d d' : Document} (hcheck : check d = .ok ())
    (hfills : FillsFields d d') :
    (∃ f, ofDocument d' = .ok f)
      ∨
    ∃ e, ofDocument d' = .error e ∧ ∀ operator, e ≠ .unknownOperator operator := by
  have hraises : Raises DocumentFault.IsOfOperand (ofDocument d') :=
    (raises_ofFields hcheck hfills).bind fun _ => raises_ok _
  cases hread : ofDocument d' with
  | ok f => exact .inl ⟨f, rfl⟩
  | error e =>
    refine .inr ⟨e, rfl, ?_⟩
    rintro operator rfl
    exact hraises _ hread

def openSearch : Document :=
  [("name", .document [("$not", .document [("$regex", .null), ("$options", .string "i")])]),
    ("$or", .array [.null, .document [("age", .null)]]),
    ("place", .document [("$within", .document [("$box", .array [.null, .null])])])]

def closedSearch : Document :=
  [("name", .document [("$not", .document [("$regex", .string "^da"), ("$options", .string "i")])]),
    ("$or", .array [.null, .document [("age", .array [.int32 20, .null])]]),
    ("place", .document [("$within", .document [("$box", .array [.bool true, .null])])])]

theorem ofDocument_ne_unknownOperator_of_check_search :
    check openSearch = .ok ()
      ∧
    FillsFields openSearch closedSearch
      ∧
    ((∃ f, ofDocument closedSearch = .ok f)
      ∨ ∃ e, ofDocument closedSearch = .error e ∧ ∀ operator, e ≠ .unknownOperator operator) := by
  have hcheck : check openSearch = .ok () := rfl
  have hfills : FillsFields openSearch closedSearch := by
    refine .cons _ (.document (.cons _ (.document ?pattern) .nil))
      (.cons _ (.array ?branches) (.cons _ (.document (.cons _ (.document ?area) .nil)) .nil))
    case pattern => exact .cons _ (.place rfl) (.refl _)
    case branches => exact .cons (.keep _) (.cons (.document (.cons _ (.place rfl) .nil)) .nil)
    case area => exact .cons _ (.array (.cons (.place rfl) (.refl _))) .nil
  exact ⟨hcheck, hfills, ofDocument_ne_unknownOperator_of_check hcheck hfills⟩

/--
A document in a place can bring operators of its own.
-/
example : check [("age", .null)] = .ok ()
    ∧ ofDocument [("age", .document [("$where", .null)])] = .error (.unknownOperator "$where") :=
  ⟨rfl, rfl⟩

end Filter
end DerivedQuery
