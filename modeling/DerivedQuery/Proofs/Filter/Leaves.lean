import DerivedQuery.Proofs.Filter.Reading

/-!
This module contains the leaves of filters, and which of them a query document states: the filter of
a field has leaves about this field alone, and it has some unless all that the field states is
context for operators that are not there.
-/

namespace DerivedQuery
namespace Filter

/-! ### Leaves -/

mutual

def leaves : Filter → List Filter
  | .all => []
  | .and fs => leavesOf fs
  | .or fs => leavesOf fs
  | .not f => leaves f
  | f => [f]

def leavesOf : List Filter → List Filter
  | [] => []
  | f :: fs => leaves f ++ leavesOf fs

end

theorem leaves_conjoin (fs : List Filter) : (conjoin fs).leaves = leavesOf fs := by
  unfold conjoin
  split
  · rfl
  · rw [leavesOf, leavesOf, List.append_nil]
  · rfl

theorem leaves_disjoin (fs : List Filter) : (disjoin fs).leaves = leavesOf fs := by
  unfold disjoin
  split
  · rfl
  · rw [leavesOf, leavesOf, List.append_nil]
  · rfl

theorem leavesOf_append (fs gs : List Filter) :
    leavesOf (fs ++ gs) = leavesOf fs ++ leavesOf gs := by
  induction fs with
  | nil => rfl
  | cons f fs ih => rw [List.cons_append, leavesOf, leavesOf, ih, List.append_assoc]

theorem leaves_subset_leavesOf {f : Filter} {fs : List Filter} (h : f ∈ fs) :
    f.leaves ⊆ leavesOf fs := by
  induction fs with
  | nil => contradiction
  | cons g fs ih =>
    rw [leavesOf]
    cases h with
    | head => exact List.subset_append_left _ _
    | tail _ h => exact List.Subset.trans (ih h) (List.subset_append_right _ _)

def path? : Filter → Option String
  | .all | .and _ | .or _ | .not _ => none
  | .exists_ path _ | .in_ path _ | .notIn path _ | .compare path _ _ | .pattern path _ _
  | .geo path _ => some path

/--
All leaves are about the path, and `exist` says whether there are any.
-/
structure LeavesAbout (path : String) (leaves : List Filter) (exist : Bool) : Prop where
  path : ∀ leaf ∈ leaves, leaf.path? = some path
  exist : leaves ≠ [] ↔ exist = true

variable {path : String}

theorem leavesAbout_nil : LeavesAbout path [] false :=
  ⟨by simp, by simp⟩

theorem leavesAbout_leaf {leaf : Filter} (h : leaf.path? = some path) :
    LeavesAbout path leaf.leaves true := by
  cases leaf with
  | all | and | or | not => contradiction
  | exists_ | in_ | notIn | compare | pattern | geo =>
    constructor
    · intro leaf hleaf
      rw [List.mem_singleton.mp hleaf]
      exact h
    · simp [leaves]

theorem LeavesAbout.append {as bs : List Filter} {a b : Bool} (ha : LeavesAbout path as a)
    (hb : LeavesAbout path bs b) : LeavesAbout path (as ++ bs) (a || b) := by
  constructor
  · intro leaf hleaf
    exact (List.mem_append.mp hleaf).elim (ha.path leaf) (hb.path leaf)
  · rw [Bool.or_eq_true, ← ha.exist, ← hb.exist, ne_eq, List.append_eq_nil_iff, not_and_or]

end Filter

/-! ### Context -/

/--
The operators that only give context to others.
-/
def isContextName (name : String) : Bool :=
  name == "$options" || name == "$maxDistance"

mutual

/--
What a query document states about a field restricts the field: it is a value, or one of its
operators is more than context for others.
-/
def Value.restricts : Value → Bool
  | .document d => !Document.isOperators d || Document.restricts d
  | _ => true

def Document.restricts : List (String × Value) → Bool
  | [] => false
  | (name, value) :: ops =>
    (if name = "$not" then Value.restricts value else !isContextName name) || Document.restricts ops

end

namespace Filter

variable {path : String}

/-! ### Fields -/

theorem isContextName_of_ofSymbol? {name : String} {op : Comparison}
    (h : Comparison.ofSymbol? name = some op) : isContextName name = false := by
  have hsymbol : op.symbol = name := by simpa using List.find?_some h
  rw [← hsymbol]
  cases op <;> decide

theorem leavesAbout_singleton {leaf : Filter} (h : leaf.path? = some path) :
    LeavesAbout path (leavesOf [leaf]) true := by
  rw [leavesOf, leavesOf, List.append_nil]
  exact leavesAbout_leaf h

theorem leavesAbout_operator {context : FieldContext} {name : String} {value : Value}
    {fs : List Filter} (h : operator path context name value = .ok fs) :
    LeavesAbout path (leavesOf fs) (!isContextName name) := by
  unfold operator at h
  split at h
  next hsymbol =>
    cases h
    rw [isContextName_of_ofSymbol? hsymbol]
    exact leavesAbout_singleton rfl
  next =>
    split at h
    case h_3 =>
      cases h
      exact leavesAbout_singleton rfl
    case h_4 =>
      split at h
      · cases h
        exact leavesAbout_singleton rfl
      · contradiction
    case h_9 | h_10 =>
      cases h
      exact leavesAbout_nil
    case h_11 => contradiction
    -- The others can refuse their operand. With an operand that they take they have one leaf.
    all_goals
      obtain ⟨_, -, heq⟩ := bind_eq_ok_iff.mp h
      cases heq
      exact leavesAbout_singleton rfl

mutual

theorem leavesAbout_ofField {value : Value} {f : Filter} (h : ofField path value = .ok f) :
    LeavesAbout path f.leaves value.restricts := by
  cases value with
  | document d =>
    rw [ofField] at h
    split at h
    next hoperators =>
      obtain ⟨fs, hfs, heq⟩ := bind_eq_ok_iff.mp h
      cases heq
      rw [leaves_conjoin, Value.restricts, hoperators]
      exact leavesAbout_ofOperators hfs
    next hoperators =>
      cases h
      rw [Value.restricts, eq_false_of_ne_true hoperators]
      exact leavesAbout_leaf rfl
  | _ =>
    cases h
    exact leavesAbout_leaf rfl

theorem leavesAbout_ofOperators {context : FieldContext} {ops : Document} {fs : List Filter}
    (h : ofOperators path context ops = .ok fs) :
    LeavesAbout path (leavesOf fs) (Document.restricts ops) := by
  cases ops with
  | nil =>
    cases h
    exact leavesAbout_nil
  | cons entry ops =>
    obtain ⟨name, value⟩ := entry
    rw [ofOperators_cons, bind_eq_ok_iff] at h
    obtain ⟨first, hfirst, h⟩ := h
    rw [bind_eq_ok_iff] at h
    obtain ⟨rest, hrest, heq⟩ := h
    cases heq
    rw [leavesOf_append, Document.restricts]
    apply LeavesAbout.append _ (leavesAbout_ofOperators hrest)
    unfold ofOperator at hfirst
    split at hfirst
    next hnot =>
      obtain ⟨f, hf, heq⟩ := bind_eq_ok_iff.mp hfirst
      cases heq
      rw [if_pos hnot, leavesOf, leavesOf, List.append_nil, leaves]
      exact leavesAbout_ofField hf
    next hnot =>
      rw [if_neg hnot]
      exact leavesAbout_operator hfirst

end

/-! ### Documents -/

theorem exists_ofEntry_of_mem {q : Document} {fs : List Filter} (h : ofFields q = .ok fs)
    {key : String} {value : Value} (hmem : (key, value) ∈ q) :
    ∃ f ∈ fs, ofEntry key value = .ok f := by
  induction q generalizing fs with
  | nil => contradiction
  | cons entry q ih =>
    rw [ofFields_cons, bind_eq_ok_iff] at h
    obtain ⟨f, hf, h⟩ := h
    rw [bind_eq_ok_iff] at h
    obtain ⟨rest, hrest, heq⟩ := h
    cases heq
    cases hmem with
    | head => exact ⟨f, List.mem_cons_self, hf⟩
    | tail _ hmem =>
      obtain ⟨g, hg, hentry⟩ := ih hrest hmem
      exact ⟨g, List.mem_cons_of_mem f hg, hentry⟩

theorem exists_leaf_of_ofDocument {q : Document} {f : Filter} (h : ofDocument q = .ok f)
    {key : String} {value : Value} (hmem : (key, value) ∈ q) (hkey : isOperatorName key = false)
    (hvalue : value.restricts = true) : ∃ leaf ∈ f.leaves, leaf.path? = some key := by
  obtain ⟨fs, hfs, heq⟩ := bind_eq_ok_iff.mp h
  cases heq
  obtain ⟨g, hg, hentry⟩ := exists_ofEntry_of_mem hfs hmem
  rw [ofEntry_of_plain value hkey] at hentry
  have habout := leavesAbout_ofField hentry
  obtain ⟨leaf, hleaf⟩ := List.exists_mem_of_ne_nil _ (habout.exist.mpr hvalue)
  rw [leaves_conjoin]
  exact ⟨leaf, leaves_subset_leavesOf hg hleaf, habout.path leaf hleaf⟩

def namesakes : Document :=
  [("age", .document [("$gt", .int32 17)]),
    ("name", .document [("$options", .string "i"),
      ("$not", .document [("$maxDistance", .int32 1), ("$regex", .string "^da")])])]

theorem exists_leaf_of_ofDocument_namesakes :
    ∃ f value, ofDocument namesakes = .ok f ∧ ("name", value) ∈ namesakes
      ∧ isOperatorName "name" = false ∧ value.restricts = true
      ∧ ∃ leaf ∈ f.leaves, leaf.path? = some "name" := by
  obtain ⟨f, hf⟩ : ∃ f, ofDocument namesakes = .ok f := ⟨_, rfl⟩
  have hmem : ("name", _) ∈ namesakes := List.mem_cons_of_mem _ List.mem_cons_self
  have hkey : isOperatorName "name" = false := by decide
  exact ⟨f, _, hf, hmem, hkey, rfl, exists_leaf_of_ofDocument hf hmem hkey rfl⟩

/--
The options of a pattern that is missing are read as no condition, and all documents are met.
-/
theorem leaves_ofDocument_options :
    ∃ f, ofDocument [("name", .document [("$options", .string "i")])] = .ok f
      ∧ isOperatorName "name" = false ∧ f.leaves = [] ∧ ∀ d, eval d f = true :=
  ⟨.all, rfl, by decide, rfl, fun _ => rfl⟩

end Filter
end DerivedQuery
