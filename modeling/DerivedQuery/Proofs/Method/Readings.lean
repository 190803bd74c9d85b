import DerivedQuery.Proofs.Method.Clause
import Mathlib.Data.List.Nodup

/-!
This module contains that a clause is read with the longest operator that leaves a property: one
that is ambiguous is reported, and a shorter operator is not tried.
-/

namespace DerivedQuery

/-! ### Spellings -/

namespace Operator

theorem mem_allSpellings_iff {keyword : List Char} {op : Operator} :
    (keyword, op) ∈ allSpellings ↔ keyword ∈ op.keywords.map String.toList := by
  unfold allSpellings
  simp [mem_all]

theorem mem_suffixes_iff {keyword : List Char} {op : Operator} :
    (keyword, op) ∈ suffixes ↔ keyword ∈ op.keywords.map String.toList := by
  rw [suffixes, (InsertionSort.sort_perm _ _).mem_iff, mem_allSpellings_iff]

theorem nodup_spellings : (allSpellings.map Prod.fst).Nodup := by
  decide +kernel

theorem spelling_ne_nil : ∀ spelling ∈ allSpellings, spelling.1 ≠ [] := by
  decide +kernel

theorem eq_of_mem_keywords {keyword : List Char} {op op' : Operator}
    (h : keyword ∈ op.keywords.map String.toList) (h' : keyword ∈ op'.keywords.map String.toList) :
    op = op' := by
  rw [← mem_allSpellings_iff] at h h'
  exact (Prod.ext_iff.mp (List.inj_on_of_nodup_map nodup_spellings h h' rfl)).2

theorem suffixBefore_eq_false_iff {a b : List Char × Operator} :
    suffixBefore a b = false
      ↔
    a.1.length ≤ b.1.length ∧ (a.1.length = b.1.length → ¬ a.1 < b.1) := by
  unfold suffixBefore
  simp only [Bool.or_eq_false_iff, Bool.and_eq_false_iff, decide_eq_false_iff_not, Nat.not_lt,
    beq_eq_false_iff_ne, ← Decidable.imp_iff_not_or, ne_eq]

theorem lawful_suffixBefore : InsertionSort.Lawful suffixBefore := by
  constructor
  case trans =>
    intro a b c hba hcb
    rw [suffixBefore_eq_false_iff] at hba hcb ⊢
    refine ⟨Nat.le_trans hcb.1 hba.1, ?_⟩
    intro heq
    have hab := List.not_lt.mp (hba.2 (by omega))
    have hbc := List.not_lt.mp (hcb.2 (by omega))
    exact List.not_lt.mpr (List.le_trans hab hbc)
  case asymm =>
    intro a b hab
    rw [suffixBefore_eq_false_iff]
    unfold suffixBefore at hab
    simp only [Bool.or_eq_true, decide_eq_true_eq, Bool.and_eq_true, beq_iff_eq] at hab
    obtain hlt | ⟨heq, hlt⟩ := hab
    · exact ⟨Nat.le_of_lt hlt, fun heq => absurd heq (Nat.ne_of_lt hlt)⟩
    · exact ⟨Nat.le_of_eq heq.symm, fun _ => List.lt_asymm hlt⟩

theorem suffixes_sorted : suffixes.Pairwise fun a b => b.1.length ≤ a.1.length :=
  (InsertionSort.sort_sorted lawful_suffixBefore allSpellings).imp fun h =>
    (suffixBefore_eq_false_iff.mp h).1

end Operator

/-! ### Readings -/

namespace Clause

/--
The body is the property with a spelling of the operator behind it, or with nothing behind it, which
asks for equality.
-/
structure Splits (body property keyword : List Char) (op : Operator) : Prop where
  body_eq : body = property ++ keyword
  property_ne_nil : property ≠ []
  spelling : keyword ∈ op.keywords.map String.toList ∨ keyword = [] ∧ op = .equals

structure IsReading (s : EntitySchema) (body property keyword : List Char) (op : Operator) : Prop
    extends Splits body property keyword op where
  meant : Resolution.of s property ≠ .missing

structure IsLongest (s : EntitySchema) (body property keyword : List Char) (op : Operator) : Prop
    extends IsReading s body property keyword op where
  longest : ∀ property' keyword' op', IsReading s body property' keyword' op' →
    keyword'.length ≤ keyword.length

variable {s : EntitySchema} {body property keyword : List Char} {op : Operator}

theorem keyword_eq_nil_or_mem (h : Splits body property keyword op) :
    keyword = [] ∧ op = .equals ∨ (keyword, op) ∈ Operator.suffixes := by
  rw [Operator.mem_suffixes_iff]
  exact h.spelling.symm

theorem IsLongest.unique {property' keyword' : List Char} {op' : Operator}
    (h : IsLongest s body property keyword op) (h' : IsLongest s body property' keyword' op') :
    property = property' ∧ keyword = keyword' ∧ op = op' := by
  have hlength : keyword.length = keyword'.length :=
    Nat.le_antisymm (h'.longest _ _ _ h.toIsReading) (h.longest _ _ _ h'.toIsReading)
  obtain ⟨hproperty, hkeyword⟩ :=
    List.append_inj' (h.body_eq.symm.trans h'.body_eq) hlength
  subst hproperty hkeyword
  refine ⟨rfl, rfl, ?_⟩
  have hne : keyword ∈ op.keywords.map String.toList → keyword ≠ [] := fun hmem =>
    Operator.spelling_ne_nil _ (Operator.mem_allSpellings_iff.mpr hmem)
  have hne' : keyword ∈ op'.keywords.map String.toList → keyword ≠ [] := fun hmem =>
    Operator.spelling_ne_nil _ (Operator.mem_allSpellings_iff.mpr hmem)
  obtain hmem | ⟨hnil, hop⟩ := h.spelling
  · obtain hmem' | ⟨hnil, -⟩ := h'.spelling
    · exact Operator.eq_of_mem_keywords hmem hmem'
    · exact absurd hnil (hne hmem)
  · obtain hmem' | ⟨-, hop'⟩ := h'.spelling
    · exact absurd hnil (hne' hmem')
    · rw [hop, hop']

/-! ### The first reading -/

def answer (method : String) (property : List Char) (op : Operator) :
    Resolution → Option (Except QueryError (PropertyPath × Operator))
  | .found path => some (.ok (path, op))
  | .ambiguous candidates =>
    some (.error (.ambiguousProperty method (String.ofList property) candidates))
  | .missing => none

theorem firstReading?_cons (method : String) (readings : List (List Char × Operator)) :
    firstReading? s method ((property, op) :: readings)
      =
    (answer method property op (Resolution.of s property)).or
      (firstReading? s method readings) := by
  rw [firstReading?]
  cases Resolution.of s property <;> rfl

theorem answer_eq_none_iff {method : String} {resolution : Resolution} :
    answer method property op resolution = none ↔ resolution = .missing := by
  cases resolution <;> simp [answer]

theorem answer_eq_ok_iff {method : String} {resolution : Resolution} {path : PropertyPath}
    {op' : Operator} :
    answer method property op resolution = some (.ok (path, op'))
      ↔
    resolution = .found path ∧ op = op' := by
  cases resolution <;> simp [answer]

theorem answer_eq_error_iff {method : String} {resolution : Resolution} {e : QueryError} :
    answer method property op resolution = some (.error e)
      ↔
    ∃ candidates, resolution = .ambiguous candidates
      ∧ e = .ambiguousProperty method (String.ofList property) candidates := by
  cases resolution <;> simp [answer, eq_comm]

theorem firstReading?_append (method : String) {before after : List (List Char × Operator)}
    (hbefore : ∀ reading ∈ before, Resolution.of s reading.1 = .missing)
    (hmeant : Resolution.of s property ≠ .missing) :
    firstReading? s method (before ++ (property, op) :: after)
      =
    answer method property op (Resolution.of s property) := by
  induction before with
  | nil =>
    rw [List.nil_append, firstReading?_cons]
    cases hanswer : answer method property op (Resolution.of s property) with
    | none => exact absurd (answer_eq_none_iff.mp hanswer) hmeant
    | some result => rfl
  | cons reading before ih =>
    obtain ⟨hfirst, hrest⟩ := List.forall_mem_cons.mp hbefore
    rw [List.cons_append, firstReading?_cons, hfirst, ih hrest]
    rfl

theorem firstReading?_eq_none {method : String} {readings : List (List Char × Operator)}
    (h : ∀ reading ∈ readings, Resolution.of s reading.1 = .missing) :
    firstReading? s method readings = none := by
  induction readings with
  | nil => rfl
  | cons reading readings ih =>
    obtain ⟨hfirst, hrest⟩ := List.forall_mem_cons.mp h
    rw [firstReading?_cons, hfirst, ih hrest]
    rfl

/-! ### All readings -/

def cutSpelling? (body : List Char) (spelling : List Char × Operator) :
    Option (List Char × Operator) :=
  match Text.dropEnd? spelling.1 body with
  | some property => if property.isEmpty then none else some (property, spelling.2)
  | none => none

theorem cutSpelling?_eq_some_iff {spelling : List Char × Operator} :
    cutSpelling? body spelling = some (property, op)
      ↔
    body = property ++ spelling.1 ∧ property ≠ [] ∧ op = spelling.2 := by
  unfold cutSpelling?
  rw [← Text.dropEnd?_eq_some_iff]
  cases Text.dropEnd? spelling.1 body with
  | none => simp
  | some front =>
    simp only [Option.ite_none_left_eq_some, List.isEmpty_iff, Option.some.injEq, Prod.mk.injEq]
    constructor
    · rintro ⟨hne, rfl, rfl⟩
      exact ⟨rfl, hne, rfl⟩
    · rintro ⟨rfl, hne, rfl⟩
      exact ⟨hne, rfl, rfl⟩

theorem readings_eq (body : List Char) :
    readings body = Operator.suffixes.filterMap (cutSpelling? body) ++ [(body, .equals)] := rfl

theorem mem_readings_of_splits (h : Splits body property keyword op) :
    (property, op) ∈ readings body := by
  rw [readings_eq, List.mem_append]
  obtain ⟨rfl, rfl⟩ | hmem := keyword_eq_nil_or_mem h
  · rw [h.body_eq, List.append_nil]
    exact .inr List.mem_cons_self
  · left
    rw [List.mem_filterMap]
    exact ⟨_, hmem, cutSpelling?_eq_some_iff.mpr ⟨h.body_eq, h.property_ne_nil, rfl⟩⟩

theorem exists_splits_of_mem_readings (h : (property, op) ∈ readings body)
    (hne : property ≠ []) : ∃ keyword, Splits body property keyword op := by
  rw [readings_eq, List.mem_append] at h
  obtain h | h := h
  · obtain ⟨⟨keyword, op'⟩, hmem, hcut⟩ := List.mem_filterMap.mp h
    obtain ⟨hbody, -, rfl⟩ := cutSpelling?_eq_some_iff.mp hcut
    exact ⟨keyword, hbody, hne, .inl (Operator.mem_suffixes_iff.mp hmem)⟩
  · cases List.mem_singleton.mp h
    exact ⟨[], (List.append_nil _).symm, hne, .inr ⟨rfl, rfl⟩⟩

theorem readings_sorted (body : List Char) :
    (readings body).Pairwise fun a b => a.1.length ≤ b.1.length := by
  have hcut {spelling reading} (h : cutSpelling? body spelling = some reading) :
      body.length = reading.1.length + spelling.1.length := by
    rw [(cutSpelling?_eq_some_iff.mp h).1, List.length_append]
  rw [readings_eq, List.pairwise_append]
  refine ⟨?_, List.pairwise_singleton _ _, ?_⟩
  · rw [List.pairwise_filterMap]
    refine Operator.suffixes_sorted.imp fun {a b} hle r hr r' hr' => ?_
    have := hcut hr
    have := hcut hr'
    omega
  · intro reading hreading last hlast
    obtain ⟨spelling, -, hspelling⟩ := List.mem_filterMap.mp hreading
    rw [List.mem_singleton.mp hlast, hcut hspelling]
    exact Nat.le_add_right _ _

/-! ### The longest reading -/

theorem of_nil (s : EntitySchema) : Resolution.of s [] = .missing := rfl

theorem exists_first (s : EntitySchema) (readings : List (List Char × Operator)) :
    (∀ reading ∈ readings, Resolution.of s reading.1 = .missing)
      ∨
    ∃ before property op after, readings = before ++ (property, op) :: after
      ∧ (∀ reading ∈ before, Resolution.of s reading.1 = .missing)
      ∧ Resolution.of s property ≠ .missing := by
  induction readings with
  | nil => exact .inl (by simp)
  | cons reading readings ih =>
    by_cases hfirst : Resolution.of s reading.1 = .missing
    · obtain hnone | ⟨before, property, op, after, rfl, hbefore, hmeant⟩ := ih
      · exact .inl (List.forall_mem_cons.mpr ⟨hfirst, hnone⟩)
      · exact .inr ⟨reading :: before, property, op, after, rfl,
          List.forall_mem_cons.mpr ⟨hfirst, hbefore⟩, hmeant⟩
    · exact .inr ⟨[], reading.1, reading.2, readings, rfl, by simp, hfirst⟩

def IsUnreadable (s : EntitySchema) (body : List Char) : Prop :=
  ∀ property keyword op, ¬ IsReading s body property keyword op

theorem exists_isLongest (s : EntitySchema) (method : String) (body : List Char) :
    (IsUnreadable s body ∧ firstReading? s method (readings body) = none)
      ∨
    ∃ property keyword op, IsLongest s body property keyword op
      ∧ firstReading? s method (readings body)
        = answer method property op (Resolution.of s property) := by
  obtain hnone | ⟨before, property, op, after, hreadings, hbefore, hmeant⟩ :=
    exists_first s (readings body)
  · left
    refine ⟨?_, firstReading?_eq_none hnone⟩
    intro property keyword op h
    exact h.meant (hnone _ (mem_readings_of_splits h.toSplits))
  · right
    have hne : property ≠ [] := by
      rintro rfl
      exact hmeant (of_nil s)
    have hmem : (property, op) ∈ readings body := by
      rw [hreadings]
      simp
    obtain ⟨keyword, hsplits⟩ := exists_splits_of_mem_readings hmem hne
    refine ⟨property, keyword, op, ⟨⟨hsplits, hmeant⟩, ?_⟩, ?_⟩
    · intro property' keyword' op' h
      have hmem' := mem_readings_of_splits h.toSplits
      have hsorted := readings_sorted body
      rw [hreadings] at hmem' hsorted
      have hle : property.length ≤ property'.length := by
        obtain hmem' | hmem' := List.mem_append.mp hmem'
        · exact absurd (hbefore _ hmem') h.meant
        · obtain heq | hmem' := List.mem_cons.mp hmem'
          · cases heq
            exact Nat.le_refl _
          · exact (List.pairwise_cons.mp (List.pairwise_append.mp hsorted).2.1).1 _ hmem'
      have hlength := congrArg List.length (hsplits.body_eq.symm.trans h.body_eq)
      simp only [List.length_append] at hlength
      omega
    · rw [hreadings]
      exact firstReading?_append method hbefore hmeant

theorem resolve_cases (s : EntitySchema) (method : String) (body : List Char) :
    (IsUnreadable s body ∧ resolve s method body = .error (noReading s method body))
      ∨
    ∃ property keyword op, IsLongest s body property keyword op
      ∧ answer method property op (Resolution.of s property) = some (resolve s method body) := by
  obtain ⟨hunreadable, hnone⟩ | ⟨property, keyword, op, hlongest, hfirst⟩ :=
    exists_isLongest s method body
  · left
    refine ⟨hunreadable, ?_⟩
    rw [resolve, hnone]
  · right
    refine ⟨property, keyword, op, hlongest, ?_⟩
    cases hanswer : answer method property op (Resolution.of s property) with
    | none => exact absurd (answer_eq_none_iff.mp hanswer) hlongest.meant
    | some result => rw [resolve, hfirst, hanswer]

def IsUnread : QueryError → Prop
  | .unresolvedProperty .. | .unsupportedOperator .. => True
  | _ => False

theorem isUnread_noReading (s : EntitySchema) (method : String) (body : List Char) :
    IsUnread (noReading s method body) := by
  unfold noReading
  dsimp only
  split
  · split <;> trivial
  · trivial

theorem resolve_eq_ok_iff {method : String} {path : PropertyPath} :
    resolve s method body = .ok (path, op)
      ↔
    ∃ property keyword, IsLongest s body property keyword op
      ∧ Resolution.of s property = .found path := by
  obtain ⟨hunreadable, herror⟩ | ⟨property, keyword, op', hlongest, hanswer⟩ :=
    resolve_cases s method body
  · rw [herror]
    constructor
    · intro h
      contradiction
    · rintro ⟨property, keyword, h, -⟩
      exact absurd h.toIsReading (hunreadable property keyword op)
  · constructor
    · intro h
      rw [h, answer_eq_ok_iff] at hanswer
      obtain ⟨hfound, rfl⟩ := hanswer
      exact ⟨property, keyword, hlongest, hfound⟩
    · rintro ⟨property', keyword', h, hfound⟩
      obtain ⟨rfl, -, rfl⟩ := hlongest.unique h
      rw [hfound] at hanswer
      exact (Option.some.inj hanswer).symm

theorem resolve_eq_ambiguous_iff {method name token : String} {candidates : List String} :
    resolve s method body = .error (.ambiguousProperty name token candidates)
      ↔
    ∃ property keyword op, IsLongest s body property keyword op
      ∧ Resolution.of s property = .ambiguous candidates
      ∧ name = method ∧ token = String.ofList property := by
  obtain ⟨hunreadable, herror⟩ | ⟨property, keyword, op', hlongest, hanswer⟩ :=
    resolve_cases s method body
  · constructor
    · intro h
      have hunread := isUnread_noReading s method body
      rw [herror, Except.error.injEq] at h
      rw [h] at hunread
      exact hunread.elim
    · rintro ⟨property, keyword, op, h, -⟩
      exact absurd h.toIsReading (hunreadable property keyword op)
  · constructor
    · intro h
      rw [h, answer_eq_error_iff] at hanswer
      obtain ⟨_, hambiguous, heq⟩ := hanswer
      cases heq
      exact ⟨property, keyword, op', hlongest, hambiguous, rfl, rfl⟩
    · rintro ⟨property', keyword', op, h, hambiguous, rfl, rfl⟩
      obtain ⟨rfl, -, rfl⟩ := hlongest.unique h
      rw [hambiguous] at hanswer
      exact (Option.some.inj hanswer).symm

theorem exists_isUnread_iff {method : String} :
    (∃ e, resolve s method body = .error e ∧ IsUnread e) ↔ IsUnreadable s body := by
  obtain ⟨hunreadable, herror⟩ | ⟨property, keyword, op', hlongest, hanswer⟩ :=
    resolve_cases s method body
  · exact ⟨fun _ => hunreadable, fun _ => ⟨_, herror, isUnread_noReading s method body⟩⟩
  · constructor
    · rintro ⟨e, he, hunread⟩
      rw [he, answer_eq_error_iff] at hanswer
      obtain ⟨_, -, rfl⟩ := hanswer
      exact hunread.elim
    · intro hunreadable
      exact absurd hlongest.toIsReading (hunreadable property keyword op')

/--
The longest reading decides. If its property is one path, this is the answer, with its operator. If
it is ambiguous, that is the error. Any other error is for a body without a reading.
-/
theorem resolve_decides_longest (s : EntitySchema) (method : String) (body : List Char) :
    (∀ path op, resolve s method body = .ok (path, op)
        ↔
      ∃ property keyword, IsLongest s body property keyword op
        ∧ Resolution.of s property = .found path)
      ∧
    (∀ name token candidates,
      resolve s method body = .error (.ambiguousProperty name token candidates)
        ↔
      ∃ property keyword op, IsLongest s body property keyword op
        ∧ Resolution.of s property = .ambiguous candidates
        ∧ name = method ∧ token = String.ofList property)
      ∧
    ((∃ e, resolve s method body = .error e ∧ IsUnread e) ↔ IsUnreadable s body) :=
  ⟨fun _ _ => resolve_eq_ok_iff, fun _ _ _ => resolve_eq_ambiguous_iff, exists_isUnread_iff⟩

/--
Not as `nameNot` with the operator `In`.
-/
example :
    let file : EntitySchema := ⟨"File", [⟨"name", .scalar .string⟩, ⟨"nameNot", .scalar .string⟩]⟩
    ((resolve file "findByNameNotIn" "NameNotIn".toList).toOption.map fun (path, op) =>
      (path.segments, op)) = some (["name"], .notIn) := by
  decide +kernel

end Clause
end DerivedQuery
