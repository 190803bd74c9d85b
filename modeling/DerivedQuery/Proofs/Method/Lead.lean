import DerivedQuery.Proofs.Method.PartTree
import DerivedQuery.Proofs.Text.Digits

/-!
This module contains that the same clauses are read from a method name whatever its lead: the verb,
and a limit if the verb takes one.
-/

namespace DerivedQuery

/-! ### The name of the method -/

section

variable (s : EntitySchema) (method other : String)

theorem Clause.toOption_read (all : Bool) (fragment : List Char) :
    (read s method all fragment).toOption = (read s other all fragment).toOption := by
  ext clause
  rw [toOption_eq_some_iff, toOption_eq_some_iff]
  constructor
  · apply read_method
  · apply read_method

theorem PropertyPath.toOption_resolve (token : List Char) :
    (resolve s token method).toOption = (resolve s token other).toOption := by
  ext path
  rw [toOption_eq_some_iff, toOption_eq_some_iff]
  constructor
  · apply resolve_method
  · apply resolve_method

theorem OrderClause.toOption_read (item : OrderItem) :
    (read s method item).toOption = (read s other item).toOption := by
  unfold read
  simp only [toOption_bind]
  rw [PropertyPath.toOption_resolve s method other]

namespace PartTree

theorem toOption_readFragment (all : Bool) (fragment : List Char) :
    (readFragment s method all fragment).toOption = (readFragment s other all fragment).toOption := by
  unfold readFragment
  split
  · rfl
  · apply Clause.toOption_read

theorem toOption_readGroup (all : Bool) (text : List Char) :
    (readGroup s method all text).toOption = (readGroup s other all text).toOption := by
  unfold readGroup
  rw [toOption_mapM, toOption_mapM]
  simp only [toOption_readFragment s method other]

theorem toOption_readGroups (ordered : Bool) (predicate : List Char) (ending : Option String) :
    (readGroups s method ordered predicate ending).toOption
      =
    (readGroups s other ordered predicate ending).toOption := by
  unfold readGroups
  split
  · rfl
  · rw [toOption_mapM, toOption_mapM]
    simp only [toOption_readGroup s method other]

theorem toOption_readOrder (order : Option (List Char)) :
    (readOrder s method order).toOption = (readOrder s other order).toOption := by
  cases order with
  | none => rfl
  | some text =>
    rw [readOrder, readOrder]
    split
    · rfl
    · rw [toOption_mapM, toOption_mapM]
      simp only [OrderClause.toOption_read s method other]

end PartTree

end

/-! ### Subjects -/

namespace PartTree

def limitOf (digits : List Char) : Nat :=
  if digits.isEmpty then 1 else Text.natOfDigits digits

/--
The verbs, and the subjects of `find` that set a limit.
-/
inductive IsLead : (verb : String) → (subject : List Char) → QueryKind → Option Nat → Prop where
  | find : IsLead "find" [] .find none
  | count : IsLead "count" [] .count none
  | exists_ : IsLead "exists" [] .exists_ none
  | limited (keyword : String) (digits : List Char) (keyword_mem : keyword ∈ limitKeywords)
    (isDigit : ∀ c ∈ digits, c.isDigit = true) (pos : 0 < limitOf digits)
    (le : limitOf digits ≤ maxCount) :
    IsLead "find" (keyword.toList ++ digits) .find (some (limitOf digits))

namespace IsLead

variable {verb : String} {subject : List Char} {kind : QueryKind} {limit : Option Nat}

theorem not_mem (h : IsLead verb subject kind limit) : 'B' ∉ subject ∧ 'D' ∉ subject := by
  cases h with
  | find | count | exists_ => simp
  | limited keyword digits keyword_mem isDigit =>
    have hdigits : ∀ c ∈ digits, c ≠ 'B' ∧ c ≠ 'D' := by
      intro c hc
      have hdigit := isDigit c hc
      constructor <;> (rintro rfl; contradiction)
    have hkeyword : ∀ k ∈ limitKeywords, 'B' ∉ k.toList ∧ 'D' ∉ k.toList := by
      decide
    obtain ⟨hb, hd⟩ := hkeyword keyword keyword_mem
    constructor
    · intro hmem
      obtain hmem | hmem := List.mem_append.mp hmem
      · exact hb hmem
      · exact (hdigits _ hmem).1 rfl
    · intro hmem
      obtain hmem | hmem := List.mem_append.mp hmem
      · exact hd hmem
      · exact (hdigits _ hmem).2 rfl

theorem startsCapital (h : IsLead verb subject kind limit) (tail : List Char) :
    Keyword.startsCapital (subject ++ Keyword.by_ ++ tail) = true := by
  cases h with
  | find | count | exists_ => rfl
  | limited keyword digits keyword_mem =>
    simp only [limitKeywords, List.mem_cons, List.not_mem_nil, or_false] at keyword_mem
    obtain rfl | rfl := keyword_mem <;> rfl

theorem readVerb_eq (h : IsLead verb subject kind limit) {rest : List Char}
    (hrest : Keyword.startsCapital rest = true) :
    readVerb (verb.toList ++ rest) = .ok (verb, kind, rest) := by
  cases h with
  | find | limited => simp [readVerb, writeVerbs, verb?, verbs, afterVerb?, Text.dropStart?, hrest]
  | count => simp [readVerb, writeVerbs, verb?, verbs, afterVerb?, Text.dropStart?, hrest]
  | exists_ => simp [readVerb, writeVerbs, verb?, verbs, afterVerb?, Text.dropStart?, hrest]

theorem cut?_append {subject : List Char} (h : 'B' ∉ subject) (rest : List Char) :
    Keyword.cut? Keyword.by_ (subject ++ rest)
      =
    (Keyword.cut? Keyword.by_ rest).map fun (before, after) => (subject ++ before, after) := by
  induction subject with
  | nil => simp
  | cons c subject ih =>
    rw [List.mem_cons, not_or] at h
    have hat : Keyword.isAt Keyword.by_ (c :: (subject ++ rest)) = false := by
      simp [Keyword.isAt, Keyword.by_, Text.dropStart?, h.1]
    rw [List.cons_append, Keyword.cut?, hat, ih h.2, Option.map_map]
    rfl

theorem occursIn_append {subject : List Char} (h : 'D' ∉ subject) (rest : List Char) :
    occursIn "Distinct".toList (subject ++ rest) = occursIn "Distinct".toList rest := by
  induction subject with
  | nil => rfl
  | cons c subject ih =>
    rw [List.mem_cons, not_or] at h
    rw [List.cons_append, occursIn, ih h.2]
    simp [Text.dropStart?, h.1]

/--
What stands between the lead and the clauses: nothing, or what begins with a `By` where no word
ends.
-/
def IsInner (inner : List Char) : Prop :=
  ∀ c ∈ inner.head?, c = 'B'

theorem isInner_of_cut? {tail inner after : List Char}
    (h : Keyword.cut? Keyword.by_ (Keyword.by_ ++ tail) = some (inner, after)) : IsInner inner := by
  change Keyword.cut? Keyword.by_ ('B' :: 'y' :: tail) = _ at h
  rw [Keyword.cut?] at h
  split at h
  · cases h
    simp [IsInner]
  · rw [Option.map_eq_some_iff] at h
    obtain ⟨⟨before, _⟩, -, heq⟩ := h
    cases heq
    simp [IsInner]

theorem limitKeyword?_inner {inner : List Char} (h : IsInner inner) : limitKeyword? inner = none := by
  cases inner with
  | nil => rfl
  | cons c cs =>
    have hc : c = 'B' := h c (by simp)
    subst hc
    simp [limitKeyword?, limitKeywords, Text.dropStart?]

theorem limitKeyword?_append {keyword : String} (h : keyword ∈ limitKeywords) (rest : List Char) :
    limitKeyword? (keyword.toList ++ rest) = some (keyword, rest) := by
  simp only [limitKeywords, List.mem_cons, List.not_mem_nil, or_false] at h
  obtain rfl | rfl := h <;> simp [limitKeyword?, limitKeywords, Text.dropStart?]

theorem head_inner_not_isDigit {inner : List Char} (h : IsInner inner) :
    ∀ c ∈ inner.head?, c.isDigit = false := by
  intro c hc
  rw [h c hc]
  decide

theorem readSubject_eq_ok_iff (h : IsLead verb subject kind limit) {inner : List Char}
    (hinner : IsInner inner) {name : String} {l : Option Nat} :
    readSubject name kind (subject ++ inner) = .ok l
      ↔
    occursIn "Distinct".toList inner = false ∧ limit = l := by
  unfold readSubject
  rw [occursIn_append h.not_mem.2]
  cases occursIn "Distinct".toList inner with
  | true => simp
  | false =>
    cases h with
    | find | count | exists_ => simp [limitKeyword?_inner hinner]
    | limited keyword digits keyword_mem isDigit pos le =>
      rw [List.append_assoc, limitKeyword?_append keyword_mem]
      dsimp only
      have hlimit : (if digits.isEmpty then 1 else Text.natOfDigits digits) = limitOf digits := rfl
      rw [(Text.takeWhile_isDigit_append isDigit (head_inner_not_isDigit hinner)).1, hlimit,
        if_neg (Nat.not_lt.mpr le), if_neg (Nat.ne_of_gt pos)]
      simp

theorem pos (h : IsLead verb subject kind limit) : ∀ n ∈ limit, 0 < n := by
  cases h with
  | find | count | exists_ => simp
  | limited _ _ _ _ pos => simpa using pos

end IsLead

/-! ### Names with the same tail -/

def nameOf (verb : String) (subject tail : List Char) : String :=
  verb ++ String.ofList (subject ++ Keyword.by_ ++ tail)

structure SameClauses (t t' : PartTree) : Prop where
  groups_eq : t'.groups = t.groups
  orderBy_eq : t'.orderBy = t.orderBy
  allIgnoreCase_eq : t'.allIgnoreCase = t.allIgnoreCase

variable {s : EntitySchema} {t : PartTree} {verb verb' : String} {subject subject' : List Char}
  {kind kind' : QueryKind} {limit limit' : Option Nat}

theorem normalizeChars_nameOf (verb : String) (subject tail : List Char) :
    MethodName.normalizeChars (nameOf verb subject tail).toList
      =
    verb.toList ++ (subject ++ Keyword.by_ ++ tail) := by
  rw [nameOf, String.toList_append, String.toList_ofList]
  apply MethodName.normalizeChars_of_isUpper
  simp [Keyword.by_]

theorem exists_read_nameOf (h : IsLead verb subject kind limit)
    (h' : IsLead verb' subject' kind' limit') {tail : List Char}
    (hread : read (nameOf verb subject tail) s = .ok t) :
    ∃ t', read (nameOf verb' subject' tail) s = .ok t' ∧ t'.kind = kind' ∧ t'.limit = limit'
      ∧ SameClauses t t' := by
  rw [read_eq_ok_iff, normalizeChars_nameOf] at hread
  obtain ⟨p, hread⟩ := hread
  have hverb := hread.verb
  rw [h.readVerb_eq (h.startsCapital tail), Except.ok.injEq, Prod.mk.injEq, Prod.mk.injEq] at hverb
  obtain ⟨hverb, hkind, hrest⟩ := hverb
  have hsubject := hread.subject
  rw [← hrest, List.append_assoc, IsLead.cut?_append h.not_mem.1, Option.map_eq_some_iff] at hsubject
  obtain ⟨⟨inner, after⟩, hcut, heq⟩ := hsubject
  rw [Prod.mk.injEq] at heq
  obtain ⟨hsubject, htail⟩ := heq
  have hinner := IsLead.isInner_of_cut? hcut
  have hlimit := hread.limit
  rw [← hsubject, ← hkind, h.readSubject_eq_ok_iff hinner] at hlimit
  -- the other name in its pieces
  have hcut' : Keyword.cut? Keyword.by_ (subject' ++ Keyword.by_ ++ tail)
      = some (subject' ++ inner, p.tail) := by
    rw [List.append_assoc, IsLead.cut?_append h'.not_mem.1, hcut, ← htail]
    rfl
  have hgroups := eq_ok_of_toOption_eq (toOption_readGroups s
    (String.ofList (verb'.toList ++ (subject' ++ Keyword.by_ ++ tail))) _ _ _ _) hread.groups
  have horder := eq_ok_of_toOption_eq (toOption_readOrder s
    (String.ofList (verb'.toList ++ (subject' ++ Keyword.by_ ++ tail))) _ _) hread.orderBy
  refine ⟨{
      method := String.ofList (verb'.toList ++ (subject' ++ Keyword.by_ ++ tail))
      kind := kind'
      limit := limit'
      groups := t.groups
      orderBy := t.orderBy
      allIgnoreCase := t.allIgnoreCase
      lead := verb' ++ String.ofList (subject' ++ inner) ++ "By" }, ?_, rfl, rfl, ⟨rfl, rfl, rfl⟩⟩
  rw [read_eq_ok_iff, normalizeChars_nameOf]
  exact ⟨{ p with
      verb := verb'
      rest := subject' ++ Keyword.by_ ++ tail
      subject := subject' ++ inner }, {
    verb := h'.readVerb_eq (h'.startsCapital tail)
    subject := hcut'
    limit := (h'.readSubject_eq_ok_iff hinner).mpr ⟨hlimit.1, rfl⟩
    tail := hread.tail
    order := hread.order
    ending := hread.ending
    groups := hgroups
    orderBy := horder
    method := rfl
    lead := rfl }⟩

end PartTree
end DerivedQuery
