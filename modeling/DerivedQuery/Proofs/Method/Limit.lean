import DerivedQuery.Proofs.Method.Lead
import DerivedQuery.Proofs.Text.Letters

/-!
This module contains when the subject of a method name limits the result: when it begins with
`First` or `Top` and a number, unless the word goes on behind them. Then it limits the result as
well, although its first letters are no keyword.
-/

namespace DerivedQuery

/-! ### The first occurrence of a keyword -/

namespace Keyword

variable {keyword s before after : List Char}

theorem first_of_cut?_eq_some (h : cut? keyword s = some (before, after)) :
    (after = [] ∨ startsCapital after = true)
      ∧
    ∀ front back, s = front ++ (keyword ++ back) → (back = [] ∨ startsCapital back = true) →
      before.length ≤ front.length := by
  induction s generalizing before after with
  | nil => simp [cut?] at h
  | cons c cs ih =>
    unfold cut? at h
    split at h
    next hat =>
      cases h
      obtain ⟨rest, hs, hends⟩ := (isAt_eq_true_iff _ _).mp hat
      rw [hs, List.drop_left]
      exact ⟨hends, fun _ _ _ _ => Nat.zero_le _⟩
    next hat =>
      obtain ⟨⟨front, back⟩, hcut, heq⟩ := Option.map_eq_some_iff.mp h
      cases heq
      obtain ⟨hends, hfirst⟩ := ih hcut
      refine ⟨hends, ?_⟩
      intro front' back' hs hends'
      cases front' with
      | nil =>
        rw [hs] at hat
        exact absurd (isAt_append_self keyword hends') hat
      | cons d front' =>
        rw [List.cons_append, List.cons.injEq] at hs
        exact Nat.succ_le_succ (hfirst front' back' hs.2 hends')

end Keyword

namespace PartTree

variable {s : EntitySchema} {t : PartTree} {method : String} {name subject : List Char} {n : Nat}

/-! ### Subjects -/

/--
The subject stands between a verb and the first `By` at which a word ends.
-/
def IsSubject (name subject : List Char) : Prop :=
  ∃ verb ∈ verbs, ∃ tail,
    name = verb.1.toList ++ (subject ++ (Keyword.by_ ++ tail))
      ∧
    (tail = [] ∨ Keyword.startsCapital tail = true)
      ∧
    ∀ front back, subject ++ (Keyword.by_ ++ tail) = front ++ (Keyword.by_ ++ back) →
      (back = [] ∨ Keyword.startsCapital back = true) → subject.length ≤ front.length

theorem find_mem_verbs : ("find", .find) ∈ verbs :=
  List.mem_cons_self

theorem isSubject_of_cut? {verb : String × QueryKind} (hverb : verb ∈ verbs) {rest tail : List Char}
    (h : Keyword.cut? Keyword.by_ rest = some (subject, tail)) :
    IsSubject (verb.1.toList ++ rest) subject := by
  obtain ⟨hends, hfirst⟩ := Keyword.first_of_cut?_eq_some h
  rw [Keyword.eq_of_cut?_eq_some h] at hfirst ⊢
  exact ⟨verb, hverb, tail, rfl, hends, hfirst⟩

theorem ReadFrom.isSubject_iff {p : Pieces} (h : ReadFrom s name t p) :
    IsSubject name subject ↔ subject = p.subject := by
  obtain ⟨hverb, hafter⟩ := afterVerb?_of_readVerb_eq_ok h.verb
  have hname := (afterVerb?_eq_some_iff.mp hafter).1
  have hrest := Keyword.eq_of_cut?_eq_some h.subject
  obtain ⟨hends, hfirst⟩ := Keyword.first_of_cut?_eq_some h.subject
  constructor
  · rintro ⟨verb, hmem, tail, heq, hends', hfirst'⟩
    rw [hname] at heq
    have hsame := verb_unique hverb hmem heq
    rw [← hsame, List.append_cancel_left_eq] at heq
    -- each of the two subjects ends at the first `By`
    have hle := hfirst subject tail heq hends'
    have hge := hfirst' p.subject p.tail (heq ▸ hrest) hends
    rw [hrest] at heq
    exact (List.append_inj heq (Nat.le_antisymm hle hge)).1.symm
  · rintro rfl
    rw [hname]
    exact isSubject_of_cut? hverb h.subject

/-! ### Limits -/

/--
The subject begins with a limiting keyword and the number, or no number for one, and there a word
ends.
-/
def SetsLimit (subject : List Char) (n : Nat) : Prop :=
  ∃ keyword ∈ limitKeywords, ∃ digits rest,
    subject = keyword.toList ++ (digits ++ rest)
      ∧
    (∀ c ∈ digits, c.isDigit = true)
      ∧
    (rest = [] ∨ Keyword.startsCapital rest = true)
      ∧
    n = limitOf digits

/--
The subject begins with the letters of a limiting keyword, and perhaps a number, but there the word
goes on.
-/
def RunsOn (subject : List Char) : Prop :=
  ∃ keyword ∈ limitKeywords, ∃ digits c rest,
    subject = keyword.toList ++ (digits ++ c :: rest)
      ∧
    (∀ c ∈ digits, c.isDigit = true)
      ∧
    c.isDigit = false ∧ c.isUpper = false

theorem limitKeyword?_eq_some_iff {keyword : String} {rest : List Char} :
    limitKeyword? subject = some (keyword, rest)
      ↔
    keyword ∈ limitKeywords ∧ subject = keyword.toList ++ rest := by
  constructor
  · intro h
    obtain ⟨found, hmem, hfound⟩ := List.exists_of_findSome?_eq_some h
    obtain ⟨after, hafter, heq⟩ := Option.map_eq_some_iff.mp hfound
    cases heq
    exact ⟨hmem, (Text.dropStart?_eq_some_iff _ _ _).mp hafter⟩
  · rintro ⟨hmem, rfl⟩
    exact IsLead.limitKeyword?_append hmem rest

theorem limit_of_readSubject_eq_ok {name : String} {kind : QueryKind} {limit : Option Nat}
    (h : readSubject name kind subject = .ok limit) :
    limit = (limitKeyword? subject).map fun found => limitOf (found.2.takeWhile Char.isDigit) := by
  unfold readSubject at h
  split at h
  next => contradiction
  next =>
    cases hkeyword : limitKeyword? subject with
    | none =>
      rw [hkeyword] at h
      cases h
      rfl
    | some found =>
      have hlimit : (if (found.2.takeWhile Char.isDigit).isEmpty then 1
          else Text.natOfDigits (found.2.takeWhile Char.isDigit))
          = limitOf (found.2.takeWhile Char.isDigit) := rfl
      simp only [hkeyword, hlimit] at h
      split_ifs at h
      cases h
      rfl

/--
The limit is the number behind the letters of a limiting keyword, whatever follows it.
-/
theorem ReadFrom.limit_eq_some_iff {p : Pieces} (h : ReadFrom s name t p) :
    t.limit = some n
      ↔
    ∃ keyword ∈ limitKeywords, ∃ rest,
      p.subject = keyword.toList ++ rest ∧ n = limitOf (rest.takeWhile Char.isDigit) := by
  rw [limit_of_readSubject_eq_ok h.limit, Option.map_eq_some_iff]
  constructor
  · rintro ⟨⟨keyword, rest⟩, hfound, rfl⟩
    obtain ⟨hmem, hsubject⟩ := limitKeyword?_eq_some_iff.mp hfound
    exact ⟨keyword, hmem, rest, hsubject, rfl⟩
  · rintro ⟨keyword, hmem, rest, hsubject, rfl⟩
    exact ⟨(keyword, rest), limitKeyword?_eq_some_iff.mpr ⟨hmem, hsubject⟩, rfl⟩

theorem head_not_isDigit {rest : List Char} (h : rest = [] ∨ Keyword.startsCapital rest = true) :
    ∀ c ∈ rest.head?, c.isDigit = false := by
  cases rest with
  | nil => simp
  | cons c rest =>
    have hupper : c.isUpper = true := h.resolve_left (List.cons_ne_nil c rest)
    simpa using Text.isDigit_of_isUpper hupper

theorem not_setsLimit_of_runsOn (h : RunsOn subject) : ¬ SetsLimit subject n := by
  rintro ⟨keyword, hmem, digits, rest, hsubject, hdigits, hrest, -⟩
  obtain ⟨keyword', hmem', digits', c, rest', hsubject', hdigits', hdigit, hupper⟩ := h
  have hfound := limitKeyword?_eq_some_iff.mpr ⟨hmem, hsubject⟩
  rw [limitKeyword?_eq_some_iff.mpr ⟨hmem', hsubject'⟩, Option.some.injEq, Prod.mk.injEq] at hfound
  have hbehind := (Text.takeWhile_isDigit_append hdigits (head_not_isDigit hrest)).2
  rw [← hfound.2, (Text.takeWhile_isDigit_append hdigits' (by simpa using hdigit)).2] at hbehind
  rw [← hbehind] at hrest
  have hcapital : c.isUpper = true := hrest.resolve_left (List.cons_ne_nil c rest')
  rw [hupper] at hcapital
  contradiction

/--
A name that is read has one subject, and the number that this sets is the limit, unless the word
goes on behind a limiting keyword.
-/
theorem exists_subject_limit_eq_some_iff (h : read method s = .ok t) :
    ∃ subject,
      (∀ other, IsSubject (MethodName.normalizeChars method.toList) other ↔ other = subject)
        ∧
      (¬ RunsOn subject → ∀ n, t.limit = some n ↔ SetsLimit subject n) := by
  obtain ⟨p, hread⟩ := read_eq_ok_iff.mp h
  refine ⟨p.subject, fun other => hread.isSubject_iff, ?_⟩
  intro hends n
  rw [hread.limit_eq_some_iff]
  constructor
  · rintro ⟨keyword, hmem, rest, hsubject, rfl⟩
    obtain ⟨digits, hrest, hdigits, hhead⟩ := Text.exists_dropWhile_isDigit rest
    generalize rest.dropWhile Char.isDigit = behind at hrest hhead
    subst hrest
    refine ⟨keyword, hmem, digits, behind, hsubject, hdigits, ?_, ?_⟩
    · cases behind with
      | nil => exact .inl rfl
      | cons c behind =>
        refine .inr ?_
        by_contra hcapital
        exact hends ⟨keyword, hmem, digits, c, behind, hsubject, hdigits, hhead c rfl,
          by simpa [Keyword.startsCapital] using hcapital⟩
    · rw [(Text.takeWhile_isDigit_append hdigits hhead).1]
  · rintro ⟨keyword, hmem, digits, rest, hsubject, hdigits, hrest, rfl⟩
    refine ⟨keyword, hmem, digits ++ rest, hsubject, ?_⟩
    rw [(Text.takeWhile_isDigit_append hdigits (head_not_isDigit hrest)).1]

theorem exists_subject_limit_eq_some_iff_persons :
    ∃ t,
      read "findTop12PersonsByBrand" person = .ok t
        ∧
      SetsLimit "Top12Persons".toList 12 ∧ t.limit = some 12 := by
  have hread : (read "findTop12PersonsByBrand" person).toOption.isSome = true := by
    decide +kernel
  obtain ⟨t, h⟩ := exists_eq_ok_of_isSome hread
  have hsets : SetsLimit "Top12Persons".toList 12 :=
    ⟨"Top", by decide, "12".toList, "Persons".toList, by decide, List.all_eq_true.mp (by decide),
      by decide, by decide⟩
  obtain ⟨subject, hsubject, hlimit⟩ := exists_subject_limit_eq_some_iff h
  have hname : MethodName.normalizeChars "findTop12PersonsByBrand".toList
      = "find".toList ++ "Top12PersonsByBrand".toList := by
    decide
  have hcut : Keyword.cut? Keyword.by_ "Top12PersonsByBrand".toList
      = some ("Top12Persons".toList, "Brand".toList) := by
    decide
  have heq : "Top12Persons".toList = subject := by
    rw [← hsubject, hname]
    exact isSubject_of_cut? find_mem_verbs hcut
  rw [← heq] at hlimit
  exact ⟨t, h, hsets, (hlimit (fun hruns => not_setsLimit_of_runsOn hruns hsets) 12).mpr hsets⟩

/--
A search for topics finds one.
-/
theorem exists_subject_limit_topics_ne :
    ∃ t,
      read "findTopicsByBrand" person = .ok t
        ∧
      t.kind = .find
        ∧
      IsSubject (MethodName.normalizeChars "findTopicsByBrand".toList) "Topics".toList
        ∧
      (∀ n, ¬ SetsLimit "Topics".toList n)
        ∧
      t.limit = some 1 := by
  have hread : ((read "findTopicsByBrand" person).toOption.map fun t => (t.kind, t.limit))
      = some (.find, some 1) := by
    decide +kernel
  obtain ⟨t, h, hlimit⟩ := Option.map_eq_some_iff.mp hread
  rw [Prod.mk.injEq] at hlimit
  have hname : MethodName.normalizeChars "findTopicsByBrand".toList
      = "find".toList ++ "TopicsByBrand".toList := by
    decide
  have hcut : Keyword.cut? Keyword.by_ "TopicsByBrand".toList
      = some ("Topics".toList, "Brand".toList) := by
    decide
  have hruns : RunsOn "Topics".toList :=
    ⟨"Top", by decide, [], 'i', "cs".toList, by decide, by simp, by decide, by decide⟩
  have hnone : ∀ n, ¬ SetsLimit "Topics".toList n := fun _ => not_setsLimit_of_runsOn hruns
  refine ⟨t, toOption_eq_some_iff.mp h, hlimit.1, ?_, hnone, hlimit.2⟩
  rw [hname]
  exact isSubject_of_cut? find_mem_verbs hcut

end PartTree
end DerivedQuery
