import DerivedQuery.Proofs.Pattern.Literal
import DerivedQuery.Proofs.Query.IgnoreCase

/-!
This module contains what the operators for a beginning, an end and a part of a text ask for: some
text at the path, or in an array there, that has the given text at its beginning, at its end or
anywhere.
-/

namespace DerivedQuery

open Pattern (Piece Fits)

/-! ### Texts of documents -/

def Document.HasText (d : Document) (path s : String) : Prop :=
  ∃ v ∈ d.lookup path, v = .string s ∨ ∃ items, v = .array items ∧ .string s ∈ items

theorem Document.string_mem_candidates {d : Document} {path s : String} :
    .string s ∈ d.candidates path ↔ d.HasText path s := by
  rw [candidates, HasText, List.mem_flatMap]
  refine exists_congr fun v => and_congr_right fun _ => ?_
  cases v with
  | array items => simp [elements]
  | _ => simp [elements, eq_comm]

theorem Value.string?_eq_some_iff {v : Value} {s : String} :
    v.string? = some s ↔ v = .string s := by
  cases v <;> simp [string?]

theorem Filter.matchesAt_iff {p : Pattern} {text : String} {ignoreCase : Bool}
    (h : Pattern.ofText? ignoreCase text = some p) (d : Document) (path : String) :
    matchesAt d path text ignoreCase = true
      ↔
    ∃ s, d.HasText path s ∧ p.findIn s.toList = true := by
  rw [matchesAt, h]
  simp only [List.any_eq_true, Option.any_eq_true, Value.string?_eq_some_iff,
    ← Document.string_mem_candidates]
  constructor
  · rintro ⟨_, hmem, s, rfl, hfound⟩
    exact ⟨s, hmem, hfound⟩
  · rintro ⟨s, hmem, hfound⟩
    exact ⟨_, hmem, s, rfl, hfound⟩

/-! ### Patterns of literal texts -/

namespace Operator

def isLiteral : Operator → Bool
  | .startingWith | .endingWith | .containing => true
  | _ => false

def Asks (op : Operator) (t s : String) : Prop :=
  match op with
  | .startingWith => t.toList <+: s.toList
  | .endingWith => t.toList <:+ s.toList
  | .containing => t.toList <:+: s.toList
  | _ => False

variable {op : Operator}

theorem pieces_eq_framed (h : op.isLiteral = true) (t : List Char) :
    op.pieces t = Pattern.framed (op == .startingWith) (op == .endingWith) (t.map .char) := by
  cases op with
  | startingWith | endingWith | containing => simp [pieces, Pattern.framed]
  | _ => contradiction

theorem ofText?_patternText (h : op.isLiteral = true) (ignoreCase : Bool) (t : String) :
    Pattern.ofText? ignoreCase (op.patternText t)
      =
    if (Pattern.ofPieces ignoreCase (op.pieces t.toList)).cost ≤ Pattern.maxCost then
      some (Pattern.ofPieces ignoreCase (op.pieces t.toList))
    else none := by
  have hregex : op ≠ .regex := by
    rintro rfl
    contradiction
  rw [Pattern.ofText?, toList_patternText hregex, Pattern.ofChars?_flatMap_text]

theorem findIn_pieces_iff_asks (h : op.isLiteral = true) (t s : String) :
    (Pattern.ofPieces false (op.pieces t.toList)).findIn s.toList = true ↔ op.Asks t s := by
  have hchars : ∀ piece ∈ t.toList.map Piece.char, piece.isEnd = false := by
    simp [Pattern.Piece.isEnd]
  rw [pieces_eq_framed h, Pattern.findIn_framed hchars]
  simp only [Pattern.fits_map_char, beq_iff_eq]
  cases op with
  | startingWith =>
    constructor
    · rintro ⟨before, _, after, hs, hbefore, -, rfl⟩
      rw [hbefore rfl, List.nil_append] at hs
      exact ⟨after, hs.symm⟩
    · rintro ⟨after, hs⟩
      exact ⟨[], _, after, hs.symm, by simp, by simp, rfl⟩
  | endingWith =>
    constructor
    · rintro ⟨before, _, after, hs, -, hafter, rfl⟩
      rw [hafter rfl, List.append_nil] at hs
      exact ⟨before, hs.symm⟩
    · rintro ⟨before, hs⟩
      exact ⟨before, _, [], by rw [List.append_nil, hs], by simp, by simp, rfl⟩
  | containing =>
    constructor
    · rintro ⟨before, _, after, hs, -, -, rfl⟩
      exact ⟨before, after, hs.symm⟩
    · rintro ⟨before, after, hs⟩
      exact ⟨before, _, after, hs.symm, by simp, by simp, rfl⟩
  | _ => contradiction

end Operator

/-! ### Criteria -/

namespace Criterion

variable {c : Criterion} {t : String}

theorem check_of_isLiteral (hop : c.operator.isLiteral = true) (htext : c.text? = some t)
    (method : String) (maxInSet : Nat) : c.check method maxInSet = .ok () := by
  have hoperator : c.operator.operand = .single ∧ c.operator.isRange = false
      ∧ c.operator.isPattern = true ∧ c.operator ≠ .regex := by
    cases hoperator : c.operator <;> rw [hoperator] at hop <;> simp_all [Operator.isLiteral,
      Operator.operand, Operator.isRange, Operator.isPattern]
  obtain ⟨hsingle, hrange, hpattern, hregex⟩ := hoperator
  refine check_of_single hsingle hrange hregex (fun hmatches => ?_) htext method maxInSet
  -- a text is not matched as such on collections alone, and these have no type that refuses it
  rw [matchesText, hpattern, Bool.true_and, Bool.not_eq_false'] at hmatches
  unfold checkType PropertyPath.scalarType?
  unfold PropertyPath.isCollection at hmatches
  cases hleaf : c.path.leaf with
  | collection geo => rfl
  | _ => simp [hleaf] at hmatches

theorem toFilter_of_isLiteral (hop : c.operator.isLiteral = true)
    (helement : looksForElement c.operator c.path = false) (htext : c.text? = some t) :
    c.toFilter = .pattern c.path.dotted (c.operator.patternText t) c.ignoreCase := by
  unfold toFilter toFilterWith
  rw [htext]
  cases hoperator : c.operator <;> rw [hoperator] at hop helement <;>
    simp_all [Operator.isLiteral, looksForElement, Operator.patternText]

/--
A clause for the beginning, the end or a part of a text accepts every text. It is met by the
documents that have a text of that kind at the path, unless the pattern of the text is too long to
be read.
-/
theorem eval_toFilter_iff_exists_text (hop : c.operator.isLiteral = true)
    (hcase : c.ignoreCase = false) (helement : looksForElement c.operator c.path = false)
    (htext : c.text? = some t) (hreads : Pattern.isValid (c.operator.patternText t) = true)
    (method : String) (maxInSet : Nat) :
    c.check method maxInSet = .ok ()
      ∧
    ∀ d, c.toFilter.eval d = true ↔ ∃ s, d.HasText c.path.dotted s ∧ c.operator.Asks t s := by
  refine ⟨check_of_isLiteral hop htext method maxInSet, fun d => ?_⟩
  obtain ⟨p, hp⟩ := Option.isSome_iff_exists.mp hreads
  have hpieces : Pattern.ofPieces false (c.operator.pieces t.toList) = p := by
    rw [Operator.ofText?_patternText hop] at hp
    split at hp
    next => exact Option.some.inj hp
    next => contradiction
  rw [toFilter_of_isLiteral hop helement htext, hcase, Filter.eval, Filter.matchesAt_iff hp,
    ← hpieces]
  simp only [Operator.findIn_pieces_iff_asks hop]

def titled (op : Operator) (s : String) : Criterion where
  path := ⟨["title"], .scalar .string⟩
  operator := op
  ignoreCase := false
  values := [.value (.string s)]

theorem eval_toFilter_iff_exists_text_title :
    (titled .startingWith "a.c").check "findByTitleStartingWith" 1000 = .ok ()
      ∧
    (titled .startingWith "a.c").toFilter.eval [("title", .array [.string "a.c\nd"])] = true := by
  have hreads : Pattern.isValid (Operator.startingWith.patternText "a.c") = true := by
    decide +kernel
  obtain ⟨hcheck, heval⟩ := eval_toFilter_iff_exists_text (c := titled .startingWith "a.c") rfl rfl
    rfl rfl hreads "findByTitleStartingWith" 1000
  refine ⟨hcheck, (heval _).mpr ⟨"a.c\nd", ?_, ?_⟩⟩
  · exact ⟨_, List.mem_singleton_self _, .inr ⟨_, rfl, List.mem_singleton_self _⟩⟩
  · exact ⟨"\nd".toList, by decide⟩

end Criterion
end DerivedQuery
