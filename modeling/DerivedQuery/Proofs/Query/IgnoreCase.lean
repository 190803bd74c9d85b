import DerivedQuery.Proofs.Query.Checked
import DerivedQuery.Proofs.Query.Like

/-!
This module contains that a clause which ignores case does not distinguish texts that differ in the
case of ASCII letters alone, whatever its operator makes of them. A search for an element of a
collection is the exception.
-/

namespace DerivedQuery

open Pattern (Piece)
open Pattern.Piece (SameButCase)
open Text (SameLetters)

/-! ### Patterns of operators -/

namespace Operator

def patternText (op : Operator) (s : String) : String :=
  match op with
  | .equals | .notEquals => Criterion.wholeText s
  | .like | .notLike => Like.toPattern s
  | .startingWith => "^" ++ Pattern.escape s
  | .endingWith => Pattern.escape s ++ "$"
  | .regex => s
  | _ => Pattern.escape s

def pieces (op : Operator) (s : List Char) : List Piece :=
  match op with
  | .equals | .notEquals => .start :: (s.map .char ++ [.finish])
  | .like | .notLike => Like.pieces s
  | .startingWith => .start :: s.map .char
  | .endingWith => s.map .char ++ [.finish]
  | _ => s.map .char

def isNegated : Operator → Bool
  | .notEquals | .notLike | .notContaining => true
  | _ => false

theorem flatMap_text_map_char (s : List Char) :
    (s.map Piece.char).flatMap Piece.text = Pattern.escapeChars s := by
  rw [List.flatMap_map]
  rfl

theorem toList_patternText {op : Operator} (hregex : op ≠ .regex) (s : String) :
    (op.patternText s).toList = (op.pieces s.toList).flatMap Piece.text := by
  have hliteral := flatMap_text_map_char s.toList
  have hescape : (Pattern.escape s).toList = Pattern.escapeChars s.toList := String.toList_ofList
  cases op with
  | regex => exact absurd rfl hregex
  | like | notLike =>
    rw [patternText, pieces, ← Like.patternChars_eq]
    exact String.toList_ofList
  | equals | notEquals =>
    rw [patternText, pieces, List.flatMap_cons, List.flatMap_append, hliteral, Criterion.wholeText,
      String.toList_append, String.toList_append, hescape]
    rfl
  | startingWith =>
    rw [patternText, pieces, List.flatMap_cons, hliteral, String.toList_append, hescape]
    rfl
  | endingWith =>
    rw [patternText, pieces, List.flatMap_append, hliteral, String.toList_append, hescape]
    rfl
  | _ => exact hescape.trans hliteral.symm

theorem forall₂_pieces (op : Operator) {s t : List Char} (h : SameLetters s t) :
    List.Forall₂ SameButCase (op.pieces s) (op.pieces t) := by
  have hchars : List.Forall₂ SameButCase (s.map .char) (t.map .char) := by
    rw [List.forall₂_map_left_iff, List.forall₂_map_right_iff]
    exact h.imp fun _ _ => .char
  have hends : List.Forall₂ SameButCase [.finish] [.finish] := .cons (.refl _) .nil
  cases op with
  | like | notLike => exact Like.forall₂_pieces h
  | equals | notEquals => exact .cons (.refl _) (List.rel_append hchars hends)
  | startingWith => exact .cons (.refl _) hchars
  | endingWith => exact List.rel_append hchars hends
  | _ => exact hchars

end Operator

theorem Filter.matchesAt_congr {s t : String} {as bs : List Piece}
    (hs : s.toList = as.flatMap Piece.text) (ht : t.toList = bs.flatMap Piece.text)
    (h : List.Forall₂ SameButCase as bs) (d : Document) (path : String) :
    matchesAt d path s true = matchesAt d path t true := by
  have halike := Pattern.alike_ofPieces h
  unfold matchesAt Pattern.ofText?
  rw [hs, ht, Pattern.ofChars?_flatMap_text, Pattern.ofChars?_flatMap_text, halike.cost]
  by_cases hcost : (Pattern.ofPieces true bs).cost ≤ Pattern.maxCost
  · rw [if_pos hcost, if_pos hcost]
    simp only [halike.findIn]
  · rw [if_neg hcost, if_neg hcost]

/-! ### Criteria -/

namespace Criterion

def looksForElement (op : Operator) (path : PropertyPath) : Bool :=
  path.isCollection && (op == .containing || op == .notContaining)

variable {c : Criterion} {s : String}

theorem value?_of_text? (h : c.text? = some s) : c.value? 0 = some (.string s) := by
  obtain ⟨v, hvalue, hstring⟩ := Option.bind_eq_some_iff.mp h
  cases v with
  | string =>
    cases hstring
    exact hvalue
  | _ => contradiction

theorem operand_of_supportsIgnoreCase {op : Operator} {path : PropertyPath}
    (h : Clause.supportsIgnoreCase op path = true) :
    op.operand = .single ∧ op.isRange = false := by
  cases op <;>
    simp_all [Clause.supportsIgnoreCase, Operator.isPattern, Operator.operand, Operator.isRange]

theorem checkType_of_supportsIgnoreCase
    (h : Clause.supportsIgnoreCase c.operator c.path = true) : c.checkType (.string s) = .ok () := by
  rw [Clause.supportsIgnoreCase, Bool.and_eq_true] at h
  have hleaf := h.1
  unfold PropertyPath.isCollection at hleaf
  unfold checkType PropertyPath.scalarType?
  cases hpath : c.path.leaf with
  | scalar type => cases type <;> simp_all [ScalarType.admits]
  | _ => rfl

theorem check_of_single (hoperand : c.operator.operand = .single)
    (hrange : c.operator.isRange = false) (hregex : c.operator ≠ .regex)
    (htype : c.matchesText = false → c.checkType (.string s) = .ok ()) (h : c.text? = some s)
    (method : String) (maxInSet : Nat) : c.check method maxInSet = .ok () := by
  have hsingle : c.checkSingle = .ok () := by
    rw [checkSingle_eq_ok_iff (value?_of_text? h), hrange]
    exact ⟨fun _ => checkText_eq_ok_iff.mpr ⟨s, rfl, fun hop => absurd hop hregex⟩,
      fun htext => ⟨nofun, htype htext⟩⟩
  rw [check, hoperand]
  dsimp only
  rw [hsingle]
  rfl

theorem check_of_text? (hsupports : Clause.supportsIgnoreCase c.operator c.path = true)
    (hregex : c.operator ≠ .regex) (h : c.text? = some s) (method : String) (maxInSet : Nat) :
    c.check method maxInSet = .ok () := by
  obtain ⟨hoperand, hrange⟩ := operand_of_supportsIgnoreCase hsupports
  exact check_of_single hoperand hrange hregex (fun _ => checkType_of_supportsIgnoreCase hsupports)
    h method maxInSet

theorem toFilter_of_ignoreCase (hsupports : Clause.supportsIgnoreCase c.operator c.path = true)
    (hcase : c.ignoreCase = true) (helement : looksForElement c.operator c.path = false)
    (h : c.text? = some s) :
    c.toFilter
      =
    if c.operator.isNegated then .not (.pattern c.path.dotted (c.operator.patternText s) true)
    else .pattern c.path.dotted (c.operator.patternText s) true := by
  unfold toFilter toFilterWith
  rw [h, hcase]
  cases hop : c.operator <;>
    simp_all [Clause.supportsIgnoreCase, Operator.isPattern, looksForElement, Operator.isNegated,
      Operator.patternText]

theorem eval_toFilter_of_ignoreCase
    (hsupports : Clause.supportsIgnoreCase c.operator c.path = true)
    (hcase : c.ignoreCase = true) (helement : looksForElement c.operator c.path = false)
    (h : c.text? = some s) (d : Document) :
    c.toFilter.eval d
      =
    (Filter.matchesAt d c.path.dotted (c.operator.patternText s) true != c.operator.isNegated) := by
  rw [toFilter_of_ignoreCase hsupports hcase helement h]
  cases c.operator.isNegated with
  | true => simp [Filter.eval]
  | false => simp [Filter.eval]

end Criterion

theorem PartTree.supportsIgnoreCase_of_mem_clauses {method : String} {schema : EntitySchema}
    {t : PartTree} {clause : Clause} (h : read method schema = .ok t) (hclause : clause ∈ t.clauses)
    (hcase : clause.ignoreCase = true) :
    Clause.supportsIgnoreCase clause.operator clause.path = true := by
  obtain ⟨_, all, fragment, hread⟩ := exists_read_of_mem_clauses h hclause
  obtain ⟨-, hfits, -, hignore⟩ := Clause.read_eq_ok_iff.mp hread
  rw [hcase, eq_comm, Bool.or_eq_true, Bool.and_eq_true] at hignore
  rcases hignore with hending | ⟨-, hsupports⟩
  · obtain ⟨ending, hending⟩ := Option.isSome_iff_exists.mp hending
    exact hfits.textual ending hending
  · exact hsupports

namespace Criterion

variable {method : String} {schema : EntitySchema} {t : PartTree} {clause : Clause}
  {slot : List Nat} {args args' : List Argument} {a b : String}

/--
A clause that ignores case accepts every text, and texts that differ in the case of ASCII letters
alone are met by the same documents.
-/
theorem eval_toFilter_of_sameLetters (h : PartTree.read method schema = .ok t)
    (hclause : clause ∈ t.clauses) (hcase : clause.ignoreCase = true)
    (hregex : clause.operator ≠ .regex)
    (helement : looksForElement clause.operator clause.path = false)
    (ha : (ofClause clause slot args).text? = some a)
    (hb : (ofClause clause slot args').text? = some b) (hsame : SameLetters a.toList b.toList)
    (maxInSet : Nat) :
    (ofClause clause slot args).check t.method maxInSet = .ok ()
      ∧
    (ofClause clause slot args').check t.method maxInSet = .ok ()
      ∧
    ∀ d, (ofClause clause slot args).toFilter.eval d
      = (ofClause clause slot args').toFilter.eval d := by
  have hsupports := PartTree.supportsIgnoreCase_of_mem_clauses h hclause hcase
  refine ⟨check_of_text? hsupports hregex ha _ _, check_of_text? hsupports hregex hb _ _,
    fun d => ?_⟩
  have hmatches := Filter.matchesAt_congr (Operator.toList_patternText hregex a)
    (Operator.toList_patternText hregex b) (clause.operator.forall₂_pieces hsame) d
    clause.path.dotted
  rw [eval_toFilter_of_ignoreCase hsupports hcase helement ha,
    eval_toFilter_of_ignoreCase hsupports hcase helement hb]
  exact congrArg (· != clause.operator.isNegated) hmatches

def readsClause (method : String) (schema : EntitySchema) (holds : Clause → Bool) : Bool :=
  (PartTree.read method schema).toOption.any fun t => t.clauses.any holds

theorem exists_clause_of_readsClause {holds : Clause → Bool}
    (h : readsClause method schema holds = true) :
    ∃ t, PartTree.read method schema = .ok t ∧ ∃ clause ∈ t.clauses, holds clause = true := by
  obtain ⟨t, hread, hany⟩ := (Option.any_eq_true _ _).mp h
  exact ⟨t, toOption_eq_some_iff.mp hread, List.any_eq_true.mp hany⟩

def searched (clause : Clause) (s : String) : Criterion :=
  ofClause clause [0] [.value (.string s)]

theorem eval_toFilter_of_sameLetters_title :
    ∃ t clause,
      PartTree.read "findByTitleLikeIgnoreCase" CompiledQuery.articleSchema = .ok t
        ∧
      clause ∈ t.clauses ∧ clause.operator = .like
        ∧
      (searched clause "*Lean").check t.method 1000 = .ok ()
        ∧
      (searched clause "*lEAN").check t.method 1000 = .ok ()
        ∧
      ∀ d, (searched clause "*Lean").toFilter.eval d = (searched clause "*lEAN").toFilter.eval d := by
  have hreads : readsClause "findByTitleLikeIgnoreCase" CompiledQuery.articleSchema
      (fun clause => clause.ignoreCase && clause.operator == .like) = true := by
    decide +kernel
  obtain ⟨t, hread, clause, hclause, hholds⟩ := exists_clause_of_readsClause hreads
  rw [Bool.and_eq_true, beq_iff_eq] at hholds
  obtain ⟨hcase, hlike⟩ := hholds
  have hregex : clause.operator ≠ .regex := by
    rw [hlike]
    decide
  have helement : looksForElement clause.operator clause.path = false := by
    rw [hlike]
    exact Bool.and_false _
  have htext : ∀ s, (searched clause s).text? = some s := fun _ => rfl
  exact ⟨t, clause, hread, hclause, hlike,
    eval_toFilter_of_sameLetters hread hclause hcase hregex helement (htext "*Lean")
      (htext "*lEAN") (by decide) 1000⟩

/--
A search for a tag is accepted with the ending `IgnoreCase`, but finds the tag in its own case only.
-/
theorem eval_toFilter_ne_of_sameLetters_tags :
    ∃ t clause d,
      PartTree.read "findByTagsContainingIgnoreCase" CompiledQuery.articleSchema = .ok t
        ∧
      clause ∈ t.clauses ∧ clause.ignoreCase = true ∧ clause.operator ≠ .regex
        ∧
      SameLetters "a".toList "A".toList
        ∧
      (searched clause "a").toFilter.eval d ≠ (searched clause "A").toFilter.eval d := by
  let d : Document := [("tags", .array [.string "a"])]
  have hreads : readsClause "findByTagsContainingIgnoreCase" CompiledQuery.articleSchema
      (fun clause => clause.ignoreCase && clause.operator != .regex &&
        (searched clause "a").toFilter.eval d != (searched clause "A").toFilter.eval d) = true := by
    decide +kernel
  obtain ⟨t, hread, clause, hclause, hholds⟩ := exists_clause_of_readsClause hreads
  rw [Bool.and_eq_true, Bool.and_eq_true, bne_iff_ne, bne_iff_ne] at hholds
  obtain ⟨⟨hcase, hregex⟩, hne⟩ := hholds
  exact ⟨t, clause, d, hread, hclause, hcase, hregex, by decide, hne⟩

end Criterion
end DerivedQuery
