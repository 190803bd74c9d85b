import DerivedQuery.Proofs.Pattern.Literal
import DerivedQuery.Proofs.Query.Like

/-!
This module contains what texts with wildcards match. A star at the beginning or the end of such a
text stands for anything, and a star between other characters stands for a run on one line: on texts
without line feeds a star is any run of characters.
-/

namespace DerivedQuery

namespace Pattern

def spelled? (ignoreCase : Bool) (s : List Char) : Option Pattern := do
  let tree ← Tree.ofChars? s
  let (p, _) ← tree.meaning? { ignoreCase := ignoreCase }
  return p

theorem ofChars?_eq_bind_spelled? (ignoreCase : Bool) (s : List Char) :
    ofChars? ignoreCase s
      =
    (spelled? ignoreCase s).bind fun p => if p.cost ≤ maxCost then some p else none := by
  unfold ofChars? spelled?
  cases Tree.ofChars? s with
  | none => rfl
  | some tree =>
    dsimp only [bind, Option.bind]
    cases tree.meaning? { ignoreCase := ignoreCase } with
    | none => rfl
    | some => rfl

theorem spelled?_flatMap_text (ignoreCase : Bool) (pieces : List Piece) :
    spelled? ignoreCase (pieces.flatMap Piece.text) = some (ofPieces ignoreCase pieces) := by
  rw [spelled?, ofChars?_tree]
  dsimp only [bind, Option.bind]
  rw [meaning?_ofList]
  rfl

/-! ### Runs at the ends -/

theorem fits_append {ps qs : List Piece} {s : List Char} :
    Fits (ps ++ qs) s ↔ ∃ a b, s = a ++ b ∧ Fits ps a ∧ Fits qs b := by
  constructor
  · intro h
    induction ps generalizing s with
    | nil => exact ⟨[], s, rfl, .nil, h⟩
    | cons piece ps ih =>
      cases h with
      | char c h =>
        obtain ⟨a, b, rfl, ha, hb⟩ := ih h
        exact ⟨c :: a, b, rfl, .char c ha, hb⟩
      | @anyRun run hrun _ _ h =>
        obtain ⟨a, b, rfl, ha, hb⟩ := ih h
        exact ⟨run ++ a, b, (List.append_assoc ..).symm, .anyRun hrun ha, hb⟩
  · rintro ⟨a, b, rfl, ha, hb⟩
    induction ha with
    | nil => exact hb
    | char c _ ih => exact .char c ih
    | anyRun hrun _ ih =>
      rw [List.append_assoc]
      exact .anyRun hrun ih

theorem Fits.reverse {pieces : List Piece} {s : List Char} (h : Fits pieces s) :
    Fits pieces.reverse s.reverse := by
  induction h with
  | nil => exact .nil
  | char c _ ih =>
    rw [List.reverse_cons, List.reverse_cons, fits_append]
    exact ⟨_, [c], rfl, ih, .char c .nil⟩
  | @anyRun run hrun pieces _ _ ih =>
    rw [List.reverse_cons, List.reverse_append, fits_append]
    refine ⟨_, run.reverse, rfl, ih, ?_⟩
    rw [← List.append_nil run.reverse]
    exact .anyRun (by simpa using hrun) .nil

end Pattern

namespace Like

open Pattern (Piece Fits)

/--
Some part of the text fits the pieces, where nothing stands in front of an end that holds it, or
behind it.
-/
def Found (start finish : Bool) (ps : List Piece) (s : List Char) : Prop :=
  ∃ before text after, s = before ++ text ++ after
    ∧ (start = true → before = []) ∧ (finish = true → after = []) ∧ Fits ps text

variable {start finish : Bool} {ps : List Piece} {p s : List Char}

theorem Found.reverse (h : Found start finish ps s) :
    Found finish start ps.reverse s.reverse := by
  obtain ⟨before, text, after, rfl, hbefore, hafter, hfits⟩ := h
  refine ⟨after.reverse, text.reverse, before.reverse, by simp, ?_, ?_, hfits.reverse⟩
  · simpa using hafter
  · simpa using hbefore

theorem found_reverse : Found finish start ps.reverse s ↔ Found start finish ps s.reverse := by
  constructor
  · intro h
    have hreverse := h.reverse
    rwa [List.reverse_reverse] at hreverse
  · intro h
    have hreverse := h.reverse
    rwa [List.reverse_reverse] at hreverse

/--
A run in front is not missed where the text before it is free.
-/
theorem found_dropRun (h : start = true → dropRun ps = ps) :
    Found start finish (dropRun ps) s ↔ Found start finish ps s := by
  cases start with
  | true => rw [h rfl]
  | false =>
    unfold dropRun
    split
    next rest =>
      constructor
      · rintro ⟨before, text, after, rfl, -, hafter, hfits⟩
        exact ⟨before, [] ++ text, after, rfl, nofun, hafter, .anyRun (List.not_mem_nil) hfits⟩
      · rintro ⟨before, _, after, rfl, -, hafter, hfits⟩
        cases hfits with
        | @anyRun run _ _ text hfits =>
          exact ⟨before ++ run, text, after, by simp, nofun, hafter, hfits⟩
    next => rfl

theorem dropRun_eq_self (h : ps.head? ≠ some .anyRun) : dropRun ps = ps := by
  unfold dropRun
  split
  next => exact absurd rfl h
  next => rfl

theorem getLast?_dropRun_ne (h : ps.getLast? ≠ some .anyRun) :
    (dropRun ps).getLast? ≠ some .anyRun := by
  unfold dropRun
  split
  next rest =>
    cases rest with
    | nil => simp
    | cons => rwa [List.getLast?_cons_cons] at h
  next => exact h

theorem found_trimRuns (hstart : start = true → ps.head? ≠ some .anyRun)
    (hfinish : finish = true → ps.getLast? ≠ some .anyRun) :
    Found start finish (trimRuns ps) s ↔ Found start finish ps s := by
  have hback : finish = true →
      dropRun (dropRun ps).reverse = (dropRun ps).reverse := by
    intro h
    apply dropRun_eq_self
    rw [List.head?_reverse]
    exact getLast?_dropRun_ne (hfinish h)
  rw [trimRuns, found_reverse, found_dropRun hback, found_reverse, List.reverse_reverse,
    found_dropRun fun h => dropRun_eq_self (hstart h)]

/-! ### Texts with wildcards -/

/--
The text is the one with wildcards, with an allowed run of characters in the place of each star and
every other character as it is.
-/
inductive Expands (allowed : List Char → Prop) : List Char → List Char → Prop where
  | nil : Expands allowed [] []
  | char {c : Char} (hc : c ≠ '*') {p s : List Char} (h : Expands allowed p s) :
    Expands allowed (c :: p) (c :: s)
  | star {run : List Char} (hrun : allowed run) {p s : List Char} (h : Expands allowed p s) :
    Expands allowed ('*' :: p) (run ++ s)

def OnLine (run : List Char) : Prop :=
  '\n' ∉ run

def Anything (_ : List Char) : Prop :=
  True

theorem piece_eq_anyRun_iff {c : Char} : piece c = .anyRun ↔ c = '*' := by
  unfold piece
  split <;> simp_all

theorem fits_map_piece : Fits (p.map piece) s ↔ Expands OnLine p s := by
  constructor
  · intro h
    induction p generalizing s with
    | nil =>
      cases h
      exact .nil
    | cons c p ih =>
      rw [List.map_cons, piece] at h
      split at h
      next hc =>
        cases h with
        | anyRun hrun h =>
          rw [hc]
          exact .star hrun (ih h)
      next hc =>
        cases h with
        | char _ h => exact .char hc (ih h)
  · intro h
    induction h with
    | nil => exact .nil
    | char hc _ ih =>
      rw [List.map_cons, piece, if_neg hc]
      exact .char _ ih
    | star hrun _ ih => exact .anyRun hrun ih

/--
Some part of the text is the one with wildcards, with runs on one line. Nothing stands in front of
it unless a star comes first, and nothing behind it unless a star comes last.
-/
def Covers (p s : List Char) : Prop :=
  ∃ before text after, s = before ++ text ++ after
    ∧ (p.head? ≠ some '*' → before = []) ∧ (p.getLast? ≠ some '*' → after = [])
    ∧ Expands OnLine p text

theorem pieces_eq_framed (p : List Char) :
    pieces p
      =
    Pattern.framed (p.head? != some '*') (p.getLast? != some '*') (trimRuns (p.map piece)) := by
  unfold pieces Pattern.framed
  by_cases hhead : p.head? = some '*' <;> by_cases hlast : p.getLast? = some '*' <;>
    simp [hhead, hlast]

theorem isEnd_of_mem_trimRuns : ∀ q ∈ trimRuns (p.map piece), q.isEnd = false := by
  have hdrop : ∀ ps : List Piece, ∀ q ∈ dropRun ps, q ∈ ps := by
    intro ps q h
    unfold dropRun at h
    split at h
    next => exact List.mem_cons_of_mem _ h
    next => exact h
  intro q hq
  rw [trimRuns, List.mem_reverse] at hq
  obtain ⟨c, -, rfl⟩ := List.mem_map.mp (hdrop _ _ (List.mem_reverse.mp (hdrop _ _ hq)))
  unfold piece
  split <;> rfl

theorem findIn_pieces_iff_covers :
    (Pattern.ofPieces false (pieces p)).findIn s = true ↔ Covers p s := by
  have hhead : (p.head? != some '*') = true → (p.map piece).head? ≠ some .anyRun := by
    simp [piece_eq_anyRun_iff]
  have hlast : (p.getLast? != some '*') = true → (p.map piece).getLast? ≠ some .anyRun := by
    simp [piece_eq_anyRun_iff]
  rw [pieces_eq_framed, Pattern.findIn_framed isEnd_of_mem_trimRuns]
  change Found _ _ _ _ ↔ _
  rw [found_trimRuns hhead hlast]
  simp only [Found, Covers, fits_map_piece, bne_iff_ne]

/-! ### Texts without line feeds -/

theorem Expands.mono {allowed allowed' : List Char → Prop} (h : Expands allowed p s)
    (himp : ∀ run, allowed run → allowed' run) : Expands allowed' p s := by
  induction h with
  | nil => exact .nil
  | char hc _ ih => exact .char hc ih
  | star hrun _ ih => exact .star (himp _ hrun) ih

theorem Expands.onLine (h : Expands Anything p s) (hs : OnLine s) : Expands OnLine p s := by
  unfold OnLine at hs
  induction h with
  | nil => exact .nil
  | char hc _ ih => exact .char hc (ih fun hmem => hs (List.mem_cons_of_mem _ hmem))
  | star _ _ ih =>
    rw [List.mem_append, not_or] at hs
    exact .star hs.1 (ih hs.2)

theorem Expands.append_left (h : Expands Anything p s) (hp : p.head? = some '*')
    (before : List Char) : Expands Anything p (before ++ s) := by
  cases h with
  | nil => contradiction
  | char hc _ => exact absurd (Option.some.inj hp) hc
  | @star run _ _ _ h =>
    rw [← List.append_assoc]
    exact .star trivial h

theorem Expands.append_right (h : Expands Anything p s) (hp : p.getLast? = some '*')
    (after : List Char) : Expands Anything p (s ++ after) := by
  induction h with
  | nil => contradiction
  | @char c hc p s h ih =>
    cases p with
    | nil => exact absurd (Option.some.inj hp) hc
    | cons => exact .char hc (ih hp)
  | @star run _ p s h ih =>
    rw [List.append_assoc]
    cases p with
    | nil =>
      cases h
      rw [← List.append_nil (_ ++ _)]
      exact .star trivial .nil
    | cons => exact .star trivial (ih hp)

theorem covers_iff_expands (hs : OnLine s) : Covers p s ↔ Expands Anything p s := by
  constructor
  · rintro ⟨before, text, after, rfl, hbefore, hafter, h⟩
    have hany : Expands Anything p text := h.mono fun _ _ => trivial
    have hfront : Expands Anything p (before ++ text) := by
      by_cases hhead : p.head? = some '*'
      · exact hany.append_left hhead before
      · rw [hbefore hhead]
        exact hany
    by_cases hlast : p.getLast? = some '*'
    · exact hfront.append_right hlast after
    · rw [hafter hlast, List.append_nil]
      exact hfront
  · intro h
    exact ⟨[], s, [], by simp, fun _ => rfl, fun _ => rfl, h.onLine hs⟩

/-! ### Patterns of texts with wildcards -/

/--
The pattern of a text with wildcards is found in the texts that the wildcards cover, and so in those
texts on one line that come from it by a run of characters in the place of each star.
-/
theorem findIn_toPattern_iff_expands (p : String) :
    ∃ r, Pattern.spelled? false (toPattern p).toList = some r
      ∧
    Pattern.ofText? false (toPattern p) = (if r.cost ≤ Pattern.maxCost then some r else none)
      ∧
    ∀ s : String,
      (r.findIn s.toList = true ↔ Covers p.toList s.toList)
        ∧
      (OnLine s.toList → (r.findIn s.toList = true ↔ Expands Anything p.toList s.toList)) := by
  have hspelled : Pattern.spelled? false (toPattern p).toList
      = some (Pattern.ofPieces false (pieces p.toList)) := by
    rw [toPattern, String.toList_ofList, patternChars_eq, Pattern.spelled?_flatMap_text]
  have hread := Pattern.ofChars?_eq_bind_spelled? false (toPattern p).toList
  rw [hspelled, Option.bind_some] at hread
  refine ⟨_, hspelled, hread, fun s => ⟨findIn_pieces_iff_covers, fun hs => ?_⟩⟩
  rw [findIn_pieces_iff_covers, covers_iff_expands hs]

theorem findIn_toPattern_iff_expands_dave :
    OnLine "Dave".toList
      ∧
    ∃ r, Pattern.spelled? false (toPattern "D*e").toList = some r
      ∧ r.findIn "Dave".toList = true := by
  have hline : OnLine "Dave".toList := by
    unfold OnLine
    decide
  have hstar : Expands Anything ['*', 'e'] (['a', 'v'] ++ ['e']) :=
    .star trivial (.char (by decide) .nil)
  obtain ⟨r, hspelled, -, hfind⟩ := findIn_toPattern_iff_expands "D*e"
  exact ⟨hline, r, hspelled, ((hfind "Dave").2 hline).mpr (.char (by decide) hstar)⟩

/--
A star between two characters does not stand for a line feed, which is a run of characters too.
-/
theorem findIn_toPattern_ne_expands :
    Expands Anything "D*e".toList "D\ne".toList
      ∧
    ∃ r, Pattern.ofText? false (toPattern "D*e") = some r ∧ r.findIn "D\ne".toList = false := by
  have hstar : Expands Anything ['*', 'e'] (['\n'] ++ ['e']) :=
    .star trivial (.char (by decide) .nil)
  have hnotFound : ((Pattern.ofText? false (toPattern "D*e")).map fun r => r.findIn "D\ne".toList)
      = some false := by
    decide +kernel
  obtain ⟨r, hr, hfind⟩ := Option.map_eq_some_iff.mp hnotFound
  exact ⟨.char (by decide) hstar, r, hr, hfind⟩

end Like
end DerivedQuery
