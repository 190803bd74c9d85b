import DerivedQuery.Proofs.Pattern.Folding
import DerivedQuery.Proofs.Pattern.Matching
import DerivedQuery.Proofs.Pattern.Pieces

/-!
This module contains what a pattern of literal characters and runs matches where case counts: the
characters themselves, with any text of one line for a run. An end of the pattern holds it fast at
that end of the text.
-/

namespace DerivedQuery
namespace Pattern

/--
The text has the characters of the pieces, and some text without a line feed for each run.
-/
inductive Fits : List Piece → List Char → Prop where
  | nil : Fits [] []
  | char (c : Char) {pieces : List Piece} {text : List Char} (h : Fits pieces text) :
    Fits (.char c :: pieces) (c :: text)
  | anyRun {run : List Char} (hrun : '\n' ∉ run) {pieces : List Piece} {text : List Char}
    (h : Fits pieces text) : Fits (.anyRun :: pieces) (run ++ text)

theorem fits_map_char {s text : List Char} : Fits (s.map .char) text ↔ text = s := by
  induction s generalizing text with
  | nil =>
    constructor
    · rintro ⟨⟩
      rfl
    · rintro rfl
      exact .nil
  | cons c s ih =>
    constructor
    · intro h
      cases h with
      | char _ h => rw [ih.mp h]
    · rintro rfl
      exact .char c (ih.mpr rfl)

def Piece.isEnd : Piece → Bool
  | .start | .finish => true
  | .char _ | .anyRun => false

def framed (start finish : Bool) (pieces : List Piece) : List Piece :=
  (if start then [.start] else []) ++ pieces ++ (if finish then [.finish] else [])

variable {s before rest : List Char} {pieces : List Piece} {i j : Nat}

/-! ### Pieces in a row -/

theorem matches_concat_append {ps qs : List Pattern} :
    Matches s (.concat (ps ++ qs)) i j
      ↔
    ∃ k, Matches s (.concat ps) i k ∧ Matches s (.concat qs) k j := by
  induction ps generalizing i with
  | nil => exact ⟨fun h => ⟨i, rfl, h⟩, fun ⟨_, heq, h⟩ => heq ▸ h⟩
  | cons p ps ih =>
    change (∃ k, Matches s p i k ∧ Matches s (.concat (ps ++ qs)) k j)
      ↔ ∃ l, (∃ k, Matches s p i k ∧ Matches s (.concat ps) k l) ∧ Matches s (.concat qs) l j
    simp only [ih]
    constructor
    · rintro ⟨k, hfirst, l, hps, hqs⟩
      exact ⟨l, ⟨k, hfirst, hps⟩, hqs⟩
    · rintro ⟨l, ⟨k, hfirst, hps⟩, hqs⟩
      exact ⟨k, hfirst, l, hps, hqs⟩

theorem matches_concat_singleton {p : Pattern} :
    Matches s (.concat [p]) i j ↔ Matches s p i j := by
  change (∃ k, Matches s p i k ∧ k = j) ↔ _
  simp

theorem matches_ofPieces {ignoreCase : Bool} :
    Matches s (ofPieces ignoreCase pieces) i j
      ↔
    Matches s (.concat (pieces.map (Piece.pattern ignoreCase))) i j := by
  match pieces with
  | [] => rfl
  | [_] => exact matches_concat_singleton.symm
  | _ :: _ :: _ => rfl

/-! ### Characters and runs -/

theorem matches_one {c : CharClass} :
    Matches (before ++ rest) (.one c) before.length j
      ↔
    ∃ a after, rest = a :: after ∧ c.contains a = true ∧ j = (before ++ [a]).length := by
  rw [Matches, List.getElem?_append_right (Nat.le_refl _), Nat.sub_self]
  cases rest with
  | nil => simp
  | cons a rest => simp [and_comm]

theorem steps_one {c : CharClass} {n : Nat} :
    Steps (Matches (before ++ rest) (.one c)) n before.length j
      ↔
    ∃ run after, rest = run ++ after ∧ run.length = n ∧ (∀ a ∈ run, c.contains a = true)
      ∧ j = (before ++ run).length := by
  induction n generalizing before rest with
  | zero =>
    simp only [Steps, List.length_eq_zero_iff]
    constructor
    · rintro rfl
      exact ⟨[], rest, rfl, rfl, by simp, by simp⟩
    · rintro ⟨_, _, _, rfl, -, rfl⟩
      simp
  | succ n ih =>
    simp only [Steps, matches_one]
    constructor
    · rintro ⟨_, ⟨a, after, rfl, ha, rfl⟩, hsteps⟩
      rw [List.append_cons before a after, ih] at hsteps
      obtain ⟨run, after, rfl, hlength, hrun, rfl⟩ := hsteps
      exact ⟨a :: run, after, rfl, by simpa using hlength, by simpa using ⟨ha, hrun⟩, by simp⟩
    · rintro ⟨run, after, rfl, hlength, hrun, rfl⟩
      obtain ⟨a, run, rfl⟩ := List.exists_cons_of_length_eq_add_one hlength
      rw [List.forall_mem_cons] at hrun
      refine ⟨_, ⟨a, run ++ after, rfl, hrun.1, rfl⟩, ?_⟩
      rw [List.cons_append, List.append_cons before a, ih]
      exact ⟨run, after, rfl, Nat.succ.inj hlength, hrun.2, by simp⟩

theorem matches_char {c : Char} :
    Matches (before ++ rest) ((Piece.char c).pattern false) before.length j
      ↔
    ∃ after, rest = c :: after ∧ j = (before ++ [c]).length := by
  change Matches _ (.one (.single c)) _ _ ↔ _
  simp only [matches_one, CharClass.contains_single]
  constructor
  · rintro ⟨_, after, rfl, rfl, hj⟩
    exact ⟨after, rfl, hj⟩
  · rintro ⟨after, rfl, hj⟩
    exact ⟨c, after, rfl, rfl, hj⟩

theorem matches_anyRun :
    Matches (before ++ rest) (Piece.anyRun.pattern false) before.length j
      ↔
    ∃ run after, rest = run ++ after ∧ '\n' ∉ run ∧ j = (before ++ run).length := by
  have hline : ∀ run : List Char,
      (∀ a ∈ run, (CharClass.compl (.single '\n')).contains a = true) ↔ '\n' ∉ run := by
    intro run
    rw [← List.forall_mem_ne']
    simp only [CharClass.contains, Bool.not_eq_true', ← Bool.not_eq_true, CharClass.contains_single]
  rw [Piece.pattern, Matches]
  simp only [steps_one, hline]
  constructor
  · rintro ⟨_, -, -, run, after, hrest, -, hrun, hj⟩
    exact ⟨run, after, hrest, hrun, hj⟩
  · rintro ⟨run, after, hrest, hrun, hj⟩
    exact ⟨run.length, Nat.zero_le _, by simp, run, after, hrest, rfl, hrun, hj⟩

theorem matches_concat_pieces (h : ∀ piece ∈ pieces, piece.isEnd = false) :
    Matches (before ++ rest) (.concat (pieces.map (Piece.pattern false))) before.length j
      ↔
    ∃ text after, rest = text ++ after ∧ Fits pieces text ∧ j = (before ++ text).length := by
  induction pieces generalizing before rest with
  | nil =>
    constructor
    · intro hj
      exact ⟨[], rest, rfl, .nil, by rw [List.append_nil]; exact hj.symm⟩
    · rintro ⟨_, _, _, ⟨⟩, hj⟩
      rw [hj, List.append_nil]
      rfl
  | cons piece pieces ih =>
    rw [List.forall_mem_cons] at h
    rw [List.map_cons]
    change (∃ k, Matches _ (piece.pattern false) before.length k
      ∧ Matches _ (.concat (pieces.map (Piece.pattern false))) k j) ↔ _
    cases piece with
    | char c =>
      simp only [matches_char]
      constructor
      · rintro ⟨_, ⟨after, rfl, rfl⟩, hrest⟩
        rw [List.append_cons before c after, ih h.2] at hrest
        obtain ⟨text, after, rfl, hfits, rfl⟩ := hrest
        exact ⟨c :: text, after, rfl, .char c hfits, by simp⟩
      · rintro ⟨text, after, rfl, hfits, rfl⟩
        cases hfits with
        | @char _ _ text hfits =>
          refine ⟨_, ⟨text ++ after, rfl, rfl⟩, ?_⟩
          rw [List.cons_append, List.append_cons before c, ih h.2]
          exact ⟨text, after, rfl, hfits, by simp⟩
    | anyRun =>
      simp only [matches_anyRun]
      constructor
      · rintro ⟨_, ⟨run, after, rfl, hrun, rfl⟩, hrest⟩
        rw [← List.append_assoc, ih h.2] at hrest
        obtain ⟨text, after, rfl, hfits, rfl⟩ := hrest
        exact ⟨run ++ text, after, by simp, .anyRun hrun hfits, by simp⟩
      · rintro ⟨text, after, rfl, hfits, rfl⟩
        cases hfits with
        | @anyRun run hrun _ text hfits =>
          refine ⟨_, ⟨run, text ++ after, by simp, hrun, rfl⟩, ?_⟩
          rw [List.append_assoc, ← List.append_assoc before, ih h.2]
          exact ⟨text, after, rfl, hfits, by simp⟩
    | start | finish => simp [Piece.isEnd] at h

/-! ### Ends -/

theorem matches_start (start : Bool) (hi : i ≤ s.length) :
    Matches s (.concat ((if start then [Piece.start] else []).map (Piece.pattern false))) i j
      ↔
    i = j ∧ (start = true → i = 0) := by
  cases start with
  | false => simp [concat, Matches]
  | true =>
    change Matches s (.concat [.look .textStart]) i j ↔ _
    rw [matches_concat_singleton, Matches, Spot.getElem?_ofChars hi]
    cases i with
    | zero => simp [Look.holds]
    | succ i => simp [Look.holds, show i < s.length by omega]

theorem matches_finish (finish : Bool) (hi : i ≤ s.length) :
    Matches s (.concat ((if finish then [Piece.finish] else []).map (Piece.pattern false))) i j
      ↔
    i = j ∧ (finish = true → i = s.length) := by
  cases finish with
  | false => simp [concat, Matches]
  | true =>
    change Matches s (.concat [.look .textEnd]) i j ↔ _
    rw [matches_concat_singleton, Matches, Spot.getElem?_ofChars hi]
    simp [Look.holds]
    omega

/--
The pattern is found if some part of the text fits the pieces, where nothing stands in front of an
end that holds it, or behind it.
-/
theorem findIn_framed {start finish : Bool} (h : ∀ piece ∈ pieces, piece.isEnd = false) :
    (ofPieces false (framed start finish pieces)).findIn s = true
      ↔
    ∃ before text after, s = before ++ text ++ after
      ∧ (start = true → before = []) ∧ (finish = true → after = []) ∧ Fits pieces text := by
  rw [findIn_iff]
  simp only [matches_ofPieces, framed, List.map_append, matches_concat_append]
  constructor
  · rintro ⟨i, j, hi, l, ⟨k, hstart, htext⟩, hfinish⟩
    obtain ⟨before, rest, rfl, rfl⟩ : ∃ before rest, s = before ++ rest ∧ i = before.length :=
      ⟨s.take i, s.drop i, (List.take_append_drop i s).symm, (List.length_take_of_le hi).symm⟩
    obtain ⟨rfl, hbefore⟩ := (matches_start start hi).mp hstart
    obtain ⟨text, after, rfl, hfits, rfl⟩ := (matches_concat_pieces h).mp htext
    obtain ⟨-, hafter⟩ := (matches_finish finish (by simp)).mp hfinish
    exact ⟨before, text, after, by simp, by simpa using hbefore, by simpa using hafter, hfits⟩
  · rintro ⟨before, text, after, rfl, hstart, hfinish, hfits⟩
    have htext : Matches (before ++ (text ++ after)) (.concat (pieces.map (Piece.pattern false)))
        before.length (before ++ text).length :=
      (matches_concat_pieces h).mpr ⟨text, after, rfl, hfits, rfl⟩
    rw [← List.append_assoc] at htext
    refine ⟨before.length, (before ++ text).length, by simp, _, ⟨_, ?_, htext⟩, ?_⟩
    · rw [matches_start start (by simp)]
      exact ⟨rfl, fun h => by rw [hstart h]; rfl⟩
    · rw [matches_finish finish (by simp)]
      exact ⟨rfl, fun h => by rw [hfinish h, List.append_nil]⟩

end Pattern
end DerivedQuery
