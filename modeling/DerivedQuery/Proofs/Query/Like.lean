import DerivedQuery.Proofs.Pattern.Pieces
import DerivedQuery.Query.Like

/-!
This module contains what the pattern of a text with wildcards is made of: its characters, a run for
each star, and an end of the text where no star stands.
-/

namespace DerivedQuery
namespace Like

open Pattern (Piece)

def piece (c : Char) : Piece :=
  if c = '*' then .anyRun else .char c

def dropRun : List Piece → List Piece
  | .anyRun :: pieces => pieces
  | pieces => pieces

def trimRuns (pieces : List Piece) : List Piece :=
  (dropRun (dropRun pieces).reverse).reverse

def pieces (s : List Char) : List Piece :=
  (if s.head? = some '*' then [] else [.start]) ++ trimRuns (s.map piece) ++
    (if s.getLast? = some '*' then [] else [.finish])

/-! ### Texts -/

theorem body_eq (s : List Char) : body s = (s.map piece).flatMap Piece.text := by
  unfold body
  induction s with
  | nil => rfl
  | cons c s ih =>
    rw [List.map_cons, List.flatMap_cons, ← ih, Text.splitOn, piece]
    obtain ⟨first, rest, hsplit⟩ := List.exists_cons_of_ne_nil (Text.splitOn_ne_nil '*' s)
    rw [hsplit]
    split
    next =>
      cases rest <;>
        simp [List.intercalate, List.intersperse, Pattern.escapeChars, Piece.text, anyRun]
    next => cases rest <;> simp [List.intercalate, Pattern.escapeChars, Piece.text]

theorem dropStart?_flatMap_text (pieces : List Piece) :
    (Text.dropStart? anyRun (pieces.flatMap Piece.text)).getD (pieces.flatMap Piece.text)
      =
    (dropRun pieces).flatMap Piece.text := by
  cases pieces with
  | nil => rfl
  | cons piece pieces =>
    cases piece with
    | char c =>
      have hnone : Text.dropStart? anyRun ((Piece.char c :: pieces).flatMap Piece.text) = none := by
        rw [Option.eq_none_iff_forall_ne_some]
        intro rest h
        rw [Text.dropStart?_eq_some_iff] at h
        exact Pattern.escapeChar_append_ne (by decide) (by decide) h
      rw [hnone]
      rfl
    | anyRun | start | finish => rfl

/--
A text ends in a run only if its last piece is one: a star of the text itself has a backslash in
front.
-/
theorem append_text_ne {piece : Piece} (h : piece ≠ .anyRun) (s rest : List Char) :
    s ++ piece.text ≠ rest ++ anyRun := by
  intro heq
  have hlast := congrArg List.getLast? heq
  cases piece with
  | char c =>
    rw [Piece.text, Pattern.escapeChar] at heq hlast
    split at heq
    next =>
      have hends := List.append_inj_right' heq rfl
      simp [anyRun] at hends
    next hmeta =>
      rw [if_neg hmeta] at hlast
      simp only [anyRun, List.getLast?_append, List.getLast?_singleton, List.getLast?_cons_cons,
        Option.some_or, Option.some.injEq] at hlast
      subst hlast
      exact hmeta (by decide)
  | anyRun => exact h rfl
  | start | finish => simp [Piece.text, anyRun] at hlast

theorem dropEnd?_flatMap_text (pieces : List Piece) :
    (Text.dropEnd? anyRun (pieces.flatMap Piece.text)).getD (pieces.flatMap Piece.text)
      =
    (dropRun pieces.reverse).reverse.flatMap Piece.text := by
  obtain rfl | ⟨init, last, rfl⟩ := pieces.eq_nil_or_concat'
  · rfl
  · rw [List.flatMap_append, List.flatMap_singleton, List.reverse_append, List.reverse_singleton,
      List.singleton_append]
    by_cases hlast : last = .anyRun
    · have hsome : Text.dropEnd? anyRun (init.flatMap Piece.text ++ last.text)
          = some (init.flatMap Piece.text) := by
        rw [Text.dropEnd?_eq_some_iff, hlast]
        rfl
      rw [hsome, hlast, dropRun, List.reverse_reverse]
      rfl
    · have hnone : Text.dropEnd? anyRun (init.flatMap Piece.text ++ last.text) = none := by
        rw [Option.eq_none_iff_forall_ne_some]
        intro rest h
        exact append_text_ne hlast _ _ ((Text.dropEnd?_eq_some_iff _ _ _).mp h)
      have hkeep : dropRun (last :: init.reverse) = last :: init.reverse := by
        cases last <;> simp_all [dropRun]
      rw [hnone, hkeep]
      simp

theorem trim_flatMap_text (pieces : List Piece) :
    trim (pieces.flatMap Piece.text) = (trimRuns pieces).flatMap Piece.text := by
  rw [trim, dropStart?_flatMap_text, dropEnd?_flatMap_text, trimRuns]

theorem patternChars_eq (s : List Char) : patternChars s = (pieces s).flatMap Piece.text := by
  rw [patternChars, body_eq, trim_flatMap_text, pieces, List.flatMap_append, List.flatMap_append]
  split <;> split <;> rfl

example : pieces ['*', 'a', '*', 'b'] = [.char 'a', .anyRun, .char 'b', .finish] := rfl

/-! ### Case -/

open Text (SameLetters)
open Pattern.Piece (SameButCase)

variable {s t : List Char}

theorem sameButCase_piece {a b : Char} (h : Text.sameLetter a b = true) :
    SameButCase (piece a) (piece b) := by
  have hstar := Text.eq_iff_of_sameLetter h (m := '*') rfl
  unfold piece
  by_cases ha : a = '*'
  · rw [if_pos ha, if_pos (hstar.mp ha)]
    exact .refl _
  · rw [if_neg ha, if_neg fun hb => ha (hstar.mpr hb)]
    exact .char h

theorem forall₂_dropRun {as bs : List Piece} (h : List.Forall₂ SameButCase as bs) :
    List.Forall₂ SameButCase (dropRun as) (dropRun bs) := by
  cases h with
  | nil => exact .nil
  | @cons a b as bs hfirst hrest =>
    cases hfirst with
    | char hletter => exact .cons (.char hletter) hrest
    | refl =>
      cases a with
      | anyRun => exact hrest
      | char | start | finish => exact .cons (.refl _) hrest

theorem forall₂_trimRuns {as bs : List Piece} (h : List.Forall₂ SameButCase as bs) :
    List.Forall₂ SameButCase (trimRuns as) (trimRuns bs) := by
  unfold trimRuns
  rw [List.forall₂_reverse_iff]
  refine forall₂_dropRun ?_
  rw [List.forall₂_reverse_iff]
  exact forall₂_dropRun h

theorem forall₂_pieces (h : SameLetters s t) : List.Forall₂ SameButCase (pieces s) (pieces t) := by
  have hruns : List.Forall₂ SameButCase (s.map piece) (t.map piece) := by
    rw [List.forall₂_map_left_iff, List.forall₂_map_right_iff]
    exact h.imp fun _ _ => sameButCase_piece
  unfold pieces
  simp only [h.head?_eq_iff (m := '*') rfl, h.getLast?_eq_iff (m := '*') rfl]
  refine List.rel_append (List.rel_append ?_ (forall₂_trimRuns hruns)) ?_
  · exact List.forall₂_same.mpr fun piece _ => .refl piece
  · exact List.forall₂_same.mpr fun piece _ => .refl piece

end Like
end DerivedQuery
