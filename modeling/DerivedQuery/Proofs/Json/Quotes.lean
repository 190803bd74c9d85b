import DerivedQuery.Json.Quotes
import DerivedQuery.Proofs.Json.Grammar

/-!
This module contains that single quotes are turned into double ones where they delimit a string, and
that nothing else of a text changes. A JSON text has no such quotes.
-/

namespace DerivedQuery

/-! ### Texts with strings -/

inductive QuoteMark where
  | single
  | double
deriving DecidableEq, Repr

namespace QuoteMark

def char : QuoteMark → Char
  | .single => Quotes.single
  | .double => '"'

/--
A character that stands for itself between two quotes. A double quote never does, so that the quotes
can be replaced.
-/
def IsOrdinary (q : QuoteMark) (c : Char) : Prop :=
  c ≠ '\\' ∧ c ≠ q.char ∧ (q = .single → c ≠ '"')

end QuoteMark

inductive LiteralPart (q : QuoteMark) where
  | ordinary (c : Char) (isOrdinary : q.IsOrdinary c)
  | escaped (c : Char)

def LiteralPart.text {q : QuoteMark} : LiteralPart q → List Char
  | .ordinary c _ => [c]
  | .escaped c => ['\\', c]

def IsOutside (cs : List Char) : Prop :=
  ∀ c ∈ cs, c ≠ '\\' ∧ c ≠ '"' ∧ c ≠ Quotes.single

instance (cs : List Char) : Decidable (IsOutside cs) :=
  List.decidableBAll (fun c => c ≠ '\\' ∧ c ≠ '"' ∧ c ≠ Quotes.single) cs

inductive QuotedPiece where
  | outside (cs : List Char) (isOutside : IsOutside cs)
  | literal (q : QuoteMark) (body : List (LiteralPart q))

namespace QuotedPiece

def text (delimiter : QuoteMark → Char) : QuotedPiece → List Char
  | .outside cs _ => cs
  | .literal q body => delimiter q :: body.flatMap LiteralPart.text ++ [delimiter q]

def textAll (delimiter : QuoteMark → Char) (ps : List QuotedPiece) : List Char :=
  ps.flatMap (text delimiter)

end QuotedPiece

/-! ### Steps of the scan -/

namespace Quotes

theorem go_ordinary {inDouble : Bool} {c : Char} (hescape : c ≠ '\\') (hdouble : c ≠ '"')
    (hsingle : inDouble = false → c ≠ single) (rest : List Char) :
    go inDouble false (c :: rest) = c :: go inDouble false rest := by
  rw [go, if_neg hescape, if_neg, if_neg]
  · rintro ⟨hc, hnot, -⟩
    exact hsingle (by simpa using hnot) hc
  · exact fun hc => hdouble hc.1

/--
What stands behind a backslash is kept, even if it is a quote or a backslash.
-/
theorem go_escaped (inDouble : Bool) (c : Char) (rest : List Char) :
    go inDouble false ('\\' :: c :: rest) = '\\' :: c :: go inDouble false rest := by
  rw [go, if_pos rfl]
  by_cases hc : c = '\\'
  · rw [go, if_pos hc]
    rfl
  · rw [go, if_neg hc, if_neg, if_neg]
    · simp
    · simp

theorem go_outside {cs : List Char} (h : IsOutside cs) (rest : List Char) :
    go false false (cs ++ rest) = cs ++ go false false rest := by
  induction cs with
  | nil => rfl
  | cons c cs ih =>
    obtain ⟨hescape, hdouble, hsingle⟩ := h c List.mem_cons_self
    rw [List.cons_append, go_ordinary hescape hdouble fun _ => hsingle, List.cons_append,
      ih fun d hd => h d (List.mem_cons_of_mem c hd)]

section
variable (q : QuoteMark) (rest : List Char)

/--
Only a double quote tells the scan that a string begins.
-/
theorem go_opening :
    go false false (q.char :: rest) = '"' :: go (q = .double) false rest := by
  cases q <;> rfl

theorem go_closing :
    go (q = .double) false (q.char :: rest) = '"' :: go false false rest := by
  cases q <;> rfl

end

theorem go_literalPart {q : QuoteMark} (part : LiteralPart q) (rest : List Char) :
    go (q = .double) false (part.text ++ rest) = part.text ++ go (q = .double) false rest := by
  cases part with
  | ordinary c h =>
    obtain ⟨hescape, hown, hdouble⟩ := h
    cases q with
    | single => exact go_ordinary hescape (hdouble rfl) (fun _ => hown) rest
    | double => exact go_ordinary hescape hown (by simp) rest
  | escaped c => exact go_escaped _ c rest

theorem go_literalParts {q : QuoteMark} (body : List (LiteralPart q)) (rest : List Char) :
    go (q = .double) false (body.flatMap LiteralPart.text ++ rest)
      =
    body.flatMap LiteralPart.text ++ go (q = .double) false rest := by
  induction body with
  | nil => rfl
  | cons part body ih =>
    rw [List.flatMap_cons, List.append_assoc, go_literalPart, ih, List.append_assoc]

theorem go_quotedPiece (p : QuotedPiece) (rest : List Char) :
    go false false (p.text QuoteMark.char ++ rest)
      =
    p.text (fun _ => '"') ++ go false false rest := by
  cases p with
  | outside cs h => exact go_outside h rest
  | literal q body =>
    unfold QuotedPiece.text
    rw [List.append_assoc, List.cons_append, go_opening, go_literalParts, List.singleton_append,
      go_closing]
    simp

theorem normalizeChars_textAll (ps : List QuotedPiece) :
    normalizeChars (QuotedPiece.textAll QuoteMark.char ps)
      =
    QuotedPiece.textAll (fun _ => '"') ps := by
  unfold normalizeChars QuotedPiece.textAll
  induction ps with
  | nil => rfl
  | cons p ps ih => rw [List.flatMap_cons, go_quotedPiece, ih, List.flatMap_cons]

end Quotes

/-! ### Strict texts -/

/--
The text consists of pieces, and all of its strings stand between double quotes.
-/
def IsStrict (cs : List Char) : Prop :=
  ∃ ps, QuotedPiece.textAll QuoteMark.char ps = cs ∧ QuotedPiece.textAll (fun _ => '"') ps = cs

namespace IsStrict

theorem normalizeChars_eq {cs : List Char} (h : IsStrict cs) : Quotes.normalizeChars cs = cs := by
  obtain ⟨ps, hself, hdouble⟩ := h
  rw [← hself, Quotes.normalizeChars_textAll, hdouble, hself]

theorem append {cs ds : List Char} (hcs : IsStrict cs) (hds : IsStrict ds) :
    IsStrict (cs ++ ds) := by
  obtain ⟨ps, rfl, hps⟩ := hcs
  obtain ⟨qs, rfl, hqs⟩ := hds
  refine ⟨ps ++ qs, List.flatMap_append, ?_⟩
  rw [← hps, ← hqs]
  exact List.flatMap_append

theorem of_isOutside {cs : List Char} (h : IsOutside cs) : IsStrict cs :=
  ⟨[.outside cs h], List.append_nil _, List.append_nil _⟩

theorem of_body (body : List (LiteralPart .double)) :
    IsStrict ('"' :: body.flatMap LiteralPart.text ++ ['"']) :=
  ⟨[.literal .double body], List.append_nil _, List.append_nil _⟩

end IsStrict

/-! ### JSON texts -/

theorem IsOutside.append {cs ds : List Char} (hcs : IsOutside cs) (hds : IsOutside ds) :
    IsOutside (cs ++ ds) :=
  List.forall_mem_append.mpr ⟨hcs, hds⟩

namespace JsonText

open JsonTree (IsBlank)

theorem isOutside_of_isBlank {cs : List Char} (h : IsBlank cs) : IsOutside cs := by
  intro c hc
  have hblank := h c hc
  refine ⟨?_, ?_, ?_⟩ <;> rintro rfl <;> contradiction

theorem IsDigits.isOutside {cs : List Char} (h : IsDigits cs) : IsOutside cs := by
  intro c hc
  have hdigit := h c hc
  refine ⟨?_, ?_, ?_⟩ <;> rintro rfl <;> contradiction

theorem IsWhole.isOutside {cs : List Char} (h : IsWhole cs) : IsOutside cs := by
  cases h with
  | zero => decide
  | digits _ first more => exact (more.cons first).isOutside

theorem IsFraction.isOutside {cs : List Char} (h : IsFraction cs) : IsOutside cs := by
  cases h with
  | absent => decide
  | digits first more =>
    have hpoint : IsOutside ['.'] := by decide
    exact hpoint.append (more.cons first).isOutside

theorem IsExponent.isOutside {cs : List Char} (h : IsExponent cs) : IsOutside cs := by
  cases h with
  | absent => decide
  | @digits mark d sign ds mark_eq sign_eq first more =>
    have hfront : IsOutside (mark :: sign) := by
      obtain rfl | rfl := mark_eq <;> obtain rfl | rfl | rfl := sign_eq <;> decide
    exact hfront.append (more.cons first).isOutside

theorem IsScale.isOutside {cs : List Char} (h : IsScale cs) : IsOutside cs := by
  cases h with
  | mk isFraction isExponent => exact isFraction.isOutside.append isExponent.isOutside

theorem IsNumber.isOutside {cs : List Char} (h : IsNumber cs) : IsOutside cs := by
  cases h with
  | @mk sign whole scale sign_eq isWhole isScale =>
    have hsign : IsOutside sign := by
      obtain rfl | rfl := sign_eq <;> decide
    exact (hsign.append isWhole.isOutside).append isScale.isOutside

theorem exists_literalParts_of_hex {digits : List Char}
    (h : ∀ c ∈ digits, (Hex.value? c).isSome = true) :
    ∃ parts : List (LiteralPart .double), parts.flatMap LiteralPart.text = digits := by
  induction digits with
  | nil => exact ⟨[], rfl⟩
  | cons c digits ih =>
    obtain ⟨parts, rfl⟩ := ih fun d hd => h d (List.mem_cons_of_mem c hd)
    have hc : QuoteMark.double.IsOrdinary c := by
      have hhex := h c List.mem_cons_self
      refine ⟨?_, ?_, fun hq => nomatch hq⟩ <;> rintro rfl <;> contradiction
    exact ⟨.ordinary c hc :: parts, rfl⟩

theorem IsStringBody.exists_literalParts {cs : List Char} (h : IsStringBody cs) :
    ∃ parts : List (LiteralPart .double), parts.flatMap LiteralPart.text = cs := by
  induction h with
  | nil => exact ⟨[], rfl⟩
  | @plain c _ hquote hescape _ _ ih =>
    obtain ⟨parts, rfl⟩ := ih
    exact ⟨.ordinary c ⟨hescape, hquote, fun hq => nomatch hq⟩ :: parts, rfl⟩
  | @escaped code _ _ _ ih =>
    obtain ⟨parts, rfl⟩ := ih
    exact ⟨.escaped code :: parts, rfl⟩
  | unit _ hhex _ ih =>
    obtain ⟨digitParts, rfl⟩ := exists_literalParts_of_hex hhex
    obtain ⟨parts, rfl⟩ := ih
    exact ⟨.escaped 'u' :: digitParts ++ parts, by simp [LiteralPart.text]⟩

theorem IsStringBody.isStrict {cs : List Char} (h : IsStringBody cs) :
    IsStrict ('"' :: cs ++ ['"']) := by
  obtain ⟨parts, rfl⟩ := h.exists_literalParts
  exact .of_body parts

theorem Derives.isStrict {symbol : Symbol} {cs : List Char} (h : Derives symbol cs) :
    IsStrict cs := by
  -- the brackets, the comma and the colon
  have hmark : ∀ c ∈ ['[', ']', '\x7b', '\x7d', ',', ':'], IsStrict [c] := by
    intro c hc
    apply IsStrict.of_isOutside
    simp only [List.mem_cons, List.not_mem_nil, or_false] at hc
    obtain rfl | rfl | rfl | rfl | rfl | rfl := hc <;> decide
  have hblank : ∀ {blank : List Char}, IsBlank blank → IsStrict blank :=
    fun hb => .of_isOutside (isOutside_of_isBlank hb)
  induction h with
  | null => exact .of_isOutside (by decide)
  | yes => exact .of_isOutside (by decide)
  | no => exact .of_isOutside (by decide)
  | number isNumber => exact .of_isOutside isNumber.isOutside
  | string body => exact body.isStrict
  | emptyArray isBlank =>
    exact ((hmark '[' (by simp)).append (hblank isBlank)).append (hmark ']' (by simp))
  | array _ ih => exact ((hmark '[' (by simp)).append ih).append (hmark ']' (by simp))
  | emptyObject isBlank =>
    exact ((hmark '\x7b' (by simp)).append (hblank isBlank)).append (hmark '\x7d' (by simp))
  | object _ ih => exact ((hmark '\x7b' (by simp)).append ih).append (hmark '\x7d' (by simp))
  | element isBlankBefore _ isBlankAfter ih =>
    exact ((hblank isBlankBefore).append ih).append (hblank isBlankAfter)
  | lastElement _ ih => exact ih
  | elements _ _ ih ihMore => exact ih.append ((hmark ',' (by simp)).append ihMore)
  | member isBlankBefore body isBlankAfter _ ih =>
    have hname := (hblank isBlankBefore).append body.isStrict
    have hfield := hname.append ((hblank isBlankAfter).append ((hmark ':' (by simp)).append ih))
    simpa using hfield
  | lastMember _ ih => exact ih
  | members _ _ ih ihMore => exact ih.append ((hmark ',' (by simp)).append ihMore)

end JsonText

/--
The quotes that delimit strings become double quotes, and every other character stays; so that a
text that is JSON already stays as it is.
-/
theorem Quotes.normalize_delimiters :
    (∀ ps : List QuotedPiece,
        normalize (String.ofList (QuotedPiece.textAll QuoteMark.char ps))
          = String.ofList (QuotedPiece.textAll (fun _ => '"') ps))
      ∧ (∀ s : String, IsJsonText s.toList → normalize s = s)
      ∧ ∀ (depth : Nat) (s : String) (j : Json), Json.parseWithin depth s = .ok j →
          normalize s = s := by
  have hjson : ∀ s : String, IsJsonText s.toList → normalize s = s := by
    intro s hs
    rw [normalize, hs.isStrict.normalizeChars_eq, String.ofList_toList]
  refine ⟨?_, hjson, ?_⟩
  · intro ps
    rw [normalize, String.toList_ofList, normalizeChars_textAll]
  · intro depth s j h
    exact hjson s (JsonText.isJsonText_of_parseWithin h)

/--
An escaped quote in a string between single quotes, a JSON text that is not read, for its surrogate
is unpaired, and one that is.
-/
theorem Quotes.normalize_delimiters_escaped :
    normalize "\x7b \x27a\\\x27\x27 : ?0 \x7d" = "\x7b \"a\\\x27\" : ?0 \x7d"
      ∧ (IsJsonText "\"\\uD800\"".toList ∧ normalize "\"\\uD800\"" = "\"\\uD800\"")
      ∧ Json.parseWithin 2 "[\"it\x27s\"]" = .ok (.array [.string "it\x27s"])
      ∧ normalize "[\"it\x27s\"]" = "[\"it\x27s\"]" := by
  have hpieces := normalize_delimiters.1
    [.outside ['\x7b', ' '] (by decide),
      .literal .single [.ordinary 'a' ⟨by decide, by decide, by decide⟩, .escaped single],
      .outside [' ', ':', ' ', '?', '0', ' ', '\x7d'] (by decide)]
  have hdigits : Hex.nat? ['D', '8', '0', '0'] = some 0xD800 := rfl
  have hbody : JsonText.IsStringBody ['\\', 'u', 'D', '8', '0', '0'] :=
    .unit rfl (TextPosition.isSome_of_mem_nat? hdigits) .nil
  have hjson : IsJsonText "\"\\uD800\"".toList :=
    .element JsonTree.isBlank_nil (.string hbody) JsonTree.isBlank_nil
  have hread : Json.parseWithin 2 "[\"it\x27s\"]" = .ok (.array [.string "it\x27s"]) := rfl
  exact ⟨hpieces, ⟨hjson, normalize_delimiters.2.1 _ hjson⟩, hread,
    normalize_delimiters.2.2 2 _ _ hread⟩

end DerivedQuery
