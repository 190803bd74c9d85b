import DerivedQuery.Json.Printer
import DerivedQuery.Json.Reader
import DerivedQuery.Proofs.Traversal

/-!
This module contains the texts of strings, what the reader takes as one, and that a quoted string is
one.
-/

namespace DerivedQuery
namespace Json

def shortEscapes : List (Char × Char) :=
  [('"', '"'), ('\\', '\\'), ('/', '/'), ('b', Char.ofNat 8), ('f', Char.ofNat 12), ('n', '\n'),
   ('r', '\r'), ('t', '\t')]

/--
What stands behind a backslash for a character. One beyond 16 bits is a pair of surrogates.
-/
inductive EscapeCode : List Char → Char → Prop where
  | short {code c : Char} (mem : (code, c) ∈ shortEscapes) : EscapeCode [code] c
  | unit {digits : List Char} {n : Nat} (length : digits.length = 4)
      (value : Hex.nat? digits = some n) (plain : n < 0xD800 ∨ 0xDFFF < n) :
      EscapeCode ('u' :: digits) (Char.ofNat n)
  | pair {high low : List Char} {m n : Nat} (lengthHigh : high.length = 4)
      (valueHigh : Hex.nat? high = some m) (lengthLow : low.length = 4)
      (valueLow : Hex.nat? low = some n) (isHigh : 0xD800 ≤ m ∧ m ≤ 0xDBFF)
      (isLow : 0xDC00 ≤ n ∧ n ≤ 0xDFFF) :
      EscapeCode ('u' :: high ++ '\\' :: 'u' :: low)
        (Char.ofNat (0x10000 + (m - 0xD800) * 0x400 + (n - 0xDC00)))

inductive StringText : List Char → List Char → Prop where
  | nil : StringText [] []
  | plain {c : Char} {text s : List Char} (quote : c ≠ '"') (escape : c ≠ '\\')
      (control : 32 ≤ c.toNat) (more : StringText text s) : StringText (c :: text) (c :: s)
  | escaped {code : List Char} {c : Char} {text s : List Char} (escape : EscapeCode code c)
      (more : StringText text s) : StringText ('\\' :: code ++ text) (c :: s)

namespace Syntax

/-! ### Escapes -/

theorem hexEscape_short_ne_ok (s : List Char) (r : Nat × List Char) :
    hexEscape.short s ≠ .ok r := by
  unfold hexEscape.short failAt
  split <;> simp

theorem hexEscape_eq_ok_iff {s rest : List Char} {n : Nat} :
    hexEscape s = .ok (n, rest)
      ↔
    ∃ digits, digits.length = 4 ∧ Hex.nat? digits = some n ∧ s = digits ++ rest := by
  constructor
  · intro h
    unfold hexEscape at h
    split at h
    next a b c d rest' =>
      split at h
      next hn =>
        cases h
        exact ⟨[a, b, c, d], rfl, hn, rfl⟩
      next => exact absurd h (hexEscape_short_ne_ok _ _)
    next => exact absurd h (hexEscape_short_ne_ok _ _)
  · rintro ⟨digits, hlength, hn, rfl⟩
    match digits, hlength with
    | [a, b, c, d], _ => simp [hexEscape, hn]

theorem expect_eq_ok_iff {c : Char} {s rest : List Char} :
    unicodeEscape.expect c s = .ok rest ↔ s = c :: rest := by
  cases s with
  | nil => simp [unicodeEscape.expect, failAt]
  | cons d s =>
    rw [unicodeEscape.expect]
    split
    next hd =>
      subst hd
      simp
    next hd => simp [failAfter, hd]

theorem unicodeEscape_eq_ok_iff {s rest : List Char} {c : Char} :
    unicodeEscape s = .ok (c, rest) ↔ ∃ code, EscapeCode ('u' :: code) c ∧ s = code ++ rest := by
  unfold unicodeEscape
  rw [bind_eq_ok_iff]
  constructor
  · rintro ⟨⟨m, tail⟩, hhigh, h⟩
    obtain ⟨high, hlength, hm, rfl⟩ := hexEscape_eq_ok_iff.mp hhigh
    dsimp only at h
    split at h
    next => contradiction
    next hlow =>
      split at h
      next hplain =>
        cases h
        exact ⟨high, .unit hlength hm (by omega), rfl⟩
      next hpair =>
        simp only [bind_eq_ok_iff] at h
        obtain ⟨_, hbackslash, _, hu, ⟨n, tail⟩, hread, h⟩ := h
        obtain ⟨low, hlengthLow, hn, rfl⟩ := hexEscape_eq_ok_iff.mp hread
        rw [expect_eq_ok_iff] at hbackslash hu
        subst hu hbackslash
        split at h
        next => contradiction
        next hrange =>
          rw [Except.ok.injEq, Prod.mk.injEq] at h
          obtain ⟨rfl, rfl⟩ := h
          refine ⟨high ++ '\\' :: 'u' :: low, ?_, by simp⟩
          exact .pair hlength hm hlengthLow hn (by omega) (by omega)
  · rintro ⟨code, hcode, rfl⟩
    cases hcode with
    | short hmem => simp [shortEscapes] at hmem
    | @unit digits n hlength hn hplain =>
      refine ⟨(n, rest), hexEscape_eq_ok_iff.mpr ⟨code, hlength, hn, rfl⟩, ?_⟩
      dsimp only
      rw [if_neg (by omega), if_pos (by omega)]
    | @pair high low m n hlength hm hlengthLow hn hhigh hlow =>
      refine ⟨(m, '\\' :: 'u' :: (low ++ rest)), ?_, ?_⟩
      · exact hexEscape_eq_ok_iff.mpr ⟨high, hlength, hm, by simp⟩
      · have hread : hexEscape (low ++ rest) = .ok (n, rest) :=
          hexEscape_eq_ok_iff.mpr ⟨low, hlengthLow, hn, rfl⟩
        dsimp only
        rw [if_neg (by omega), if_neg (by omega)]
        simp only [bind_eq_ok_iff, expect_eq_ok_iff]
        refine ⟨_, rfl, _, rfl, _, hread, ?_⟩
        dsimp only
        rw [if_neg (by omega)]

theorem escape_eq_ok_iff {s rest : List Char} {c : Char} :
    escape s = .ok (c, rest) ↔ ∃ code, EscapeCode code c ∧ s = code ++ rest := by
  constructor
  · intro h
    have hshort : ∀ {code : Char} {s : List Char}, (code, c) ∈ shortEscapes →
        ∃ code', EscapeCode code' c ∧ code :: s = code' ++ s := by
      intro code s hmem
      exact ⟨[code], .short hmem, rfl⟩
    unfold escape at h
    split at h
    next => contradiction
    next code s =>
      split at h
      case h_9 =>
        obtain ⟨code, hcode, rfl⟩ := unicodeEscape_eq_ok_iff.mp h
        exact ⟨'u' :: code, hcode, rfl⟩
      case h_10 => contradiction
      all_goals
        cases h
        exact hshort (by simp [shortEscapes])
  · rintro ⟨code, hcode, rfl⟩
    cases hcode with
    | short hmem =>
      simp only [shortEscapes, List.mem_cons, Prod.mk.injEq, List.not_mem_nil, or_false] at hmem
      obtain ⟨rfl, rfl⟩ | ⟨rfl, rfl⟩ | ⟨rfl, rfl⟩ | ⟨rfl, rfl⟩ | ⟨rfl, rfl⟩ | ⟨rfl, rfl⟩
        | ⟨rfl, rfl⟩
        | ⟨rfl, rfl⟩ := hmem <;> rfl
    | unit hlength hn hplain =>
      exact unicodeEscape_eq_ok_iff.mpr ⟨_, .unit hlength hn hplain, rfl⟩
    | pair hlength hm hlengthLow hn hhigh hlow =>
      exact unicodeEscape_eq_ok_iff.mpr ⟨_, .pair hlength hm hlengthLow hn hhigh hlow, rfl⟩

/-! ### Strings -/

theorem stringBody_of_text {text cs : List Char} (h : StringText text cs) (rest : List Char)
    {fuel : Nat} (hfuel : text.length < fuel) (read : List Char) :
    stringBody fuel read (text ++ '"' :: rest)
      =
    .ok (String.ofList (read.reverse ++ cs), rest) := by
  induction h generalizing fuel read with
  | nil =>
    cases fuel with
    | zero => contradiction
    | succ fuel => simp [stringBody]
  | @plain c text cs hquote hescape hcontrol _ ih =>
    cases fuel with
    | zero => contradiction
    | succ fuel =>
      rw [List.cons_append, stringBody, if_neg hquote, if_neg hescape, if_neg (by omega),
        ih (by simpa using hfuel)]
      simp
  | @escaped code c text cs hcode _ ih =>
    cases fuel with
    | zero => contradiction
    | succ fuel =>
      have hread : escape (code ++ (text ++ '"' :: rest)) = .ok (c, text ++ '"' :: rest) :=
        escape_eq_ok_iff.mpr ⟨code, hcode, rfl⟩
      rw [List.append_assoc, List.cons_append, stringBody, if_neg (by decide), if_pos rfl, hread,
        bind, Monad.toBind, Except.instMonad]
      simp only [Except.bind]
      rw [ih]
      · simp
      · simp only [List.length_append, List.length_cons] at hfuel
        omega

theorem exists_text_of_stringBody {fuel : Nat} {read s rest : List Char} {str : String}
    (h : stringBody fuel read s = .ok (str, rest)) :
    ∃ text cs, StringText text cs ∧ s = text ++ '"' :: rest
      ∧ str = String.ofList (read.reverse ++ cs) := by
  induction fuel generalizing read s with
  | zero => contradiction
  | succ fuel ih =>
    cases s with
    | nil => contradiction
    | cons c s =>
      rw [stringBody] at h
      split at h
      next hquote =>
        cases h
        exact ⟨[], [], .nil, by rw [hquote]; rfl, by simp⟩
      next hquote =>
        split at h
        next hescape =>
          rw [bind_eq_ok_iff] at h
          obtain ⟨⟨d, tail⟩, hread, h⟩ := h
          obtain ⟨code, hcode, rfl⟩ := escape_eq_ok_iff.mp hread
          obtain ⟨text, cs, htext, rfl, hstr⟩ := ih h
          refine ⟨'\\' :: code ++ text, d :: cs, .escaped hcode htext, by simp [hescape], ?_⟩
          rw [hstr, List.reverse_cons, List.append_assoc]
          rfl
        next hescape =>
          split at h
          next => contradiction
          next hcontrol =>
            obtain ⟨text, cs, htext, rfl, hstr⟩ := ih h
            refine ⟨c :: text, c :: cs, .plain hquote hescape (by omega) htext, rfl, ?_⟩
            rw [hstr, List.reverse_cons, List.append_assoc]
            rfl

theorem string_eq_ok_iff {s rest : List Char} {str : String} :
    string s = .ok (str, rest) ↔ ∃ text, StringText text str.toList ∧ s = text ++ '"' :: rest := by
  unfold string
  constructor
  · intro h
    obtain ⟨text, cs, htext, hs, rfl⟩ := exists_text_of_stringBody h
    exact ⟨text, by simpa using htext, hs⟩
  · rintro ⟨text, htext, rfl⟩
    rw [stringBody_of_text htext]
    · simp
    · simp only [List.length_append, List.length_cons]
      omega

end Syntax

/-! ### Quoted strings -/

theorem nat?_of_lt_32 {n : Nat} (h : n < 32) :
    Hex.nat? ['0', '0', Hex.digit (n / 16), Hex.digit (n % 16)] = some n := by
  have hzero : Hex.value? '0' = some 0 := by decide
  simp only [Hex.nat?, List.foldlM_cons, List.foldlM_nil, hzero,
    Hex.value?_digit (n / 16) (by omega), Hex.value?_digit (n % 16) (by omega), Option.map_some,
    Option.bind_eq_bind, Option.bind_some, Option.pure_def, Option.some.injEq]
  omega

theorem stringText_escapeChar (c : Char) {text s : List Char} (h : StringText text s) :
    StringText (escapeChar c ++ text) (c :: s) := by
  have hshort : ∀ {code c : Char}, (code, c) ∈ shortEscapes →
      StringText (['\\', code] ++ text) (c :: s) := by
    intro code c hmem
    exact .escaped (.short hmem) h
  unfold escapeChar
  split
  case h_6 _ hquote hescape _ _ _ =>
    have hc : Char.ofNat c.toNat = c := Char.ofNat_toNat c
    split
    next hcode =>
      rw [hcode] at hc
      exact hshort (by simp [shortEscapes, ← hc])
    next =>
      split
      next hcode =>
        rw [hcode] at hc
        exact hshort (by simp [shortEscapes, ← hc])
      next =>
        split
        next hcontrol =>
          have hcode : EscapeCode _ (Char.ofNat c.toNat) :=
            .unit rfl (nat?_of_lt_32 hcontrol) (by omega)
          rw [hc] at hcode
          exact .escaped hcode h
        next hcontrol => exact .plain hquote hescape (by omega) h
  all_goals exact hshort (by simp [shortEscapes])

theorem stringText_self {cs : List Char} (h : ∀ c ∈ cs, c ≠ '"' ∧ c ≠ '\\' ∧ 32 ≤ c.toNat) :
    StringText cs cs := by
  induction cs with
  | nil => exact .nil
  | cons c cs ih =>
    obtain ⟨hquote, hescape, hcontrol⟩ := h c List.mem_cons_self
    exact .plain hquote hescape hcontrol (ih fun d hd => h d (List.mem_cons_of_mem c hd))

theorem stringText_flatMap (s : List Char) : StringText (s.flatMap escapeChar) s := by
  induction s with
  | nil => exact .nil
  | cons c s ih => exact stringText_escapeChar c ih

end Json
end DerivedQuery
