import DerivedQuery.Proofs.Json.Tree
import DerivedQuery.Proofs.Text.Digits
import DerivedQuery.Value.ExtendedJson

/-!
This module contains that the text of a JSON value is the text of its syntax tree, as long as the
texts of its numbers are numbers.
-/

namespace DerivedQuery

/-! ### Whole numbers -/

namespace Json.Syntax

theorem le_ofDigitChars (ds : List Char) (value : Nat) : value ≤ Nat.ofDigitChars 10 ds value := by
  rw [Nat.ofDigitChars_eq_foldl]
  induction ds generalizing value with
  | nil => exact Nat.le_refl value
  | cons c ds ih =>
    rw [List.foldl_cons]
    have hle := ih (10 * value + (c.toNat - '0'.toNat))
    omega

theorem digits_eq {ds : List Char} (hds : ∀ c ∈ ds, c.isDigit = true) {value : Nat}
    (hvalue : Nat.ofDigitChars 10 ds value ≤ maxWord) (taken : Nat) {rest : List Char}
    (hrest : ∀ c ∈ rest.head?, c.isDigit = false) :
    digits value taken (ds ++ rest)
      =
    (Nat.ofDigitChars 10 ds value, taken + ds.length, rest) := by
  induction ds generalizing value taken with
  | nil =>
    cases rest with
    | nil => rfl
    | cons c rest =>
      have hc := hrest c rfl
      simp [digits, hc]
  | cons c ds ih =>
    have hstep : Nat.ofDigitChars 10 (c :: ds) value
        = Nat.ofDigitChars 10 ds (10 * value + Text.digitValue c) := by
      rw [Nat.ofDigitChars_eq_foldl, Nat.ofDigitChars_eq_foldl]
      rfl
    rw [hstep] at hvalue ⊢
    have hfits : 10 * value + Text.digitValue c ≤ maxWord :=
      Nat.le_trans (le_ofDigitChars ds _) hvalue
    have hc := hds c List.mem_cons_self
    rw [List.cons_append, digits, if_pos ⟨hc, hfits⟩,
      ih (fun d hd => hds d (List.mem_cons_of_mem c hd)) hvalue]
    simp only [List.length_cons, Prod.mk.injEq, and_true, true_and]
    omega

theorem number_toDigits (negative : Bool) {n : Nat} (h : n ≤ maxWord) :
    number negative (Nat.toDigits 10 n) = .ok (integer negative n, []) := by
  have hdigits : ∀ c ∈ Nat.toDigits 10 n, c.isDigit = true :=
    fun _ hc => Text.isDigit_of_mem_toDigits hc
  by_cases hzero : n = 0
  · subst hzero
    rfl
  · obtain ⟨c, cs, hcs, hc⟩ := Text.exists_toDigits_cons (Nat.pos_of_ne_zero hzero)
    have hn : Nat.ofDigitChars 10 cs (Text.digitValue c) = n := by
      rw [← Nat.ofDigitChars_ten_toDigits (n := n), hcs, Nat.ofDigitChars_eq_foldl,
        Nat.ofDigitChars_eq_foldl, List.foldl_cons, Nat.mul_zero, Nat.zero_add]
      rfl
    rw [hcs] at hdigits ⊢
    have hread := digits_eq (fun d hd => hdigits d (List.mem_cons_of_mem c hd)) (hn ▸ h) 0
      stops_nil.head_not_isDigit
    rw [List.append_nil, hn] at hread
    rw [number_of_digits hc (hdigits c List.mem_cons_self) hread]
    rfl

theorem numeral?_toString {n : Int} (hlow : -(Nat.pow 2 63 : Int) ≤ n) (hhigh : n ≤ maxWord) :
    numeral? (toString n).toList = some (.int n) := by
  have hword : maxWord = 18446744073709551615 := rfl
  have hpow : (Nat.pow 2 63 : Int) = 9223372036854775808 := rfl
  rw [Int.toString_eq_repr, Int.repr_eq_if]
  split
  next hsign =>
    rw [Nat.toList_repr]
    have hread := number_toDigits false (n := n.toNat) (by omega)
    rw [numeral?_of_number hread, integer, if_pos (by decide), Int.toNat_of_nonneg hsign]
  next hsign =>
    rw [String.toList_append, Nat.toList_repr]
    have hread := number_toDigits true (n := (-n).toNat) (by omega)
    have hinteger : integer true (-n).toNat = .int n := by
      rw [integer, if_neg (by simp), if_neg, Int.toNat_of_nonneg (by omega), Int.neg_neg]
      have hpow' : Nat.pow 2 63 = 9223372036854775808 := rfl
      omega
    rw [hinteger] at hread
    exact whole?_eq_some_iff.mpr hread

end Json.Syntax

/-! ### Texts of values -/

namespace Json

mutual

/--
The text of each number is a number.
-/
def NumbersRead : Json → Prop
  | .int n => (Syntax.numeral? (toString n).toList).isSome = true
  | .float x => (Syntax.numeral? (Float64.jsonText x).toList).isSome = true
  | .array items => NumbersReadItems items
  | .object fields => NumbersReadFields fields
  | _ => True

def NumbersReadItems : List Json → Prop
  | [] => True
  | item :: items => NumbersRead item ∧ NumbersReadItems items

def NumbersReadFields : List (String × Json) → Prop
  | [] => True
  | (_, value) :: fields => NumbersRead value ∧ NumbersReadFields fields

end

end Json

namespace JsonTree

mutual

def ofJson : Json → JsonTree
  | .null => .null
  | .bool b => .bool b
  | .int n => .number (toString n).toList
  | .float x => .number (Float64.jsonText x).toList
  | .string s => .string s
  | .array items => .array (ofJsonItems items)
  | .object fields => .object (ofJsonFields fields)

def ofJsonItems : List Json → List JsonTree
  | [] => []
  | item :: items => ofJson item :: ofJsonItems items

def ofJsonFields : List (String × Json) → List (String × JsonTree)
  | [] => []
  | (name, value) :: fields => (name, ofJson value) :: ofJsonFields fields

end

def comma (first : Bool) : List Char :=
  if first then [] else [',']

theorem isLead_comma (first : Bool) : IsLead first (comma first) := by
  cases first with
  | true => exact isBlank_nil
  | false => exact ⟨[], [], isBlank_nil, isBlank_nil, rfl⟩

mutual

theorem spells_ofJson {j : Json} (h : j.NumbersRead) : (ofJson j).Spells (plain j.chars) := by
  cases j with
  | null => rfl
  | bool b => cases b <;> rfl
  | int n => exact ⟨h, rfl⟩
  | float x => exact ⟨h, rfl⟩
  | string s => exact ⟨_, Json.stringText_flatMap s.toList, rfl⟩
  | array items =>
    refine ⟨plain (Json.charsItems items ++ [']']), ?_, rfl⟩
    cases items with
    | nil => exact ⟨[], isBlank_nil, rfl⟩
    | cons item items => exact spellsItems_ofJson h (by simp) true
  | object fields =>
    refine ⟨plain (Json.charsFields fields ++ ['\x7d']), ?_, rfl⟩
    cases fields with
    | nil => exact ⟨[], isBlank_nil, rfl⟩
    | cons field fields => exact spellsFields_ofJson h (by simp) true

theorem spellsItems_ofJson {items : List Json} (h : Json.NumbersReadItems items)
    (hne : items ≠ []) (first : Bool) :
    SpellsItems first (ofJsonItems items)
      (plain (comma first ++ Json.charsItems items ++ [']'])) := by
  cases items with
  | nil => contradiction
  | cons item items =>
    refine ⟨comma first, plain item.chars, ?_, isLead_comma first, spells_ofJson h.1, ?_⟩
    · exact plain ((match items with
        | [] => []
        | items => comma false ++ Json.charsItems items) ++ [']'])
    cases items with
    | nil => exact ⟨⟨[], isBlank_nil, rfl⟩, by simp [plain, Json.charsItems]⟩
    | cons next items =>
      refine ⟨spellsItems_ofJson h.2 (by simp) false, ?_⟩
      simp [plain, Json.charsItems, comma]

theorem spellsFields_ofJson {fields : List (String × Json)} (h : Json.NumbersReadFields fields)
    (hne : fields ≠ []) (first : Bool) :
    SpellsFields first (ofJsonFields fields)
      (plain (comma first ++ Json.charsFields fields ++ ['\x7d'])) := by
  cases fields with
  | nil => contradiction
  | cons field fields =>
    obtain ⟨name, value⟩ := field
    refine ⟨comma first, name.toList.flatMap Json.escapeChar, [], [], plain value.chars, ?_,
      isLead_comma first, Json.stringText_flatMap _, isBlank_nil, isBlank_nil, spells_ofJson h.1,
      ?_⟩
    · exact plain ((match fields with
        | [] => []
        | fields => comma false ++ Json.charsFields fields) ++ ['\x7d'])
    cases fields with
    | nil => exact ⟨⟨[], isBlank_nil, rfl⟩, by simp [plain, Json.charsFields, Json.quote]⟩
    | cons next fields =>
      refine ⟨spellsFields_ofJson h.2 (by simp) false, ?_⟩
      simp [plain, Json.charsFields, comma, Json.quote]

end

end JsonTree
end DerivedQuery
