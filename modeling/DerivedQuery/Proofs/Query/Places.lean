import DerivedQuery.Proofs.Query.Substitution

/-!
This module contains that the places of a query text are in range: a place whose number is not that
of a parameter is refused with the template, and every place of a template takes the text of its own
argument.
-/

namespace DerivedQuery

namespace TemplatePart

def number? : TemplatePart → Option Nat
  | .char _ => none
  | .place digits => some (Text.natOfDigits digits)

/--
A place is written in ASCII digits, and a count of 64 bits has room for its number and one more.
-/
def IsCounted : TemplatePart → Prop
  | .char _ => True
  | .place digits => digits.all Char.isDigit = true ∧ Text.natOfDigits digits < maxCount

instance (part : TemplatePart) : Decidable part.IsCounted :=
  match part with
  | .char _ => inferInstanceAs (Decidable True)
  | .place _ => inferInstanceAs (Decidable (_ ∧ _))

theorem index?_eq_number? {part : TemplatePart} (h : part.IsCounted) :
    part.index? = part.number? := by
  cases part with
  | char c => rfl
  | place digits =>
    obtain ⟨hdigits, hnumber⟩ := h
    rw [index?, number?, hdigits, decide_eq_true hnumber.le]
    rfl

theorem number_lt {part : TemplatePart} {i : Nat} (h : part.IsCounted)
    (hnumber : part.number? = some i) : i < maxCount := by
  cases part with
  | char c => contradiction
  | place digits =>
    cases hnumber
    exact h.2

inductive Filled (values : List Value) : List TemplatePart → List Char → Prop where
  | nil : Filled values [] []
  | char (c : Char) {parts : List TemplatePart} {text : List Char}
    (h : Filled values parts text) : Filled values (.char c :: parts) (c :: text)
  | place {digits : List Char} {v : Value} (hv : values[Text.natOfDigits digits]? = some v)
    {parts : List TemplatePart} {text : List Char} (h : Filled values parts text) :
    Filled values (.place digits :: parts) ((ExtendedJson.text v).toList ++ text)

end TemplatePart

namespace Template

open TemplatePart (number? IsCounted Filled)

def numbers (query : String) : List Nat :=
  (parts query).filterMap number?

def HasCountedPlaces (query : String) : Prop :=
  ∀ part ∈ parts query, part.IsCounted

instance (query : String) : Decidable (HasCountedPlaces query) :=
  inferInstanceAs (Decidable (∀ part ∈ parts query, part.IsCounted))

variable {method query : String} {fields : Option String} {count i : Nat} {t : Template}
  {values : List Value}

theorem indices_eq_numbers (h : HasCountedPlaces query) : indices query = numbers query :=
  List.filterMap_congr fun part hpart => TemplatePart.index?_eq_number? (h part hpart)

theorem lt_of_mem_numbers (h : HasCountedPlaces query) (hi : i ∈ numbers query) : i < maxCount := by
  obtain ⟨part, hpart, hnumber⟩ := List.mem_filterMap.mp hi
  exact TemplatePart.number_lt (h part hpart) hnumber

/-! ### Places out of range -/

theorem compile_eq_parameterCount (h : HasCountedPlaces (Quotes.normalize query))
    (hi : i ∈ numbers (Quotes.normalize query)) (hcount : count ≤ i) :
    ∃ greatest, IsGreatest { j | j ∈ numbers (Quotes.normalize query) } greatest
      ∧ count < greatest + 1
      ∧ compile method query fields count
          = .error (.parameterCount method (greatest + 1) count) := by
  obtain ⟨greatest, hgreatest⟩ :=
    Option.ne_none_iff_exists'.mp (List.max?_eq_none_iff.not.mpr (List.ne_nil_of_mem hi))
  obtain ⟨hmem, hle⟩ := List.max?_eq_some_iff.mp hgreatest
  have hout : count ≤ greatest := hcount.trans (hle i hi)
  have hroom : parametersFor greatest = greatest + 1 :=
    Nat.mod_eq_of_lt (Nat.succ_lt_succ (lt_of_mem_numbers h hmem))
  refine ⟨greatest, ⟨hmem, hle⟩, Nat.lt_succ_of_le hout, ?_⟩
  rw [compile]
  dsimp only
  rw [indices_eq_numbers h, hgreatest]
  dsimp only
  rw [if_pos hout, hroom]
  rfl

/-! ### Filled places -/

theorem lt_of_compile (h : HasCountedPlaces (Quotes.normalize query))
    (hcompile : compile method query fields count = .ok t) : ∀ i ∈ numbers t.query, i < count := by
  intro i hi
  rw [(compile_eq_ok hcompile).1] at hi
  by_contra hcount
  obtain ⟨_, -, -, herror⟩ := compile_eq_parameterCount h hi (Nat.le_of_not_lt hcount)
  rw [herror] at hcompile
  contradiction

theorem filled_flatMap_fill {parts : List TemplatePart} (hcounted : ∀ part ∈ parts, part.IsCounted)
    (hlt : ∀ i ∈ parts.filterMap number?, i < values.length) :
    Filled values parts
      (parts.flatMap (TemplatePart.fill fun i => (values.map .value)[i]?.bind argumentText?)) := by
  induction parts with
  | nil => exact .nil
  | cons part parts ih =>
    rw [List.forall_mem_cons] at hcounted
    rw [List.flatMap_cons]
    cases part with
    | char c => exact .char c (ih hcounted.2 hlt)
    | place digits =>
      have hfirst : number? (.place digits) = some (Text.natOfDigits digits) := rfl
      rw [List.filterMap_cons_some hfirst, List.forall_mem_cons] at hlt
      have hvalue := List.getElem?_eq_getElem hlt.1
      have hchars : TemplatePart.fill (fun i => (values.map .value)[i]?.bind argumentText?)
          (.place digits) = (ExtendedJson.text values[Text.natOfDigits digits]).toList := by
        rw [TemplatePart.fill, TemplatePart.index?_eq_number? hcounted.1, hfirst, Option.bind_some,
          List.getElem?_map, hvalue]
        rfl
      rw [hchars]
      exact .place hvalue (ih hcounted.2 hlt.2)

theorem render_eq_ofText (h : HasCountedPlaces t.query)
    (hlt : ∀ i ∈ numbers t.query, i < values.length) :
    t.render method (values.map .value)
      =
    (Filter.ofText (fill t.query fun i => (values.map .value)[i]?.bind argumentText?)).mapError
      fun fault => .clauseMismatch method (.boundQuery fault) := by
  have hfaults : (indices t.query).filterMap (fault? (values.map .value)) = [] := by
    rw [indices_eq_numbers h, List.filterMap_eq_nil_iff]
    intro i hi
    rw [fault?, List.getElem?_map, List.getElem?_eq_getElem (hlt i hi)]
    rfl
  rw [render, hfaults]
  rfl

/--
A text with a place beyond its parameters is refused, and the error says how many parameters its
places ask for. A template is rendered from its text with the text of its own argument in the place
of each number. This holds for places that are counted.
-/
theorem compile_refuses_or_fills (h : HasCountedPlaces (Quotes.normalize query)) (method : String)
    (fields : Option String) (count : Nat) :
    ((∃ i ∈ numbers (Quotes.normalize query), count ≤ i) →
      ∃ greatest, IsGreatest { j | j ∈ numbers (Quotes.normalize query) } greatest
        ∧ count < greatest + 1
        ∧ compile method query fields count
            = .error (.parameterCount method (greatest + 1) count))
      ∧
    ∀ t, compile method query fields count = .ok t →
      ∀ values : List Value, values.length = count →
        ∃ text : String, Filled values (parts t.query) text.toList
          ∧
        t.render method (values.map .value)
          =
        (Filter.ofText text).mapError fun fault => .clauseMismatch method (.boundQuery fault) := by
  constructor
  · rintro ⟨i, hi, hcount⟩
    exact compile_eq_parameterCount h hi hcount
  · intro t hcompile values hlength
    have hcounted : HasCountedPlaces t.query := by
      rw [(compile_eq_ok hcompile).1]
      exact h
    have hlt : ∀ i ∈ numbers t.query, i < values.length := by
      rw [hlength]
      exact lt_of_compile h hcompile
    refine ⟨_, ?_, render_eq_ofText hcounted hlt⟩
    rw [fill, String.toList_ofList]
    exact filled_flatMap_fill hcounted hlt

theorem compile_refuses_or_fills_name :
    HasCountedPlaces (Quotes.normalize "\x7b 'name': ?0 \x7d")
      ∧
    compile "findByName" "\x7b 'name': ?0 \x7d" none 0 = .error (.parameterCount "findByName" 1 0)
      ∧
    compile "findByName" "\x7b 'name': ?0 \x7d" none 1 = .ok nameTemplate
      ∧
    ∃ text : String, Filled [.string "Dave"] (parts nameTemplate.query) text.toList
      ∧
    nameTemplate.render "findByName" [.value (.string "Dave")]
      =
    (Filter.ofText text).mapError
      fun fault => .clauseMismatch "findByName" (.boundQuery fault) := by
  have hcounted : HasCountedPlaces (Quotes.normalize "\x7b 'name': ?0 \x7d") := by decide +kernel
  have hnumbers : numbers (Quotes.normalize "\x7b 'name': ?0 \x7d") = [0] := by decide +kernel
  have hcompile : compile "findByName" "\x7b 'name': ?0 \x7d" none 1 = .ok nameTemplate := by
    rw [← toOption_eq_some_iff]
    decide +kernel
  obtain ⟨greatest, ⟨hmem, -⟩, -, herror⟩ :=
    (compile_refuses_or_fills hcounted "findByName" none 0).1 ⟨0, by simp [hnumbers], Nat.le_refl 0⟩
  obtain rfl : greatest = 0 := by simpa [hnumbers] using hmem
  exact ⟨hcounted, herror, hcompile,
    (compile_refuses_or_fills hcounted "findByName" none 1).2 _ hcompile [.string "Dave"] rfl⟩

def farTemplate : Template where
  query := "\x7b \"name\": ?18446744073709551616 \x7d"
  fields := none

/--
A number that takes more than 64 bits is that of no parameter, but the template is accepted, and the
place becomes `null`.
-/
theorem compile_accepts_far_place :
    (∃ i ∈ numbers (Quotes.normalize "\x7b 'name': ?18446744073709551616 \x7d"), 1 ≤ i)
      ∧
    compile "findByName" "\x7b 'name': ?18446744073709551616 \x7d" none 1 = .ok farTemplate
      ∧
    farTemplate.render "findByName" [.value (.string "Dave")]
      =
    (Filter.ofText "\x7b \"name\": null \x7d").mapError
      fun fault => .clauseMismatch "findByName" (.boundQuery fault) := by
  have hnumbers : numbers (Quotes.normalize "\x7b 'name': ?18446744073709551616 \x7d")
      = [18446744073709551616] := by
    decide +kernel
  have hcompile : compile "findByName" "\x7b 'name': ?18446744073709551616 \x7d" none 1
      = .ok farTemplate := by
    rw [← toOption_eq_some_iff]
    decide +kernel
  have hindices : indices farTemplate.query = [] := by decide +kernel
  have hfill : fill farTemplate.query
      (fun i => [Argument.value (.string "Dave")][i]?.bind argumentText?)
        = "\x7b \"name\": null \x7d" := by
    decide +kernel
  refine ⟨⟨18446744073709551616, by simp [hnumbers], by decide⟩, hcompile, ?_⟩
  rw [render, hindices, hfill]
  rfl

end Template
end DerivedQuery
