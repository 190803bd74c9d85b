import DerivedQuery.Proofs.Json.Probe

/-!
This module contains the grammar of JSON texts, and that the reader accepts none but these. The
converse fails on purpose: the reader bounds nesting and numbers, and refuses unpaired surrogates.
-/

namespace DerivedQuery
namespace JsonText

open JsonTree (IsBlank)

/-! ### Numbers -/

def IsDigits (cs : List Char) : Prop :=
  ∀ c ∈ cs, c.isDigit = true

inductive IsWhole : List Char → Prop where
  | zero : IsWhole ['0']
  | digits {d : Char} {ds : List Char} (nonzero : d ≠ '0') (first : d.isDigit = true)
      (more : IsDigits ds) : IsWhole (d :: ds)

inductive IsFraction : List Char → Prop where
  | absent : IsFraction []
  | digits {d : Char} {ds : List Char} (first : d.isDigit = true) (more : IsDigits ds) :
      IsFraction ('.' :: d :: ds)

inductive IsExponent : List Char → Prop where
  | absent : IsExponent []
  | digits {mark d : Char} {sign ds : List Char} (mark_eq : mark = 'e' ∨ mark = 'E')
      (sign_eq : sign = [] ∨ sign = ['+'] ∨ sign = ['-']) (first : d.isDigit = true)
      (more : IsDigits ds) : IsExponent (mark :: sign ++ d :: ds)

inductive IsScale : List Char → Prop where
  | mk {fraction exponent : List Char} (isFraction : IsFraction fraction)
      (isExponent : IsExponent exponent) : IsScale (fraction ++ exponent)

inductive IsNumber : List Char → Prop where
  | mk {sign whole scale : List Char} (sign_eq : sign = [] ∨ sign = ['-'])
      (isWhole : IsWhole whole) (isScale : IsScale scale) : IsNumber (sign ++ whole ++ scale)

/-! ### Strings -/

inductive IsStringBody : List Char → Prop where
  | nil : IsStringBody []
  | plain {c : Char} {cs : List Char} (quote : c ≠ '"') (escape : c ≠ '\\')
      (control : 32 ≤ c.toNat) (more : IsStringBody cs) : IsStringBody (c :: cs)
  | escaped {code : Char} {cs : List Char}
      (mem : code ∈ ['"', '\\', '/', 'b', 'f', 'n', 'r', 't']) (more : IsStringBody cs) :
      IsStringBody ('\\' :: code :: cs)
  | unit {digits cs : List Char} (length : digits.length = 4)
      (hex : ∀ c ∈ digits, (Hex.value? c).isSome = true) (more : IsStringBody cs) :
      IsStringBody ('\\' :: 'u' :: digits ++ cs)

/-! ### Texts -/

inductive Symbol where
  | value
  | element
  | elements
  | member
  | members
deriving DecidableEq, Repr

inductive Derives : Symbol → List Char → Prop where
  | null : Derives .value ['n', 'u', 'l', 'l']
  | yes : Derives .value ['t', 'r', 'u', 'e']
  | no : Derives .value ['f', 'a', 'l', 's', 'e']
  | number {cs : List Char} (isNumber : IsNumber cs) : Derives .value cs
  | string {cs : List Char} (body : IsStringBody cs) : Derives .value ('"' :: cs ++ ['"'])
  | emptyArray {blank : List Char} (isBlank : IsBlank blank) :
      Derives .value ('[' :: blank ++ [']'])
  | array {cs : List Char} (elements : Derives .elements cs) : Derives .value ('[' :: cs ++ [']'])
  | emptyObject {blank : List Char} (isBlank : IsBlank blank) :
      Derives .value ('\x7b' :: blank ++ ['\x7d'])
  | object {cs : List Char} (members : Derives .members cs) :
      Derives .value ('\x7b' :: cs ++ ['\x7d'])
  | element {before cs after : List Char} (isBlankBefore : IsBlank before)
      (value : Derives .value cs) (isBlankAfter : IsBlank after) :
      Derives .element (before ++ cs ++ after)
  | lastElement {cs : List Char} (element : Derives .element cs) : Derives .elements cs
  | elements {cs more : List Char} (element : Derives .element cs)
      (others : Derives .elements more) : Derives .elements (cs ++ ',' :: more)
  | member {before name after cs : List Char} (isBlankBefore : IsBlank before)
      (body : IsStringBody name) (isBlankAfter : IsBlank after) (element : Derives .element cs) :
      Derives .member (before ++ '"' :: name ++ '"' :: after ++ ':' :: cs)
  | lastMember {cs : List Char} (member : Derives .member cs) : Derives .members cs
  | members {cs more : List Char} (member : Derives .member cs)
      (others : Derives .members more) : Derives .members (cs ++ ',' :: more)

end JsonText

def IsJsonText (cs : List Char) : Prop :=
  JsonText.Derives .element cs

namespace JsonText

open Json.Syntax (isExponentMark)
open JsonTree (IsBlank IsLead Spells SpellsItems SpellsFields plain probe)

/-! ### Numbers that are read -/

theorem IsDigits.cons {c : Char} {cs : List Char} (hc : c.isDigit = true) (hcs : IsDigits cs) :
    IsDigits (c :: cs) :=
  List.forall_mem_cons.mpr ⟨hc, hcs⟩

theorem isDigits_nil : IsDigits [] := by
  intro c hc
  contradiction

theorem IsExponent.isScale {cs : List Char} (h : IsExponent cs) : IsScale cs :=
  .mk .absent h

theorem isScale_nil : IsScale [] :=
  IsExponent.absent.isScale

section
variable {negative down : Bool} {value exponent : Nat} {start : Int} {j : Json}
  {s rest : List Char}

theorem finish_eq_ok (h : Json.Syntax.finish negative value start s = .ok (j, rest)) :
    s = rest := by
  unfold Json.Syntax.finish at h
  split at h
  next =>
    cases h
    rfl
  next => contradiction

theorem exists_of_exponentDigits
    (h : Json.Syntax.exponentDigits negative value start down exponent s = .ok (j, rest)) :
    ∃ ds, IsDigits ds ∧ s = ds ++ rest := by
  induction s generalizing exponent with
  | nil => exact ⟨[], isDigits_nil, finish_eq_ok h⟩
  | cons c s ih =>
    rw [Json.Syntax.exponentDigits] at h
    split at h
    next hc =>
      split at h
      next =>
        split at h
        next => contradiction
        next =>
          obtain ⟨ds, hs, hds, -⟩ := Text.exists_dropWhile_isDigit s
          rw [Except.ok.injEq, Prod.mk.injEq] at h
          refine ⟨c :: ds, IsDigits.cons hc hds, ?_⟩
          rw [← h.2, List.cons_append, ← hs]
      next =>
        obtain ⟨ds, hds, rfl⟩ := ih h
        exact ⟨c :: ds, hds.cons hc, rfl⟩
    next => exact ⟨[], isDigits_nil, finish_eq_ok h⟩

theorem exists_of_exponentPart {mark : Char} (hmark : isExponentMark mark = true)
    (h : Json.Syntax.exponentPart negative value start s = .ok (j, rest)) :
    ∃ cs, IsExponent cs ∧ mark :: s = cs ++ rest := by
  have hmark : mark = 'e' ∨ mark = 'E' := by
    rwa [isExponentMark, Bool.or_eq_true, beq_iff_eq, beq_iff_eq] at hmark
  obtain ⟨sign, down, c, more, hsign, rfl, hc, hmore, -⟩ :=
    Json.Syntax.exists_of_exponentPart_eq_ok h
  obtain ⟨ds, hds, rfl⟩ := exists_of_exponentDigits hmore
  exact ⟨_, .digits hmark hsign hc hds, by simp⟩

theorem exists_of_afterFraction
    (h : Json.Syntax.afterFraction negative value start s = .ok (j, rest)) :
    ∃ cs, IsExponent cs ∧ s = cs ++ rest := by
  cases s with
  | nil => exact ⟨[], .absent, finish_eq_ok h⟩
  | cons mark s =>
    rw [Json.Syntax.afterFraction] at h
    split at h
    next hmark => exact exists_of_exponentPart hmark h
    next => exact ⟨[], .absent, finish_eq_ok h⟩

theorem exists_of_fractionPart
    (h : Json.Syntax.fractionPart negative value start s = .ok (j, rest)) :
    ∃ cs, IsScale cs ∧ '.' :: s = cs ++ rest := by
  obtain ⟨d, ds, tail, value', exponent, rfl, hds, hafter, -⟩ :=
    Json.Syntax.exists_of_fractionPart_eq_ok h
  obtain ⟨cs, hcs, rfl⟩ := exists_of_afterFraction hafter
  obtain ⟨hd, hds⟩ := List.forall_mem_cons.mp hds
  exact ⟨_, .mk (.digits hd hds) hcs, by simp⟩

theorem exists_of_longInteger
    (h : Json.Syntax.longInteger negative value s = .ok (j, rest)) :
    ∃ ds cs, IsDigits ds ∧ IsScale cs ∧ s = ds ++ cs ++ rest := by
  obtain ⟨ds, hs, hds, -⟩ := Text.exists_dropWhile_isDigit s
  have hscale : ∃ cs, IsScale cs ∧ s.dropWhile Char.isDigit = cs ++ rest := by
    unfold Json.Syntax.longInteger at h
    dsimp only at h
    split at h
    next heq =>
      rw [heq]
      exact exists_of_fractionPart h
    next mark more _ heq =>
      rw [heq]
      split at h
      next hmark =>
        obtain ⟨cs, hcs, hrest⟩ := exists_of_exponentPart hmark h
        exact ⟨cs, hcs.isScale, hrest⟩
      next => exact ⟨[], isScale_nil, finish_eq_ok h⟩
    next heq =>
      rw [heq]
      exact ⟨[], isScale_nil, finish_eq_ok h⟩
  obtain ⟨cs, hcs, hrest⟩ := hscale
  rw [hrest, ← List.append_assoc] at hs
  exact ⟨ds, cs, hds, hcs, hs⟩

theorem exists_of_afterInteger
    (h : Json.Syntax.afterInteger negative value s = .ok (j, rest)) :
    ∃ ds cs, IsDigits ds ∧ IsScale cs ∧ s = ds ++ cs ++ rest
      ∧ ((∀ c ∈ s.head?, c.isDigit = false) → ds = []) := by
  cases s with
  | nil =>
    cases h
    exact ⟨[], [], isDigits_nil, isScale_nil, rfl, fun _ => rfl⟩
  | cons c s =>
    rw [Json.Syntax.afterInteger] at h
    split at h
    next hpoint =>
      subst hpoint
      obtain ⟨cs, hcs, hrest⟩ := exists_of_fractionPart h
      exact ⟨[], cs, isDigits_nil, hcs, hrest, fun _ => rfl⟩
    next =>
      split at h
      next hmark =>
        obtain ⟨cs, hcs, hrest⟩ := exists_of_exponentPart hmark h
        exact ⟨[], cs, isDigits_nil, hcs.isScale, hrest, fun _ => rfl⟩
      next =>
        split at h
        next hdigit =>
          obtain ⟨ds, cs, hds, hcs, hs⟩ := exists_of_longInteger h
          refine ⟨ds, cs, hds, hcs, hs, ?_⟩
          intro hhead
          have hc := hhead c rfl
          rw [hdigit] at hc
          contradiction
        next =>
          cases h
          exact ⟨[], [], isDigits_nil, isScale_nil, rfl, fun _ => rfl⟩

theorem exists_of_number (h : Json.Syntax.number negative s = .ok (j, rest)) :
    ∃ whole cs, IsWhole whole ∧ IsScale cs ∧ s = whole ++ cs ++ rest := by
  obtain ⟨tail, rfl, hhead, hafter⟩
    | ⟨c, more, value, taken, tail, rfl, hzero, hdigit, hdigits, hafter⟩ :=
    Json.Syntax.exists_of_number_eq_ok h
  · obtain ⟨ds, cs, -, hcs, hrest, hnil⟩ := exists_of_afterInteger hafter
    rw [hnil hhead] at hrest
    exact ⟨['0'], cs, .zero, hcs, by rw [hrest]; rfl⟩
  · obtain ⟨ds, rfl, hds, -⟩ := Json.Syntax.exists_of_digits hdigits
    obtain ⟨es, cs, hes, hcs, rfl, -⟩ := exists_of_afterInteger hafter
    have hmore : IsDigits (ds ++ es) := List.forall_mem_append.mpr ⟨hds, hes⟩
    exact ⟨c :: (ds ++ es), cs, .digits hzero hdigit hmore, hcs, by simp⟩

end

theorem isNumber_of_numeral? {cs : List Char} {j : Json}
    (h : Json.Syntax.numeral? cs = some j) : IsNumber cs := by
  unfold Json.Syntax.numeral? at h
  split at h
  next cs =>
    rw [Json.Syntax.whole?_eq_some_iff] at h
    obtain ⟨whole, scale, hwhole, hscale, rfl⟩ := exists_of_number h
    rw [List.append_nil]
    exact .mk (.inr rfl) hwhole hscale
  next =>
    rw [Json.Syntax.whole?_eq_some_iff] at h
    obtain ⟨whole, scale, hwhole, hscale, rfl⟩ := exists_of_number h
    rw [List.append_nil]
    exact .mk (.inl rfl) hwhole hscale

/-! ### Strings that are read -/

theorem isStringBody_of_stringText {text s : List Char} (h : Json.StringText text s) :
    IsStringBody text := by
  induction h with
  | nil => exact .nil
  | plain hquote hescape hcontrol _ ih => exact .plain hquote hescape hcontrol ih
  | escaped hcode _ ih =>
    cases hcode with
    | short hmem =>
      refine .escaped ?_ ih
      have hcode := List.mem_map_of_mem (f := Prod.fst) hmem
      simpa [Json.shortEscapes] using hcode
    | unit hlength hvalue _ =>
      exact .unit hlength (TextPosition.isSome_of_mem_nat? hvalue) ih
    | pair hlength hvalue hlengthLow hvalueLow _ _ =>
      have hlow := IsStringBody.unit hlengthLow (TextPosition.isSome_of_mem_nat? hvalueLow) ih
      have hpair := IsStringBody.unit hlength (TextPosition.isSome_of_mem_nat? hvalue) hlow
      simpa using hpair

/-! ### Texts that are read -/

theorem derives_member {lead name before after cs : List Char} (hlead : IsBlank lead)
    (hname : IsStringBody name) (hbefore : IsBlank before) (hafter : IsBlank after)
    (hcs : Derives .value cs) (last : List Char) (hlast : IsBlank last) :
    Derives .member
      (lead ++ '"' :: name ++ '"' :: before ++ ':' :: after ++ cs ++ last) := by
  have hmember := Derives.member hlead hname hbefore (.element hafter hcs hlast)
  simpa using hmember

mutual

theorem derives_of_spells {t : JsonTree} {ps : List TemplatePart} (h : t.Spells ps) :
    Derives .value (probe ps) := by
  cases t with
  | null =>
    rw [h, probe, JsonTree.text_plain]
    exact .null
  | bool b =>
    cases b with
    | false =>
      rw [h, probe, JsonTree.text_plain]
      exact .no
    | true =>
      rw [h, probe, JsonTree.text_plain]
      exact .yes
  | number literal =>
    obtain ⟨hliteral, rfl⟩ := h
    obtain ⟨j, hj⟩ := Option.isSome_iff_exists.mp hliteral
    rw [probe, JsonTree.text_plain]
    exact .number (isNumber_of_numeral? hj)
  | string s =>
    obtain ⟨text, htext, rfl⟩ := h
    rw [probe, JsonTree.text_plain]
    exact .string (isStringBody_of_stringText htext)
  | place digits =>
    rw [h]
    exact .null
  | array items =>
    obtain ⟨body, hbody, rfl⟩ := h
    cases items with
    | nil =>
      obtain ⟨lead, hlead, rfl⟩ := hbody
      rw [probe, JsonTree.text_char, JsonTree.text_plain]
      exact .emptyArray hlead
    | cons item items =>
      obtain ⟨lead, text, more, hlead, hitem, hmore, rfl⟩ := hbody
      have hopen : ∀ after, IsBlank after → Derives .element (lead ++ probe text ++ after) :=
        fun after hafter => .element hlead (derives_of_spells hitem) hafter
      obtain ⟨cs, hcs, heq⟩ := derives_of_spellsItems hopen hmore
      have harray := Derives.array hcs
      rw [List.cons_append, ← heq] at harray
      simpa [probe] using harray
  | object fields =>
    obtain ⟨body, hbody, rfl⟩ := h
    cases fields with
    | nil =>
      obtain ⟨lead, hlead, rfl⟩ := hbody
      rw [probe, JsonTree.text_char, JsonTree.text_plain]
      exact .emptyObject hlead
    | cons field fields =>
      obtain ⟨name, value⟩ := field
      obtain ⟨lead, nameText, before, after, text, more, hlead, hname, hbefore, hafter, hvalue,
        hmore, rfl⟩ := hbody
      have hopen := derives_member hlead (isStringBody_of_stringText hname) hbefore hafter
        (derives_of_spells hvalue)
      obtain ⟨cs, hcs, heq⟩ := derives_of_spellsFields hopen hmore
      have hobject := Derives.object hcs
      rw [List.cons_append, ← heq] at hobject
      simpa [probe] using hobject

theorem derives_of_spellsItems {front : List Char} {items : List JsonTree} {ps : List TemplatePart}
    (hopen : ∀ after, IsBlank after → Derives .element (front ++ after))
    (h : SpellsItems false items ps) :
    ∃ cs, Derives .elements cs ∧ front ++ probe ps = cs ++ [']'] := by
  cases items with
  | nil =>
    obtain ⟨lead, hlead, rfl⟩ := h
    rw [probe, JsonTree.text_plain, ← List.append_assoc]
    exact ⟨_, .lastElement (hopen lead hlead), rfl⟩
  | cons item items =>
    obtain ⟨lead, text, more, ⟨before, after, hbefore, hafter, rfl⟩, hitem, hmore, rfl⟩ := h
    have hnext : ∀ last, IsBlank last → Derives .element (after ++ probe text ++ last) :=
      fun last hlast => .element hafter (derives_of_spells hitem) hlast
    obtain ⟨cs, hcs, heq⟩ := derives_of_spellsItems hnext hmore
    refine ⟨_, .elements (hopen before hbefore) hcs, ?_⟩
    rw [List.append_assoc (front ++ before), List.cons_append, ← heq]
    simp [probe]

theorem derives_of_spellsFields {front : List Char} {fields : List (String × JsonTree)}
    {ps : List TemplatePart} (hopen : ∀ after, IsBlank after → Derives .member (front ++ after))
    (h : SpellsFields false fields ps) :
    ∃ cs, Derives .members cs ∧ front ++ probe ps = cs ++ ['\x7d'] := by
  cases fields with
  | nil =>
    obtain ⟨lead, hlead, rfl⟩ := h
    rw [probe, JsonTree.text_plain, ← List.append_assoc]
    exact ⟨_, .lastMember (hopen lead hlead), rfl⟩
  | cons field fields =>
    obtain ⟨name, value⟩ := field
    obtain ⟨lead, nameText, before, after, text, more, ⟨last, lead, hlast, hlead, rfl⟩, hname,
      hbefore, hafter, hvalue, hmore, rfl⟩ := h
    have hnext := derives_member hlead (isStringBody_of_stringText hname) hbefore hafter
      (derives_of_spells hvalue)
    obtain ⟨cs, hcs, heq⟩ := derives_of_spellsFields hnext hmore
    refine ⟨_, .members (hopen last hlast) hcs, ?_⟩
    rw [List.append_assoc (front ++ last), List.cons_append, ← heq]
    simp [probe]

end

theorem placesOutside_plain (p : TextPosition) (cs : List Char) :
    p.placesOutside (plain cs) = true := by
  induction cs generalizing p with
  | nil => rfl
  | cons c cs ih => exact ih (p.next c)

/--
Every text that is read is derived by the grammar, whatever nesting is allowed.
-/
theorem isJsonText_of_document {depth : Nat} {cs : List Char} {j : Json}
    (h : Json.Syntax.document depth cs = .ok j) : IsJsonText cs := by
  have hprobe : probe (plain cs) = cs := JsonTree.text_plain _ cs
  rw [← hprobe] at h
  obtain ⟨t, before, text, after, hbefore, hafter, htext, heq⟩ :=
    JsonTree.exists_isSyntaxOf (placesOutside_plain _ cs) h
  rw [← hprobe, heq]
  have helement := Derives.element hbefore (derives_of_spells htext) hafter
  simpa [probe, IsJsonText] using helement

theorem isJsonText_of_parseWithin {depth : Nat} {s : String} {j : Json}
    (h : Json.parseWithin depth s = .ok j) : IsJsonText s.toList := by
  unfold Json.parseWithin at h
  split at h
  next hdocument => exact isJsonText_of_document hdocument
  next => contradiction

end JsonText
end DerivedQuery
