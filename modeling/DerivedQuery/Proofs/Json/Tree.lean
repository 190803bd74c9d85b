import DerivedQuery.Proofs.Json.Numeral
import DerivedQuery.Proofs.Json.StringText
import DerivedQuery.Query.Template

/-!
This module contains the syntax trees of JSON texts with places, and that the text of a tree with
texts in its places is read as the tree with the trees of those texts in its places.
-/

namespace DerivedQuery

/--
The syntax tree of a JSON text with places. A number is kept as it is spelled.
-/
inductive JsonTree where
  | null
  | bool (b : Bool)
  | number (literal : List Char)
  | string (s : String)
  | array (items : List JsonTree)
  | object (fields : List (String × JsonTree))
  | place (digits : List Char)

namespace JsonTree

open Json.Syntax (Stops)

mutual

/--
The JSON value of a tree. A place holds `null`.
-/
def toJson : JsonTree → Json
  | .null => .null
  | .bool b => .bool b
  | .number literal => (Json.Syntax.numeral? literal).getD .null
  | .string s => .string s
  | .array items => .array (toJsonItems items)
  | .object fields => .ofFields (toJsonFields fields)
  | .place _ => .null

def toJsonItems : List JsonTree → List Json
  | [] => []
  | item :: items => toJson item :: toJsonItems items

def toJsonFields : List (String × JsonTree) → List (String × Json)
  | [] => []
  | (name, value) :: fields => (name, toJson value) :: toJsonFields fields

end

mutual

def depth : JsonTree → Nat
  | .array items => depthItems items + 1
  | .object fields => depthFields fields + 1
  | _ => 0

def depthItems : List JsonTree → Nat
  | [] => 0
  | item :: items => max (depth item) (depthItems items)

def depthFields : List (String × JsonTree) → Nat
  | [] => 0
  | (_, value) :: fields => max (depth value) (depthFields fields)

end

mutual

def fill (f : List Char → JsonTree) : JsonTree → JsonTree
  | .array items => .array (fillItems f items)
  | .object fields => .object (fillFields f fields)
  | .place digits => f digits
  | t => t

def fillItems (f : List Char → JsonTree) : List JsonTree → List JsonTree
  | [] => []
  | item :: items => fill f item :: fillItems f items

def fillFields (f : List Char → JsonTree) : List (String × JsonTree) → List (String × JsonTree)
  | [] => []
  | (name, value) :: fields => (name, fill f value) :: fillFields f fields

end

/-! ### Texts of trees -/

def plain (cs : List Char) : List TemplatePart :=
  cs.map .char

def IsBlank (cs : List Char) : Prop :=
  ∀ c ∈ cs, Json.Syntax.isBlank c = true

/--
What stands in front of an item: blanks, and a comma if it is not the first one.
-/
def IsLead (first : Bool) (cs : List Char) : Prop :=
  if first then IsBlank cs
  else ∃ before after, IsBlank before ∧ IsBlank after ∧ cs = before ++ ',' :: after

mutual

def Spells : JsonTree → List TemplatePart → Prop
  | .null, ps => ps = plain ['n', 'u', 'l', 'l']
  | .bool true, ps => ps = plain ['t', 'r', 'u', 'e']
  | .bool false, ps => ps = plain ['f', 'a', 'l', 's', 'e']
  | .number literal, ps => (Json.Syntax.numeral? literal).isSome = true ∧ ps = plain literal
  | .string s, ps => ∃ text, Json.StringText text s.toList ∧ ps = plain ('"' :: text ++ ['"'])
  | .array items, ps => ∃ body, SpellsItems true items body ∧ ps = .char '[' :: body
  | .object fields, ps => ∃ body, SpellsFields true fields body ∧ ps = .char '\x7b' :: body
  | .place digits, ps => ps = [.place digits]

def SpellsItems (first : Bool) : List JsonTree → List TemplatePart → Prop
  | [], ps => ∃ lead, IsBlank lead ∧ ps = plain (lead ++ [']'])
  | item :: items, ps =>
    ∃ lead text more, IsLead first lead ∧ Spells item text ∧ SpellsItems false items more
      ∧ ps = plain lead ++ text ++ more

def SpellsFields (first : Bool) : List (String × JsonTree) → List TemplatePart → Prop
  | [], ps => ∃ lead, IsBlank lead ∧ ps = plain (lead ++ ['\x7d'])
  | (name, value) :: fields, ps =>
    ∃ lead nameText before after text more, IsLead first lead
      ∧ Json.StringText nameText name.toList ∧ IsBlank before ∧ IsBlank after
      ∧ Spells value text ∧ SpellsFields false fields more
      ∧ ps = plain (lead ++ '"' :: nameText ++ '"' :: before ++ ':' :: after) ++ text ++ more

end

def IsSyntaxOf (t : JsonTree) (ps : List TemplatePart) : Prop :=
  ∃ before text after, IsBlank before ∧ IsBlank after ∧ t.Spells text
    ∧ ps = plain before ++ text ++ plain after

/-! ### Texts with filled places -/

def text (g : List Char → List Char) (ps : List TemplatePart) : List Char :=
  ps.flatMap fun
    | .char c => [c]
    | .place digits => g digits

section
variable (g : List Char → List Char)

@[simp]
theorem text_nil : text g [] = [] := rfl

@[simp]
theorem text_char (c : Char) (ps : List TemplatePart) :
    text g (.char c :: ps) = c :: text g ps := rfl

@[simp]
theorem text_place (digits : List Char) (ps : List TemplatePart) :
    text g (.place digits :: ps) = g digits ++ text g ps := rfl

@[simp]
theorem text_append (ps qs : List TemplatePart) : text g (ps ++ qs) = text g ps ++ text g qs := by
  unfold text
  rw [List.flatMap_append]

@[simp]
theorem text_plain (cs : List Char) : text g (plain cs) = cs := by
  induction cs with
  | nil => rfl
  | cons c cs ih => rw [plain, List.map_cons, text_char, ← plain, ih]

end

/-! ### Reading single tokens -/

theorem isBlank_nil : IsBlank [] := by
  intro c hc
  contradiction

theorem skipBlanks_append {lead : List Char} (h : IsBlank lead) (s : List Char) :
    Json.Syntax.skipBlanks (lead ++ s) = Json.Syntax.skipBlanks s := by
  unfold Json.Syntax.skipBlanks
  exact List.dropWhile_append_of_pos h

theorem skipBlanks_cons {c : Char} (h : Json.Syntax.isBlank c = false) (s : List Char) :
    Json.Syntax.skipBlanks (c :: s) = c :: s := by
  unfold Json.Syntax.skipBlanks
  rw [List.dropWhile_cons_of_neg]
  simp [h]

theorem value_append {lead : List Char} (hlead : IsBlank lead) {d : Nat} {s : List Char}
    {r : Json × List Char} (h : Json.Syntax.value d s = .ok r) :
    Json.Syntax.value d (lead ++ s) = .ok r := by
  cases d with
  | zero => contradiction
  | succ d =>
    rw [Json.Syntax.value] at h ⊢
    rw [skipBlanks_append hlead]
    exact h

theorem stops_append {lead : List Char} (h : IsBlank lead) {s : List Char} (hs : Stops s) :
    Stops (lead ++ s) := by
  cases lead with
  | nil => exact hs
  | cons c lead =>
    have hc := h c List.mem_cons_self
    rw [List.cons_append, Json.Syntax.stops_cons_iff]
    unfold Json.Syntax.isBlank at hc
    simp only [Bool.or_eq_true, beq_iff_eq] at hc
    obtain ((rfl | rfl) | rfl) | rfl := hc <;> decide

theorem value_of_isDigit {c : Char} (h : c.isDigit = true) (d : Nat) (s : List Char) :
    Json.Syntax.value (d + 1) (c :: s) = Json.Syntax.number false (c :: s) := by
  have hne : ∀ c' : Char, c'.isDigit = false → c ≠ c' := by
    rintro c' hc' rfl
    rw [h] at hc'
    contradiction
  have hblank : Json.Syntax.isBlank c = false := by
    unfold Json.Syntax.isBlank
    simp [hne ' ' rfl, hne '\n' rfl, hne '\t' rfl, hne '\r' rfl]
  rw [Json.Syntax.value, skipBlanks_cons hblank]
  dsimp only
  rw [if_neg (hne 'n' rfl), if_neg (hne 't' rfl), if_neg (hne 'f' rfl), if_neg (hne '-' rfl),
    if_pos h]

theorem value_numeral {literal : List Char} {j : Json}
    (h : Json.Syntax.numeral? literal = some j) (d : Nat) {rest : List Char} (hrest : Stops rest) :
    Json.Syntax.value (d + 1) (literal ++ rest) = .ok (j, rest) := by
  unfold Json.Syntax.numeral? at h
  split at h
  next cs =>
    rw [Json.Syntax.whole?_eq_some_iff] at h
    exact Json.Syntax.number_append h hrest
  next =>
    rw [Json.Syntax.whole?_eq_some_iff] at h
    cases literal with
    | nil => contradiction
    | cons c cs =>
      cases hc : c.isDigit with
      | false =>
        have hzero : c ≠ '0' := by
          rintro rfl
          contradiction
        simp [Json.Syntax.number, hzero, hc, Json.Syntax.failAfter] at h
      | true =>
        rw [List.cons_append, value_of_isDigit hc, ← List.cons_append]
        exact Json.Syntax.number_append h hrest

theorem string_text {text : List Char} {s : String} (h : Json.StringText text s.toList)
    (rest : List Char) : Json.Syntax.string (text ++ '"' :: rest) = .ok (s, rest) :=
  Json.Syntax.string_eq_ok_iff.mpr ⟨text, h, rfl⟩

theorem value_quote {text : List Char} {s : String} (h : Json.StringText text s.toList) (d : Nat)
    (rest : List Char) :
    Json.Syntax.value (d + 1) ('"' :: (text ++ '"' :: rest)) = .ok (.string s, rest) := by
  have hread := string_text h rest
  rw [Json.Syntax.value, skipBlanks_cons (by decide)]
  simp [hread, bind, Except.bind, pure, Except.pure]

/-! ### Reading items and fields -/

theorem stops_of_lead {lead : List Char} (h : IsLead false lead) (s : List Char) :
    Stops (lead ++ s) := by
  obtain ⟨before, after, hbefore, -, rfl⟩ := h
  rw [List.append_assoc]
  apply stops_append hbefore
  rw [List.cons_append, Json.Syntax.stops_cons_iff]
  decide

theorem stops_items {items : List JsonTree} {ps : List TemplatePart}
    (h : SpellsItems false items ps) (g : List Char → List Char) (rest : List Char) :
    Stops (text g ps ++ rest) := by
  cases items with
  | nil =>
    obtain ⟨lead, hlead, rfl⟩ := h
    rw [text_plain, List.append_assoc]
    apply stops_append hlead
    rw [List.singleton_append, Json.Syntax.stops_cons_iff]
    decide
  | cons item items =>
    obtain ⟨lead, _, _, hlead, -, -, rfl⟩ := h
    simp only [text_append, text_plain, List.append_assoc]
    exact stops_of_lead hlead _

theorem stops_fields {fields : List (String × JsonTree)} {ps : List TemplatePart}
    (h : SpellsFields false fields ps) (g : List Char → List Char) (rest : List Char) :
    Stops (text g ps ++ rest) := by
  cases fields with
  | nil =>
    obtain ⟨lead, hlead, rfl⟩ := h
    rw [text_plain, List.append_assoc]
    apply stops_append hlead
    rw [List.singleton_append, Json.Syntax.stops_cons_iff]
    decide
  | cons field fields =>
    obtain ⟨lead, _, _, _, _, _, hlead, -, -, -, -, -, rfl⟩ := h
    simp only [text_append, text_plain, List.append_assoc]
    exact stops_of_lead hlead _

theorem length_lead {first : Bool} {lead : List Char} (h : IsLead first lead) :
    1 ≤ lead.length + first.toNat := by
  cases first with
  | true => simp
  | false =>
    obtain ⟨before, after, -, -, rfl⟩ := h
    simp only [List.length_append, List.length_cons]
    omega

theorem length_items {first : Bool} {items : List JsonTree} {ps : List TemplatePart}
    (h : SpellsItems first items ps) (g : List Char → List Char) :
    items.length < (text g ps).length + first.toNat := by
  induction items generalizing first ps with
  | nil =>
    obtain ⟨lead, -, rfl⟩ := h
    simp only [text_plain, List.length_append, List.length_cons, List.length_nil]
    omega
  | cons item items ih =>
    obtain ⟨lead, _, more, hlead, -, hmore, rfl⟩ := h
    have hlength := ih hmore
    have hcomma := length_lead hlead
    simp only [text_append, text_plain, List.length_append, List.length_cons, Bool.toNat_false]
      at hlength ⊢
    omega

theorem length_fields {first : Bool} {fields : List (String × JsonTree)} {ps : List TemplatePart}
    (h : SpellsFields first fields ps) (g : List Char → List Char) :
    fields.length < (text g ps).length + first.toNat := by
  induction fields generalizing first ps with
  | nil =>
    obtain ⟨lead, -, rfl⟩ := h
    simp only [text_plain, List.length_append, List.length_cons, List.length_nil]
    omega
  | cons field fields ih =>
    obtain ⟨lead, _, _, _, _, more, hlead, -, -, -, -, hmore, rfl⟩ := h
    have hlength := ih hmore
    have hcomma := length_lead hlead
    simp only [text_append, text_plain, List.length_append, List.length_cons, Bool.toNat_false]
      at hlength ⊢
    omega

theorem exists_skipBlanks_of_value {d : Nat} {s : List Char} {r : Json × List Char}
    (h : Json.Syntax.value d s = .ok r) :
    ∃ c s', Json.Syntax.skipBlanks s = c :: s' ∧ c ≠ ']'
      ∧ Json.Syntax.value d (c :: s') = .ok r := by
  cases d with
  | zero => contradiction
  | succ d =>
    cases hs : Json.Syntax.skipBlanks s with
    | nil =>
      rw [Json.Syntax.value, hs] at h
      contradiction
    | cons c s' =>
      have hblank : Json.Syntax.isBlank c = false := by
        have hhead := List.head?_dropWhile_not Json.Syntax.isBlank s
        rw [Json.Syntax.skipBlanks] at hs
        rw [hs] at hhead
        simpa using hhead
      have hvalue : Json.Syntax.value (d + 1) (c :: s') = .ok r := by
        rw [← h, Json.Syntax.value, Json.Syntax.value, skipBlanks_cons hblank, hs]
      refine ⟨c, s', rfl, ?_, hvalue⟩
      rintro rfl
      contradiction

theorem items_end {lead : List Char} (h : IsBlank lead) (item : Json.Syntax.Reader Json)
    (fuel : Nat) (first : Bool) (rest : List Char) :
    Json.Syntax.items item (fuel + 1) first (lead ++ ']' :: rest) = .ok ([], rest) := by
  rw [Json.Syntax.items, skipBlanks_append h, skipBlanks_cons (by decide)]
  rfl

theorem fields_end {lead : List Char} (h : IsBlank lead) (item : Json.Syntax.Reader Json)
    (fuel : Nat) (first : Bool) (rest : List Char) :
    Json.Syntax.fields item (fuel + 1) first (lead ++ '\x7d' :: rest) = .ok ([], rest) := by
  rw [Json.Syntax.fields, skipBlanks_append h, skipBlanks_cons (by decide)]
  rfl

theorem items_cons {d fuel : Nat} {first : Bool} {lead s rest : List Char} {j : Json}
    (hlead : IsLead first lead) (hread : Json.Syntax.value d s = .ok (j, rest)) :
    Json.Syntax.items (Json.Syntax.value d) (fuel + 1) first (lead ++ s)
      =
    (Json.Syntax.items (Json.Syntax.value d) fuel false rest >>= fun r => .ok (j :: r.1, r.2)) := by
  obtain ⟨c, s', hs, hc, hvalue⟩ := exists_skipBlanks_of_value hread
  have hmore : Json.Syntax.itemThen (Json.Syntax.value d)
        (Json.Syntax.items (Json.Syntax.value d) fuel false) (c :: s')
      = (Json.Syntax.items (Json.Syntax.value d) fuel false rest
          >>= fun r => .ok (j :: r.1, r.2)) := by
    rw [Json.Syntax.itemThen, hvalue]
    rfl
  rw [Json.Syntax.items]
  cases first with
  | true =>
    rw [skipBlanks_append hlead, hs]
    simp [hc, hmore]
  | false =>
    obtain ⟨before, after, hbefore, hafter, rfl⟩ := hlead
    rw [List.append_assoc, skipBlanks_append hbefore, List.cons_append,
      skipBlanks_cons (by decide)]
    dsimp only
    rw [skipBlanks_append hafter, hs]
    simp [hc, hmore]

theorem fields_cons {d fuel : Nat} {first : Bool} {lead nameText before s rest : List Char}
    {name : String} {j : Json} (hlead : IsLead first lead)
    (hname : Json.StringText nameText name.toList) (hbefore : IsBlank before)
    (hread : Json.Syntax.value d s = .ok (j, rest)) :
    Json.Syntax.fields (Json.Syntax.value d) (fuel + 1) first
        (lead ++ '"' :: (nameText ++ '"' :: (before ++ ':' :: s)))
      =
    (Json.Syntax.fields (Json.Syntax.value d) fuel false rest
      >>= fun r => .ok ((name, j) :: r.1, r.2)) := by
  have hmore : Json.Syntax.fieldThen (Json.Syntax.value d)
        (Json.Syntax.fields (Json.Syntax.value d) fuel false)
        (nameText ++ '"' :: (before ++ ':' :: s))
      = (Json.Syntax.fields (Json.Syntax.value d) fuel false rest
          >>= fun r => .ok ((name, j) :: r.1, r.2)) := by
    have hstring := string_text hname (before ++ ':' :: s)
    rw [Json.Syntax.fieldThen, hstring]
    simp only [bind, Except.bind]
    rw [skipBlanks_append hbefore, skipBlanks_cons (by decide)]
    simp only [↓reduceIte, hread]
    rfl
  rw [Json.Syntax.fields]
  cases first with
  | true =>
    rw [skipBlanks_append hlead, skipBlanks_cons (by decide)]
    simp [hmore]
  | false =>
    obtain ⟨front, back, hfront, hback, rfl⟩ := hlead
    rw [List.append_assoc, skipBlanks_append hfront, List.cons_append,
      skipBlanks_cons (by decide)]
    dsimp only
    rw [skipBlanks_append hback, skipBlanks_cons (by decide)]
    simp [hmore]

theorem value_bracket {d : Nat} (hd : d ≠ 0) {s rest : List Char} {js : List Json}
    (h : Json.Syntax.items (Json.Syntax.value d) (s.length + 1) true s = .ok (js, rest)) :
    Json.Syntax.value (d + 1) ('[' :: s) = .ok (.array js, rest) := by
  rw [Json.Syntax.value, skipBlanks_cons (by decide)]
  simp [hd, h, bind, Except.bind, pure, Except.pure]

theorem value_brace {d : Nat} (hd : d ≠ 0) {s rest : List Char} {entries : List (String × Json)}
    (h : Json.Syntax.fields (Json.Syntax.value d) (s.length + 1) true s = .ok (entries, rest)) :
    Json.Syntax.value (d + 1) ('\x7b' :: s) = .ok (.ofFields entries, rest) := by
  rw [Json.Syntax.value, skipBlanks_cons (by decide)]
  simp [hd, h, bind, Except.bind, pure, Except.pure]

/-! ### Reading filled texts -/

def Reads (f : List Char → JsonTree) (g : List Char → List Char) : Prop :=
  ∀ digits {d : Nat} {rest : List Char}, (f digits).depth < d → Stops rest →
    Json.Syntax.value d (g digits ++ rest) = .ok ((f digits).toJson, rest)

section
variable {f : List Char → JsonTree} {g : List Char → List Char}

mutual

theorem value_text (hreads : Reads f g) {t : JsonTree} {ps : List TemplatePart} (h : t.Spells ps)
    {d : Nat} (hdepth : (t.fill f).depth < d) {rest : List Char} (hrest : Stops rest) :
    Json.Syntax.value d (text g ps ++ rest) = .ok ((t.fill f).toJson, rest) := by
  cases d with
  | zero => contradiction
  | succ d =>
    cases t with
    | null =>
      rw [h, text_plain]
      rfl
    | bool b =>
      cases b with
      | false =>
        rw [h, text_plain]
        rfl
      | true =>
        rw [h, text_plain]
        rfl
    | number literal =>
      obtain ⟨hliteral, rfl⟩ := h
      obtain ⟨j, hj⟩ := Option.isSome_iff_exists.mp hliteral
      rw [text_plain, value_numeral hj d hrest, fill, toJson, hj]
      · rfl
      all_goals simp
    | string s =>
      obtain ⟨text, htext, rfl⟩ := h
      rw [text_plain, List.cons_append, List.cons_append, List.append_assoc]
      exact value_quote htext d rest
    | place digits =>
      rw [h, text_place, text_nil, List.append_nil]
      exact hreads digits hdepth hrest
    | array items =>
      obtain ⟨body, hbody, rfl⟩ := h
      rw [fill, depth] at hdepth
      rw [fill, toJson, text_char, List.cons_append]
      apply value_bracket (by omega)
      apply items_text hreads hbody (by omega)
      have hlength := length_items hbody g
      rw [Bool.toNat_true] at hlength
      rw [List.length_append]
      omega
    | object fields =>
      obtain ⟨body, hbody, rfl⟩ := h
      rw [fill, depth] at hdepth
      rw [fill, toJson, text_char, List.cons_append]
      apply value_brace (by omega)
      apply fields_text hreads hbody (by omega)
      have hlength := length_fields hbody g
      rw [Bool.toNat_true] at hlength
      rw [List.length_append]
      omega

theorem items_text (hreads : Reads f g) {first : Bool} {items : List JsonTree}
    {ps : List TemplatePart} (h : SpellsItems first items ps) {d fuel : Nat}
    (hdepth : depthItems (fillItems f items) < d) (hfuel : items.length < fuel)
    (rest : List Char) :
    Json.Syntax.items (Json.Syntax.value d) fuel first (text g ps ++ rest)
      =
    .ok (toJsonItems (fillItems f items), rest) := by
  cases fuel with
  | zero => contradiction
  | succ fuel =>
    cases items with
    | nil =>
      obtain ⟨lead, hlead, rfl⟩ := h
      rw [text_plain, List.append_assoc]
      exact items_end hlead _ fuel first rest
    | cons item items =>
      obtain ⟨lead, itemText, more, hlead, hitem, hmore, rfl⟩ := h
      rw [fillItems, depthItems] at hdepth
      have hread := value_text hreads hitem (by omega : (item.fill f).depth < d)
        (stops_items hmore g rest)
      rw [text_append, text_append, text_plain, List.append_assoc, List.append_assoc,
        items_cons hlead hread, items_text hreads hmore (by omega) (by simpa using hfuel) rest]
      rfl

theorem fields_text (hreads : Reads f g) {first : Bool} {fields : List (String × JsonTree)}
    {ps : List TemplatePart} (h : SpellsFields first fields ps) {d fuel : Nat}
    (hdepth : depthFields (fillFields f fields) < d) (hfuel : fields.length < fuel)
    (rest : List Char) :
    Json.Syntax.fields (Json.Syntax.value d) fuel first (text g ps ++ rest)
      =
    .ok (toJsonFields (fillFields f fields), rest) := by
  cases fuel with
  | zero => contradiction
  | succ fuel =>
    cases fields with
    | nil =>
      obtain ⟨lead, hlead, rfl⟩ := h
      rw [text_plain, List.append_assoc]
      exact fields_end hlead _ fuel first rest
    | cons field fields =>
      obtain ⟨name, value⟩ := field
      obtain ⟨lead, nameText, before, after, valueText, more, hlead, hname, hbefore, hafter, hvalue,
        hmore, rfl⟩ := h
      rw [fillFields, depthFields] at hdepth
      have hread := value_text hreads hvalue (by omega : (value.fill f).depth < d)
        (stops_fields hmore g rest)
      simp only [text_append, text_plain, List.append_assoc, List.cons_append]
      rw [fields_cons hlead hname hbefore (value_append hafter hread),
        fields_text hreads hmore (by omega) (by simpa using hfuel) rest]
      rfl

end

theorem document_text (hreads : Reads f g) {t : JsonTree} {ps : List TemplatePart}
    (h : t.IsSyntaxOf ps) {d : Nat} (hdepth : (t.fill f).depth < d) :
    Json.Syntax.document d (text g ps) = .ok (t.fill f).toJson := by
  obtain ⟨before, body, after, hbefore, hafter, hbody, rfl⟩ := h
  have hstops : Stops after := by
    rw [← List.append_nil after]
    exact stops_append hafter Json.Syntax.stops_nil
  have hread := value_append hbefore (value_text hreads hbody hdepth hstops)
  have hend : Json.Syntax.skipBlanks after = [] := by
    rw [← List.append_nil after, skipBlanks_append hafter]
    rfl
  rw [Json.Syntax.document, text_append, text_append, text_plain, text_plain, List.append_assoc,
    hread]
  simp [hend, bind, Except.bind]

end

/-! ### Texts without filled places -/

mutual

theorem fill_place (t : JsonTree) : t.fill .place = t := by
  cases t with
  | array items => rw [fill, fillItems_place]
  | object fields => rw [fill, fillFields_place]
  | null => rfl
  | bool b => rfl
  | number literal => rfl
  | string s => rfl
  | place digits => rfl

theorem fillItems_place (items : List JsonTree) : fillItems .place items = items := by
  cases items with
  | nil => rfl
  | cons item items => rw [fillItems, fill_place, fillItems_place]

theorem fillFields_place (fields : List (String × JsonTree)) :
    fillFields .place fields = fields := by
  cases fields with
  | nil => rfl
  | cons field fields => rw [fillFields, fill_place, fillFields_place]

end

def probe (ps : List TemplatePart) : List Char :=
  text (fun _ => ['n', 'u', 'l', 'l']) ps

theorem reads_probe : Reads .place fun _ => ['n', 'u', 'l', 'l'] := by
  intro digits d rest hdepth _
  cases d with
  | zero => contradiction
  | succ d => rfl

theorem value_plain {t : JsonTree} {cs : List Char} (h : t.Spells (plain cs)) {d : Nat}
    (hdepth : t.depth < d) {rest : List Char} (hrest : Stops rest) :
    Json.Syntax.value d (cs ++ rest) = .ok (t.toJson, rest) := by
  rw [← fill_place t] at hdepth
  have hread := value_text reads_probe h hdepth hrest
  rw [text_plain, fill_place] at hread
  exact hread

end JsonTree
end DerivedQuery
