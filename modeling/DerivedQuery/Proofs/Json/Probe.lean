import DerivedQuery.Proofs.Json.Tree
import DerivedQuery.Proofs.Traversal

/-!
This module contains that a text with places is the text of a syntax tree with places, if it is read
as JSON when every place holds `null` and no place lies in a string.
-/

namespace DerivedQuery

inductive TextPosition where
  | outside
  | inString
  | escaped
deriving DecidableEq, Repr

namespace TextPosition

def next : TextPosition → Char → TextPosition
  | .outside, c => if c = '"' then .inString else .outside
  | .inString, c => if c = '"' then .outside else if c = '\\' then .escaped else .inString
  | .escaped, _ => .inString

def placesOutside : TextPosition → List TemplatePart → Bool
  | _, [] => true
  | p, .char c :: ps => placesOutside (p.next c) ps
  | p, .place _ :: ps => p == .outside && placesOutside p ps

/--
The characters lead from one position to the other, and none of them can begin the text of a place.
-/
def Passes : TextPosition → List Char → TextPosition → Prop
  | p, [], q => p = q
  | p, c :: cs, q => (p = .outside → c ≠ 'n') ∧ Passes (p.next c) cs q

theorem Passes.append {p q r : TextPosition} {cs ds : List Char} (hcs : p.Passes cs q)
    (hds : q.Passes ds r) : p.Passes (cs ++ ds) r := by
  induction cs generalizing p with
  | nil =>
    rw [Passes] at hcs
    rw [hcs]
    exact hds
  | cons c cs ih => exact ⟨hcs.1, ih hcs.2⟩

theorem passes_of_forall {p : TextPosition} {cs : List Char}
    (h : ∀ c ∈ cs, p.next c = p ∧ (p = .outside → c ≠ 'n')) : p.Passes cs p := by
  induction cs with
  | nil => rfl
  | cons c cs ih =>
    obtain ⟨hnext, hc⟩ := h c List.mem_cons_self
    refine ⟨hc, ?_⟩
    rw [hnext]
    exact ih fun d hd => h d (List.mem_cons_of_mem c hd)

/-! ### Tokens -/

theorem passes_outside {cs : List Char} (h : ∀ c ∈ cs, c ≠ '"' ∧ c ≠ 'n') :
    outside.Passes cs outside := by
  apply passes_of_forall
  intro c hc
  exact ⟨if_neg (h c hc).1, fun _ => (h c hc).2⟩

theorem passes_numeral {cs : List Char} (h : ∀ c ∈ cs, Json.Syntax.isNumeral c = true) :
    outside.Passes cs outside := by
  apply passes_outside
  intro c hc
  have hc := h c hc
  constructor <;> rintro rfl <;> contradiction

theorem passes_blank {cs : List Char} (h : JsonTree.IsBlank cs) : outside.Passes cs outside := by
  apply passes_outside
  intro c hc
  have hc := h c hc
  constructor <;> rintro rfl <;> contradiction

theorem isSome_of_mem_nat? {digits : List Char} {n : Nat} (h : Hex.nat? digits = some n) :
    ∀ c ∈ digits, (Hex.value? c).isSome = true := by
  unfold Hex.nat? at h
  generalize 0 = start at h
  induction digits generalizing start with
  | nil => simp
  | cons d digits ih =>
    rw [List.foldlM_cons] at h
    cases hd : Hex.value? d with
    | none =>
      rw [hd] at h
      contradiction
    | some v =>
      rw [hd] at h
      intro c hc
      cases hc with
      | head => rw [hd]; rfl
      | tail _ hc => exact ih _ h c hc

theorem passes_hex {digits : List Char} {n : Nat} (h : Hex.nat? digits = some n) :
    inString.Passes digits inString := by
  apply passes_of_forall
  intro c hc
  have hc := isSome_of_mem_nat? h c hc
  refine ⟨?_, fun hp => nomatch hp⟩
  rw [next, if_neg, if_neg] <;> rintro rfl <;> contradiction

theorem passes_escapeCode {code : List Char} {c : Char} (h : Json.EscapeCode code c) :
    escaped.Passes code inString := by
  cases h with
  | short => exact ⟨fun hp => (nomatch hp), rfl⟩
  | unit _ hvalue _ => exact ⟨fun hp => (nomatch hp), passes_hex hvalue⟩
  | pair _ hhigh _ hlow _ _ =>
    refine ⟨fun hp => (nomatch hp), (passes_hex hhigh).append ?_⟩
    exact ⟨fun hp => (nomatch hp), fun hp => (nomatch hp), passes_hex hlow⟩

theorem passes_stringText {text s : List Char} (h : Json.StringText text s) :
    inString.Passes text inString := by
  induction h with
  | nil => rfl
  | plain hquote hescape _ _ ih =>
    refine ⟨fun hp => (nomatch hp), ?_⟩
    rw [next, if_neg hquote, if_neg hescape]
    exact ih
  | escaped hcode _ ih => exact ⟨fun hp => (nomatch hp), (passes_escapeCode hcode).append ih⟩

end TextPosition

namespace JsonTree

open TextPosition (placesOutside)

theorem exists_of_probe_cons {p : TextPosition} {ps : List TemplatePart} {c : Char} {s : List Char}
    (hplaces : p.placesOutside ps = true) (h : probe ps = c :: s) :
    (∃ ps', ps = .char c :: ps' ∧ s = probe ps' ∧ (p.next c).placesOutside ps' = true)
      ∨
    ∃ digits ps', ps = .place digits :: ps' ∧ c = 'n' ∧ s = 'u' :: 'l' :: 'l' :: probe ps'
      ∧ p = .outside ∧ p.placesOutside ps' = true := by
  cases ps with
  | nil => contradiction
  | cons part ps =>
    cases part with
    | char c =>
      cases h
      exact .inl ⟨ps, rfl, rfl, hplaces⟩
    | place digits =>
      rw [placesOutside, Bool.and_eq_true, beq_iff_eq] at hplaces
      cases h
      exact .inr ⟨digits, ps, rfl, rfl, rfl, hplaces⟩

theorem exists_of_probe_append {p q : TextPosition} {ps : List TemplatePart} {cs rest : List Char}
    (hplaces : p.placesOutside ps = true) (h : probe ps = cs ++ rest) (hpasses : p.Passes cs q) :
    ∃ ps', ps = plain cs ++ ps' ∧ rest = probe ps' ∧ q.placesOutside ps' = true := by
  induction cs generalizing p ps with
  | nil =>
    rw [TextPosition.Passes] at hpasses
    rw [hpasses] at hplaces
    exact ⟨ps, rfl, h.symm, hplaces⟩
  | cons c cs ih =>
    obtain ⟨ps', rfl, hs, hplaces'⟩ | ⟨_, _, _, hc, _, hp, _⟩ := exists_of_probe_cons hplaces h
    · obtain ⟨ps'', rfl, hrest, hplaces''⟩ := ih hplaces' hs.symm hpasses.2
      exact ⟨ps'', rfl, hrest, hplaces''⟩
    · exact absurd hc (hpasses.1 hp)

theorem exists_lead_of_skipBlanks {s s' : List Char} (h : Json.Syntax.skipBlanks s = s') :
    ∃ lead, IsBlank lead ∧ s = lead ++ s' := by
  refine ⟨s.takeWhile Json.Syntax.isBlank, fun _ hc => List.mem_takeWhile_imp hc, ?_⟩
  rw [← h]
  exact List.takeWhile_append_dropWhile.symm

theorem exists_of_skipBlanks {ps : List TemplatePart}
    (hplaces : placesOutside .outside ps = true) :
    ∃ lead ps', IsBlank lead ∧ ps = plain lead ++ ps'
      ∧ probe ps' = Json.Syntax.skipBlanks (probe ps) ∧ placesOutside .outside ps' = true := by
  obtain ⟨lead, hlead, hsplit⟩ := exists_lead_of_skipBlanks (s := probe ps) rfl
  obtain ⟨ps', hps, hrest, hplaces'⟩ :=
    exists_of_probe_append hplaces hsplit (TextPosition.passes_blank hlead)
  exact ⟨lead, ps', hlead, hps, hrest.symm, hplaces'⟩

theorem word_eq_ok {value j : Json} {cs s rest : List Char}
    (h : Json.Syntax.word value cs s = .ok (j, rest)) : s = cs ++ rest := by
  induction cs generalizing s with
  | nil =>
    cases h
    rfl
  | cons c cs ih =>
    cases s with
    | nil => contradiction
    | cons d s =>
      rw [Json.Syntax.word] at h
      split at h
      next heq => rw [heq, ih h, List.cons_append]
      next => contradiction

theorem exists_of_probe_char {ps : List TemplatePart} {c : Char} {s : List Char}
    (hplaces : placesOutside .outside ps = true) (h : probe ps = c :: s) (hc : c ≠ '"' ∧ c ≠ 'n') :
    ∃ ps', ps = .char c :: ps' ∧ s = probe ps' ∧ placesOutside .outside ps' = true := by
  have hpasses : TextPosition.Passes .outside [c] .outside := by
    apply TextPosition.passes_outside
    intro d hd
    rw [List.mem_singleton.mp hd]
    exact hc
  exact exists_of_probe_append hplaces h hpasses

theorem exists_of_string {ps : List TemplatePart} {name : String} {rest : List Char}
    (hplaces : placesOutside .inString ps = true)
    (h : Json.Syntax.string (probe ps) = .ok (name, rest)) :
    ∃ text ps', Json.StringText text name.toList ∧ ps = plain (text ++ ['"']) ++ ps'
      ∧ rest = probe ps' ∧ placesOutside .outside ps' = true := by
  obtain ⟨text, htext, hsplit⟩ := Json.Syntax.string_eq_ok_iff.mp h
  have hpasses : TextPosition.Passes .inString (text ++ ['"']) .outside :=
    (TextPosition.passes_stringText htext).append ⟨fun hp => (nomatch hp), rfl⟩
  rw [List.append_cons] at hsplit
  obtain ⟨ps', hps, hrest, hplaces'⟩ := exists_of_probe_append hplaces hsplit hpasses
  exact ⟨text, ps', htext, hps, hrest, hplaces'⟩

/-! ### Behind an opening bracket -/

theorem lead_of_items_eq_ok {item : Json.Syntax.Reader Json} {fuel : Nat} {first : Bool}
    {s rest : List Char} {js : List Json}
    (h : Json.Syntax.items item (fuel + 1) first s = .ok (js, rest)) :
    (∃ lead, IsBlank lead ∧ s = lead ++ [']'] ++ rest)
      ∨
    ∃ lead s', IsLead first lead ∧ s = lead ++ s'
      ∧ Json.Syntax.itemThen item (Json.Syntax.items item fuel false) s' = .ok (js, rest) := by
  rw [Json.Syntax.items] at h
  split at h
  next => contradiction
  next c tail hskip =>
    obtain ⟨lead, hlead, rfl⟩ := exists_lead_of_skipBlanks hskip
    split at h
    next hend =>
      cases h
      exact .inl ⟨lead, hlead, by simp [hend]⟩
    refine .inr ?_
    cases first with
    | true => exact ⟨lead, c :: tail, hlead, rfl, h⟩
    | false =>
      rw [if_neg Bool.false_ne_true] at h
      split at h
      next hcomma =>
        split at h
        next => contradiction
        next d tail' hskip' =>
          obtain ⟨after, hafter, rfl⟩ := exists_lead_of_skipBlanks hskip'
          split at h
          next => contradiction
          next =>
            exact ⟨_, d :: tail', ⟨lead, after, hlead, hafter, rfl⟩, by simp [hcomma], h⟩
      next => contradiction

theorem lead_of_fields_eq_ok {item : Json.Syntax.Reader Json} {fuel : Nat} {first : Bool}
    {s rest : List Char} {entries : List (String × Json)}
    (h : Json.Syntax.fields item (fuel + 1) first s = .ok (entries, rest)) :
    (∃ lead, IsBlank lead ∧ s = lead ++ ['\x7d'] ++ rest)
      ∨
    ∃ lead s', IsLead first lead ∧ s = lead ++ ['"'] ++ s'
      ∧ Json.Syntax.fieldThen item (Json.Syntax.fields item fuel false) s'
        = .ok (entries, rest) := by
  rw [Json.Syntax.fields] at h
  split at h
  next => contradiction
  next c tail hskip =>
    obtain ⟨lead, hlead, rfl⟩ := exists_lead_of_skipBlanks hskip
    split at h
    next hend =>
      cases h
      exact .inl ⟨lead, hlead, by simp [hend]⟩
    refine .inr ?_
    cases first with
    | true =>
      rw [if_pos rfl] at h
      split at h
      next hquote => exact ⟨lead, tail, hlead, by simp [hquote], h⟩
      next => contradiction
    | false =>
      rw [if_neg Bool.false_ne_true] at h
      split at h
      next hcomma =>
        split at h
        next => contradiction
        next d tail' hskip' =>
          obtain ⟨after, hafter, rfl⟩ := exists_lead_of_skipBlanks hskip'
          split at h
          next hquote =>
            exact ⟨_, tail', ⟨lead, after, hlead, hafter, rfl⟩, by simp [hcomma, hquote], h⟩
          next => split at h <;> contradiction
      next => contradiction

theorem passes_end {lead : List Char} {mark : Char} (hlead : IsBlank lead)
    (hmark : mark ≠ '"' ∧ mark ≠ 'n') :
    TextPosition.Passes .outside (lead ++ [mark]) .outside := by
  refine (TextPosition.passes_blank hlead).append (TextPosition.passes_outside ?_)
  intro c hc
  rw [List.mem_singleton.mp hc]
  exact hmark

theorem passes_lead {first : Bool} {lead : List Char} (hlead : IsLead first lead) :
    TextPosition.Passes .outside lead .outside := by
  cases first with
  | true => exact TextPosition.passes_blank hlead
  | false =>
    obtain ⟨before, after, hbefore, hafter, rfl⟩ := hlead
    rw [List.append_cons]
    exact (passes_end hbefore (by decide)).append (TextPosition.passes_blank hafter)

theorem passes_quote {first : Bool} {lead : List Char} (hlead : IsLead first lead) :
    TextPosition.Passes .outside (lead ++ ['"']) .inString :=
  (passes_lead hlead).append ⟨fun _ => by decide, rfl⟩

/-! ### Values, items and fields -/

def Begins (ps : List TemplatePart) (rest : List Char) : Prop :=
  ∃ lead t body ps', IsBlank lead ∧ Spells t body ∧ ps = plain lead ++ body ++ ps'
    ∧ rest = probe ps' ∧ placesOutside .outside ps' = true

def BeginsItems (first : Bool) (ps : List TemplatePart) (rest : List Char) : Prop :=
  ∃ items body ps', SpellsItems first items body ∧ ps = body ++ ps'
    ∧ rest = probe ps' ∧ placesOutside .outside ps' = true

def BeginsFields (first : Bool) (ps : List TemplatePart) (rest : List Char) : Prop :=
  ∃ fields body ps', SpellsFields first fields body ∧ ps = body ++ ps'
    ∧ rest = probe ps' ∧ placesOutside .outside ps' = true

theorem IsBlank.append {cs ds : List Char} (hcs : IsBlank cs) (hds : IsBlank ds) :
    IsBlank (cs ++ ds) := by
  intro c hc
  obtain hc | hc := List.mem_append.mp hc
  · exact hcs c hc
  · exact hds c hc

theorem IsLead.append {first : Bool} {lead cs : List Char} (hlead : IsLead first lead)
    (hcs : IsBlank cs) : IsLead first (lead ++ cs) := by
  cases first with
  | true => exact IsBlank.append hlead hcs
  | false =>
    obtain ⟨before, after, hbefore, hafter, rfl⟩ := hlead
    exact ⟨before, after ++ cs, hbefore, hafter.append hcs, by simp⟩

theorem begins_of_spells {t : JsonTree} {cs : List Char} (ht : t.Spells (plain cs))
    (hpasses : TextPosition.Passes .outside cs .outside) {ps : List TemplatePart}
    (hplaces : placesOutside .outside ps = true) {rest : List Char} (h : probe ps = cs ++ rest) :
    Begins ps rest := by
  obtain ⟨ps', rfl, hrest, hplaces'⟩ := exists_of_probe_append hplaces h hpasses
  exact ⟨[], t, plain cs, ps', isBlank_nil, ht, rfl, hrest, hplaces'⟩

theorem begins_null {ps : List TemplatePart} {rest : List Char}
    (hplaces : placesOutside .outside ps = true) (h : probe ps = ['u', 'l', 'l'] ++ rest) :
    Begins (.char 'n' :: ps) rest := by
  obtain ⟨ps', rfl, hrest, hplaces'⟩ :=
    exists_of_probe_append hplaces h (TextPosition.passes_outside (by simp))
  exact ⟨[], .null, plain ['n', 'u', 'l', 'l'], ps', isBlank_nil, rfl, rfl, hrest, hplaces'⟩

theorem spells_bool (b : Bool) :
    Spells (.bool b) (plain (if b then ['t', 'r', 'u', 'e'] else ['f', 'a', 'l', 's', 'e'])) := by
  cases b <;> rfl

theorem begins_array {ps : List TemplatePart} {rest : List Char} (h : BeginsItems true ps rest) :
    Begins (.char '[' :: ps) rest := by
  obtain ⟨items, body, ps', hitems, rfl, hrest, hplaces⟩ := h
  exact ⟨[], .array items, .char '[' :: body, ps', isBlank_nil, ⟨body, hitems, rfl⟩, rfl, hrest,
    hplaces⟩

theorem begins_object {ps : List TemplatePart} {rest : List Char} (h : BeginsFields true ps rest) :
    Begins (.char '\x7b' :: ps) rest := by
  obtain ⟨fields, body, ps', hfields, rfl, hrest, hplaces⟩ := h
  exact ⟨[], .object fields, .char '\x7b' :: body, ps', isBlank_nil, ⟨body, hfields, rfl⟩, rfl,
    hrest, hplaces⟩

theorem begins_numeral {ps : List TemplatePart} {cs rest : List Char} {j : Json}
    (hplaces : placesOutside .outside ps = true) (h : probe ps = cs ++ rest)
    (hcs : ∀ c ∈ cs, Json.Syntax.isNumeral c = true)
    (hnumeral : Json.Syntax.numeral? cs = some j) : Begins ps rest := by
  have ht : Spells (.number cs) (plain cs) := ⟨by rw [hnumeral]; rfl, rfl⟩
  exact begins_of_spells ht (TextPosition.passes_numeral hcs) hplaces h

theorem begins_string {ps : List TemplatePart} {s : String} {rest : List Char}
    (hplaces : placesOutside .inString ps = true)
    (h : Json.Syntax.string (probe ps) = .ok (s, rest)) : Begins (.char '"' :: ps) rest := by
  obtain ⟨text, ps', htext, rfl, hrest, hplaces'⟩ := exists_of_string hplaces h
  exact ⟨[], .string s, plain ('"' :: text ++ ['"']), ps', isBlank_nil, ⟨text, htext, rfl⟩, rfl,
    hrest, hplaces'⟩

section
variable {d : Nat}
  (hvalue : ∀ {ps : List TemplatePart} {j : Json} {rest : List Char},
    placesOutside .outside ps = true → Json.Syntax.value d (probe ps) = .ok (j, rest) →
    Begins ps rest)
include hvalue

theorem begins_itemThen {others : Json.Syntax.Reader (List Json)} {rest : List Char}
    (hothers : ∀ {ps : List TemplatePart} {js : List Json},
      placesOutside .outside ps = true → others (probe ps) = .ok (js, rest) →
      BeginsItems false ps rest)
    {first : Bool} {lead : List Char} (hlead : IsLead first lead) {ps : List TemplatePart}
    (hplaces : placesOutside .outside ps = true) {js : List Json}
    (h : Json.Syntax.itemThen (Json.Syntax.value d) others (probe ps) = .ok (js, rest)) :
    BeginsItems first (plain lead ++ ps) rest := by
  rw [Json.Syntax.itemThen] at h
  simp only [bind_eq_ok_iff] at h
  obtain ⟨⟨j, tail⟩, hread, ⟨js', tail'⟩, hmore, heq⟩ := h
  cases heq
  obtain ⟨blanks, t, body, ps', hblanks, hbody, rfl, rfl, hplaces'⟩ := hvalue hplaces hread
  obtain ⟨items, more, ps'', hitems, rfl, hrest, hplaces''⟩ := hothers hplaces' hmore
  refine ⟨t :: items, plain (lead ++ blanks) ++ body ++ more, ps'', ?_, ?_, hrest, hplaces''⟩
  · exact ⟨_, _, _, hlead.append hblanks, hbody, hitems, rfl⟩
  · simp [plain]

theorem begins_fieldThen {others : Json.Syntax.Reader (List (String × Json))} {rest : List Char}
    (hothers : ∀ {ps : List TemplatePart} {entries : List (String × Json)},
      placesOutside .outside ps = true → others (probe ps) = .ok (entries, rest) →
      BeginsFields false ps rest)
    {first : Bool} {lead : List Char} (hlead : IsLead first lead) {ps : List TemplatePart}
    (hplaces : placesOutside .inString ps = true) {entries : List (String × Json)}
    (h : Json.Syntax.fieldThen (Json.Syntax.value d) others (probe ps) = .ok (entries, rest)) :
    BeginsFields first (plain (lead ++ ['"']) ++ ps) rest := by
  rw [Json.Syntax.fieldThen, bind_eq_ok_iff] at h
  obtain ⟨⟨name, tail⟩, hstring, h⟩ := h
  obtain ⟨nameText, ps, hname, rfl, rfl, hplaces⟩ := exists_of_string hplaces hstring
  obtain ⟨before, ps, hbefore, rfl, hskip, hplaces⟩ := exists_of_skipBlanks hplaces
  dsimp only at h
  rw [← hskip] at h
  split at h
  next => contradiction
  next c tail hprobe =>
    split at h
    next hcolon =>
      subst hcolon
      obtain ⟨ps, rfl, rfl, hplaces⟩ := exists_of_probe_char hplaces hprobe (by decide)
      simp only [bind_eq_ok_iff] at h
      obtain ⟨⟨j, tail⟩, hread, ⟨entries', tail'⟩, hmore, heq⟩ := h
      cases heq
      obtain ⟨after, t, body, ps', hafter, hbody, rfl, rfl, hplaces'⟩ := hvalue hplaces hread
      obtain ⟨fields, more, ps'', hfields, rfl, hrest, hplaces''⟩ := hothers hplaces' hmore
      refine ⟨(name, t) :: fields,
        plain (lead ++ '"' :: nameText ++ '"' :: before ++ ':' :: after) ++ body ++ more, ps'',
        ?_, ?_, hrest, hplaces''⟩
      · exact ⟨lead, nameText, before, after, body, more, hlead, hname, hbefore, hafter, hbody,
          hfields, rfl⟩
      · simp [plain]
    next => contradiction

theorem begins_items {fuel : Nat} {first : Bool} {ps : List TemplatePart} {js : List Json}
    {rest : List Char} (hplaces : placesOutside .outside ps = true)
    (h : Json.Syntax.items (Json.Syntax.value d) fuel first (probe ps) = .ok (js, rest)) :
    BeginsItems first ps rest := by
  induction fuel generalizing first ps js with
  | zero =>
    rw [Json.Syntax.items] at h
    contradiction
  | succ fuel ih =>
    obtain ⟨lead, hlead, hprobe⟩ | ⟨lead, s, hlead, hprobe, h⟩ := lead_of_items_eq_ok h
    · obtain ⟨ps', rfl, hrest, hplaces'⟩ :=
        exists_of_probe_append hplaces hprobe (passes_end hlead (by decide))
      exact ⟨[], plain (lead ++ [']']), ps', ⟨lead, hlead, rfl⟩, rfl, hrest, hplaces'⟩
    · obtain ⟨ps', rfl, rfl, hplaces'⟩ :=
        exists_of_probe_append hplaces hprobe (passes_lead hlead)
      exact begins_itemThen hvalue ih hlead hplaces' h

theorem begins_fields {fuel : Nat} {first : Bool} {ps : List TemplatePart}
    {entries : List (String × Json)} {rest : List Char}
    (hplaces : placesOutside .outside ps = true)
    (h : Json.Syntax.fields (Json.Syntax.value d) fuel first (probe ps) = .ok (entries, rest)) :
    BeginsFields first ps rest := by
  induction fuel generalizing first ps entries with
  | zero =>
    rw [Json.Syntax.fields] at h
    contradiction
  | succ fuel ih =>
    obtain ⟨lead, hlead, hprobe⟩ | ⟨lead, s, hlead, hprobe, h⟩ := lead_of_fields_eq_ok h
    · obtain ⟨ps', rfl, hrest, hplaces'⟩ :=
        exists_of_probe_append hplaces hprobe (passes_end hlead (by decide))
      exact ⟨[], plain (lead ++ ['\x7d']), ps', ⟨lead, hlead, rfl⟩, rfl, hrest, hplaces'⟩
    · obtain ⟨ps', rfl, rfl, hplaces'⟩ :=
        exists_of_probe_append hplaces hprobe (passes_quote hlead)
      exact begins_fieldThen hvalue ih hlead hplaces' h

end

inductive ReadsBehind (d : Nat) : Char → List Char → Json → List Char → Prop where
  | null {tail rest : List Char} {j : Json}
      (read : Json.Syntax.word .null ['u', 'l', 'l'] tail = .ok (j, rest)) :
      ReadsBehind d 'n' tail j rest
  | yes {tail rest : List Char} {j : Json}
      (read : Json.Syntax.word (.bool true) ['r', 'u', 'e'] tail = .ok (j, rest)) :
      ReadsBehind d 't' tail j rest
  | no {tail rest : List Char} {j : Json}
      (read : Json.Syntax.word (.bool false) ['a', 'l', 's', 'e'] tail = .ok (j, rest)) :
      ReadsBehind d 'f' tail j rest
  | minus {tail rest : List Char} {j : Json}
      (read : Json.Syntax.number true tail = .ok (j, rest)) : ReadsBehind d '-' tail j rest
  | digit {c : Char} {tail rest : List Char} {j : Json}
      (read : Json.Syntax.number false (c :: tail) = .ok (j, rest)) : ReadsBehind d c tail j rest
  | string {tail rest : List Char} {s : String}
      (read : Json.Syntax.string tail = .ok (s, rest)) : ReadsBehind d '"' tail (.string s) rest
  | array {tail rest : List Char} {js : List Json}
      (read : Json.Syntax.items (Json.Syntax.value d) (tail.length + 1) true tail
        = .ok (js, rest)) :
      ReadsBehind d '[' tail (.array js) rest
  | object {tail rest : List Char} {entries : List (String × Json)}
      (read : Json.Syntax.fields (Json.Syntax.value d) (tail.length + 1) true tail
        = .ok (entries, rest)) :
      ReadsBehind d '\x7b' tail (.ofFields entries) rest

theorem exists_readsBehind {d : Nat} {s : List Char} {j : Json} {rest : List Char}
    (h : Json.Syntax.value (d + 1) s = .ok (j, rest)) :
    ∃ c tail, Json.Syntax.skipBlanks s = c :: tail ∧ ReadsBehind d c tail j rest := by
  rw [Json.Syntax.value] at h
  split at h
  next => contradiction
  next c tail hskip =>
    refine ⟨c, tail, hskip, ?_⟩
    split at h
    next hc => exact hc ▸ .null h
    split at h
    next hc => exact hc ▸ .yes h
    split at h
    next hc => exact hc ▸ .no h
    split at h
    next hc => exact hc ▸ .minus h
    split at h
    next => exact .digit h
    split at h
    next hc =>
      rw [bind_eq_ok_iff] at h
      obtain ⟨⟨s, rest'⟩, hstring, heq⟩ := h
      cases heq
      exact hc ▸ .string hstring
    split at h
    next hc =>
      split at h
      next => contradiction
      next =>
        rw [bind_eq_ok_iff] at h
        obtain ⟨⟨js, rest'⟩, hitems, heq⟩ := h
        cases heq
        exact hc ▸ .array hitems
    split at h
    next hc =>
      split at h
      next => contradiction
      next =>
        rw [bind_eq_ok_iff] at h
        obtain ⟨⟨entries, rest'⟩, hfields, heq⟩ := h
        cases heq
        exact hc ▸ .object hfields
    contradiction

theorem begins_place {digits : List Char} {ps : List TemplatePart}
    (hplaces : placesOutside .outside ps = true) : Begins (.place digits :: ps) (probe ps) :=
  ⟨[], .place digits, [.place digits], ps, isBlank_nil, rfl, rfl, rfl, hplaces⟩

theorem begins_bool (b : Bool) {ps : List TemplatePart} {rest : List Char}
    (hplaces : placesOutside .outside ps = true)
    (h : probe ps = (if b then ['t', 'r', 'u', 'e'] else ['f', 'a', 'l', 's', 'e']) ++ rest) :
    Begins ps rest := by
  refine begins_of_spells (spells_bool b) (TextPosition.passes_outside ?_) hplaces h
  cases b <;> simp

theorem Begins.prepend {lead : List Char} {ps : List TemplatePart} {rest : List Char}
    (hlead : IsBlank lead) (h : Begins ps rest) : Begins (plain lead ++ ps) rest := by
  obtain ⟨more, t, body, ps', hmore, hbody, rfl, hrest, hplaces⟩ := h
  exact ⟨lead ++ more, t, body, ps', hlead.append hmore, hbody, by simp [plain], hrest, hplaces⟩

/--
A place is read as the word that it holds.
-/
theorem ReadsBehind.rest_of_null {d : Nat} {s : List Char} {j : Json} {rest : List Char}
    (h : ReadsBehind d 'n' ('u' :: 'l' :: 'l' :: s) j rest) : rest = s := by
  cases h with
  | null read => exact (List.append_cancel_left (word_eq_ok read)).symm
  | digit read => contradiction

theorem begins_of_readsBehind {d : Nat}
    (hvalue : ∀ {ps : List TemplatePart} {j : Json} {rest : List Char},
      placesOutside .outside ps = true → Json.Syntax.value d (probe ps) = .ok (j, rest) →
      Begins ps rest)
    {c : Char} {ps : List TemplatePart} {j : Json} {rest : List Char}
    (hplaces : placesOutside .outside (.char c :: ps) = true)
    (h : ReadsBehind d c (probe ps) j rest) : Begins (.char c :: ps) rest := by
  cases h with
  | null read => exact begins_null hplaces (word_eq_ok read)
  | yes read => exact begins_bool true hplaces (congrArg ('t' :: ·) (word_eq_ok read))
  | no read => exact begins_bool false hplaces (congrArg ('f' :: ·) (word_eq_ok read))
  | minus read =>
    obtain ⟨cs, hsplit, hcs, hnumeral⟩ := Json.Syntax.exists_numeral_minus read
    apply begins_numeral hplaces _ hcs hnumeral
    exact congrArg ('-' :: ·) hsplit
  | digit read =>
    obtain ⟨cs, hsplit, hcs, hnumeral⟩ := Json.Syntax.exists_numeral read
    exact begins_numeral hplaces hsplit hcs hnumeral
  | string read => exact begins_string hplaces read
  | array read => exact begins_array (begins_items hvalue hplaces read)
  | object read => exact begins_object (begins_fields hvalue hplaces read)

theorem begins_of_value {d : Nat} {ps : List TemplatePart} {j : Json} {rest : List Char}
    (hplaces : placesOutside .outside ps = true)
    (h : Json.Syntax.value d (probe ps) = .ok (j, rest)) : Begins ps rest := by
  induction d generalizing ps j rest with
  | zero => contradiction
  | succ d ih =>
    obtain ⟨c, tail, hread, hbehind⟩ := exists_readsBehind h
    obtain ⟨lead, ps, hlead, rfl, hskip, hplaces⟩ := exists_of_skipBlanks hplaces
    rw [hread] at hskip
    apply Begins.prepend hlead
    obtain ⟨ps', rfl, rfl, -⟩ | ⟨digits, ps', rfl, rfl, rfl, -, hplaces'⟩ :=
      exists_of_probe_cons hplaces hskip
    · exact begins_of_readsBehind ih hplaces hbehind
    · rw [hbehind.rest_of_null]
      exact begins_place hplaces'

theorem probe_eq_nil {ps : List TemplatePart} (h : probe ps = []) : ps = [] := by
  cases ps with
  | nil => rfl
  | cons part ps => cases part <;> contradiction

theorem exists_isSyntaxOf {d : Nat} {ps : List TemplatePart} {j : Json}
    (hplaces : placesOutside .outside ps = true)
    (h : Json.Syntax.document d (probe ps) = .ok j) : ∃ t : JsonTree, t.IsSyntaxOf ps := by
  rw [Json.Syntax.document, bind_eq_ok_iff] at h
  obtain ⟨⟨j', rest⟩, hread, h⟩ := h
  obtain ⟨before, t, body, ps', hbefore, hbody, rfl, rfl, hplaces'⟩ :=
    begins_of_value hplaces hread
  obtain ⟨after, ps'', hafter, rfl, hskip, -⟩ := exists_of_skipBlanks hplaces'
  dsimp only at h
  rw [← hskip] at h
  split at h
  next hend =>
    refine ⟨t, before, body, after, hbefore, hafter, hbody, ?_⟩
    rw [probe_eq_nil hend, List.append_nil]
  next => contradiction

end JsonTree
end DerivedQuery
