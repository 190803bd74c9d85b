import DerivedQuery.Proofs.Json.Printing
import DerivedQuery.Proofs.Json.Probe
import DerivedQuery.Proofs.Query.Compiled

/-!
This module contains that filling the text of a template is filling its syntax tree: the values that
are put into a query text stay values.
-/

namespace DerivedQuery

namespace Filter

theorem ofText_of_parse {s : String} {j : Json} (h : Json.parse s = .ok j) :
    ofText s = (documentOfJson j >>= ofDocument).mapError .document := by
  unfold ofText documentOfText
  rw [h]
  dsimp only
  cases documentOfJson j with
  | error fault => rfl
  | ok d => rfl

theorem exists_parse_of_documentOfText {s : String} {d : Document}
    (h : documentOfText s = .ok d) : ∃ j, Json.parse s = .ok j := by
  unfold documentOfText at h
  split at h
  next => contradiction
  next j hparse => exact ⟨j, hparse⟩

end Filter

namespace Json

theorem parse_eq_ok_iff {s : String} {j : Json} :
    parse s = .ok j ↔ Syntax.document depthLimit s.toList = .ok j := by
  unfold parse parseWithin
  split
  next h => rw [h, Except.ok.injEq, Except.ok.injEq]
  next h => simp [h]

end Json

namespace Template

def argumentJson? : Argument → Option Json
  | .value v => some (ExtendedJson.toJson v)
  | .point p => some (ExtendedJson.toJson p.toValue)
  | _ => none

/--
The syntax tree that fills a place. Digits that number no argument stand for `null`.
-/
def argumentTree (args : List Argument) (digits : List Char) : JsonTree :=
  (((TemplatePart.place digits).index?.bind (args[·]?)).bind argumentJson?).elim .null
    JsonTree.ofJson

def argumentChars (args : List Argument) (digits : List Char) : List Char :=
  (((TemplatePart.place digits).index?.bind fun i => args[i]?.bind argumentText?).getD
    "null").toList

theorem argumentText?_eq (arg : Argument) :
    argumentText? arg = (argumentJson? arg).map Json.text := by
  cases arg <;> rfl

theorem toList_fill (query : String) (args : List Argument) :
    (fill query fun i => args[i]?.bind argumentText?).toList
      =
    JsonTree.text (argumentChars args) (parts query) := by
  rw [fill, String.toList_ofList, JsonTree.text]
  congr 1
  funext part
  cases part <;> rfl

theorem toList_fill_null (query : String) :
    (fill query fun _ => some "null").toList = JsonTree.probe (parts query) := by
  rw [fill, String.toList_ofList, JsonTree.probe, JsonTree.text]
  congr 1
  funext part
  cases part with
  | char c => rfl
  | place digits =>
    rw [TemplatePart.fill]
    cases (TemplatePart.place digits).index? with
    | none => rfl
    | some i =>
      rw [Option.bind_some, Option.getD_some]
      rfl

theorem reads_argumentTree {args : List Argument}
    (hargs : ∀ arg ∈ args, ∀ j, argumentJson? arg = some j → j.NumbersRead) :
    JsonTree.Reads (argumentTree args) (argumentChars args) := by
  intro digits d rest hdepth hrest
  have hchars : argumentChars args digits
      = ((((TemplatePart.place digits).index?.bind (args[·]?)).bind argumentJson?).map
          Json.text |>.getD "null").toList := by
    rw [argumentChars]
    cases (TemplatePart.place digits).index? with
    | none => rfl
    | some i =>
      rw [Option.bind_some, Option.bind_some]
      cases args[i]? with
      | none => rfl
      | some arg => rw [Option.bind_some, Option.bind_some, argumentText?_eq]
  rw [hchars]
  unfold argumentTree at hdepth ⊢
  cases hj : ((TemplatePart.place digits).index?.bind (args[·]?)).bind argumentJson? with
  | none =>
    rw [hj] at hdepth
    have hnull : JsonTree.Spells .null (JsonTree.plain "null".toList) := rfl
    exact JsonTree.value_plain hnull hdepth hrest
  | some j =>
    rw [hj] at hdepth
    obtain ⟨arg, harg, hjson⟩ := Option.bind_eq_some_iff.mp hj
    obtain ⟨i, -, hi⟩ := Option.bind_eq_some_iff.mp harg
    have hnumbers := hargs arg (List.mem_of_getElem? hi) j hjson
    rw [Option.map_some, Option.getD_some, Json.text, String.toList_ofList]
    exact JsonTree.value_plain (JsonTree.spells_ofJson hnumbers) hdepth hrest

/-! ### Texts that compare one property -/

def equalityTree (name : String) : JsonTree :=
  .object [(name, .place ['0'])]

def equalityParts (name : String) : List TemplatePart :=
  JsonTree.plain ('\x7b' :: ' ' :: '"' :: name.toList ++ ['"', ':', ' ']) ++
    .place ['0'] :: JsonTree.plain [' ', '\x7d']

theorem isSyntaxOf_equalityParts {name : String}
    (h : ∀ c ∈ name.toList, c ≠ '"' ∧ c ≠ '\\' ∧ 32 ≤ c.toNat) :
    (equalityTree name).IsSyntaxOf (equalityParts name) := by
  have hblank : JsonTree.IsBlank [' '] := by
    intro c hc
    rw [List.mem_singleton.mp hc]
    rfl
  have hend : JsonTree.SpellsFields false [] (JsonTree.plain [' ', '\x7d']) :=
    ⟨[' '], hblank, rfl⟩
  have hfields : JsonTree.SpellsFields true [(name, .place ['0'])] _ :=
    ⟨[' '], name.toList, [], [' '], [.place ['0']], _, hblank, Json.stringText_self h,
      JsonTree.isBlank_nil, hblank, rfl, hend, rfl⟩
  refine ⟨[], _, [], JsonTree.isBlank_nil, JsonTree.isBlank_nil, ⟨_, hfields, rfl⟩, ?_⟩
  simp [equalityParts, JsonTree.plain]

/-! ### Templates -/

theorem compile_eq_ok {method query : String} {fields : Option String} {count : Nat}
    {t : Template} (h : compile method query fields count = .ok t) :
    t.query = Quotes.normalize query ∧ checkQuery t.query = .ok () := by
  -- the template holds the text that was checked
  have hrest : ∀ {k : Except QueryError Template},
      (∀ t', k = .ok t' → t'.query = Quotes.normalize query) →
      ((checkQuery (Quotes.normalize query)).mapError
        (fun fault => QueryError.malformedName method (.queryTemplate fault)) >>= fun _ => k)
          = .ok t →
      t.query = Quotes.normalize query ∧ checkQuery t.query = .ok () := by
    intro k hk h
    rw [bind_eq_ok_iff] at h
    obtain ⟨_, hcheck, h⟩ := h
    rw [hk t h]
    exact ⟨rfl, mapError_eq_ok_iff.mp hcheck⟩
  unfold compile at h
  dsimp only at h
  split at h
  on_goal 1 => split at h
  · contradiction
  all_goals
    apply hrest _ h
    intro t' h
    cases fields with
    | none =>
      rw [← Except.ok.inj h]
    | some text =>
      obtain ⟨_, -, heq⟩ := bind_eq_ok_iff.mp h
      rw [← Except.ok.inj heq]

theorem exists_isSyntaxOf {method query : String} {fields : Option String} {count : Nat}
    {t : Template} (h : compile method query fields count = .ok t)
    (hplaces : TextPosition.placesOutside .outside (parts t.query) = true) :
    ∃ tree : JsonTree, tree.IsSyntaxOf (parts t.query) := by
  have hcheck := (compile_eq_ok h).2
  rw [checkQuery, bind_eq_ok_iff] at hcheck
  obtain ⟨d, hd, -⟩ := hcheck
  obtain ⟨j, hj⟩ := Filter.exists_parse_of_documentOfText hd
  rw [Json.parse_eq_ok_iff, toList_fill_null] at hj
  exact JsonTree.exists_isSyntaxOf hplaces hj

def nameTemplate : Template where
  query := "\x7b \"name\": ?0 \x7d"
  fields := none

end Template
end DerivedQuery
