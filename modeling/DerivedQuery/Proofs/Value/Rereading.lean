import DerivedQuery.Filter.Rendering
import DerivedQuery.Proofs.Decimal.Text
import DerivedQuery.Proofs.Json.Stable
import DerivedQuery.Proofs.Value.Payload
import DerivedQuery.Value.Equality
import DerivedQuery.Value.Marked

/-!
This module contains which values are kept by their JSON texts: what is read from such a text cannot
be told from the value by a search for it.
-/

namespace DerivedQuery
namespace Value

mutual

def Valid : Value → Prop
  | .decimal d => d.IsBounded
  | .regex pattern options =>
    ExtendedJson.IsPatternText pattern ∧ ExtendedJson.IsPatternText options
  | .objectId id => id.IsValid
  | .date millis => -(Nat.pow 2 63 : Int) ≤ millis ∧ millis < (Nat.pow 2 63 : Int)
  | .timestamp time increment => time < Nat.pow 2 32 ∧ increment < Nat.pow 2 32
  | .pointer _ id => id.IsValid
  | .scopedCode _ scope => Document.Distinct scope ∧ ValidFields scope
  | .array items => ValidItems items
  | .document fields => Document.Distinct fields ∧ ValidFields fields
  | _ => True

def ValidItems : List Value → Prop
  | [] => True
  | item :: items => Valid item ∧ ValidItems items

def ValidFields : List (String × Value) → Prop
  | [] => True
  | (_, value) :: fields => Valid value ∧ ValidFields fields

end

mutual

/--
JSON says of the value all that there is to say. Of whole numbers it does not say how wide they are,
and of documents whose fields are named like markers it does not say that they are documents.
-/
def Kept : Value → Prop
  | .int64 i => ¬ IsNarrow i.toInt
  | .double x =>
    (ExtendedJson.toJson (.double x)).IsStable
      ∧ ExtendedJson.ofJson? (ExtendedJson.toJson (.double x)) = some (.double x)
  | .decimal d => d.IsShown
  | .regex _ options => ExtendedJson.sortChars options = options
  | .scopedCode _ scope => KeptFields scope
  | .array items => KeptItems items
  | .document fields =>
    (∀ key ∈ Document.keys fields, Marked.marker? key = none) ∧ KeptFields fields
  | _ => True

def KeptItems : List Value → Prop
  | [] => True
  | item :: items => Kept item ∧ KeptItems items

def KeptFields : List (String × Value) → Prop
  | [] => True
  | (_, value) :: fields => Kept value ∧ KeptFields fields

end

def statesOperators (v : Value) : Bool :=
  v.document?.any Document.isOperators

/--
No value can tell the two apart that are searched for.
-/
structure Alike (v w : Value) : Prop where
  same : ∀ x : Value, x.same v = x.same w
  number : v.number? = w.number?
  isNull : v.isNull = w.isNull
  operators : v.statesOperators = w.statesOperators

theorem Alike.refl (v : Value) : v.Alike v :=
  ⟨fun _ => rfl, rfl, rfl, rfl⟩

theorem Alike.equal {v w : Value} (h : v.Alike w) (x : Value) : x.equal v = x.equal w := by
  unfold Value.equal
  rw [h.number, h.same]

structure AlikeFields (fields others : Document) : Prop where
  length : fields.length = others.length
  get? : ∀ key, Option.Rel Alike (fields.get? key) (others.get? key)
  operators : fields.isOperators = others.isOperators

theorem sameFields_eq {fields others : Document} (h : AlikeFields fields others)
    (xs : List (String × Value)) : sameFields xs fields = sameFields xs others := by
  induction xs with
  | nil => rw [sameFields, sameFields]
  | cons x xs ih =>
    obtain ⟨key, value⟩ := x
    have hget := h.get? key
    rw [sameFields, sameFields, ih]
    congr 1
    generalize fields.get? key = a at hget
    generalize others.get? key = b at hget
    cases hget with
    | none => rfl
    | some halike => exact halike.same value

theorem alike_document {fields others : Document} (h : AlikeFields fields others) :
    (document fields).Alike (document others) where
  same x := by
    cases x <;> try rfl
    rw [same, same, h.length, sameFields_eq h]
  number := rfl
  isNull := rfl
  operators := h.operators

theorem alike_scopedCode (text : String) {scope others : Document} (h : AlikeFields scope others) :
    (scopedCode text scope).Alike (scopedCode text others) where
  same x := by
    cases x <;> try rfl
    rw [same, same, h.length, sameFields_eq h]
  number := rfl
  isNull := rfl
  operators := rfl

theorem sameItems_eq {items others : List Value} (h : List.Forall₂ Alike items others)
    (xs : List Value) : sameItems xs items = sameItems xs others := by
  induction h generalizing xs with
  | nil => rfl
  | cons hitem _ ih =>
    cases xs with
    | nil => rw [sameItems, sameItems] <;> simp
    | cons x xs => rw [sameItems, sameItems, hitem.same, ih]

theorem alike_array {items others : List Value} (h : List.Forall₂ Alike items others) :
    (array items).Alike (array others) where
  same x := by
    cases x <;> try rfl
    rw [same, same, sameItems_eq h]
  number := rfl
  isNull := rfl
  operators := rfl

theorem mem_of_get? {fields : Document} {key : String} {value : Value}
    (h : fields.get? key = some value) : (key, value) ∈ fields := by
  obtain ⟨front, back, rfl, -⟩ := Document.exists_insert_eq h
  simp

end Value

namespace ExtendedJson

open Json (isStable_marked isStable_pair)

open Value

/-! ### Documents -/

theorem map_fst_toJsonFields (fields : Document) :
    (toJsonFields fields).map Prod.fst = fields.keys := by
  induction fields with
  | nil => rfl
  | cons field fields ih =>
    rw [toJsonFields, List.map_cons, ih]
    rfl

theorem exists_of_mem_toJsonFields {fields : Document} {field : String × Json}
    (h : field ∈ toJsonFields fields) :
    ∃ value, (field.1, value) ∈ fields ∧ field.2 = toJson value := by
  induction fields with
  | nil => contradiction
  | cons first fields ih =>
    rw [toJsonFields, List.mem_cons] at h
    rcases h with rfl | h
    · exact ⟨first.2, List.mem_cons_self, rfl⟩
    · obtain ⟨value, hmem, heq⟩ := ih h
      exact ⟨value, List.mem_cons_of_mem _ hmem, heq⟩

theorem findField?_toJsonFields (fields : Document) (key : String) :
    Json.findField? key (toJsonFields fields) = (fields.get? key).map toJson := by
  induction fields with
  | nil => rfl
  | cons field fields ih =>
    rw [toJsonFields, Json.findField?, ih, Document.get?]
    split
    next heq => rw [if_pos heq.symm, Option.map_some]
    next hne => rw [if_neg (Ne.symm hne)]

theorem perm_sortFields {fields : Document} (h : fields.Distinct) :
    (Json.sortFields (toJsonFields fields)).Perm (toJsonFields fields) := by
  apply Json.perm_sortFields
  rw [map_fst_toJsonFields]
  exact h

theorem perm_keys_sortFields {fields : Document} (h : fields.Distinct) :
    ((Json.sortFields (toJsonFields fields)).map Prod.fst).Perm fields.keys := by
  rw [← map_fst_toJsonFields]
  exact (perm_sortFields h).map Prod.fst

theorem exists_ofFields? {fields : List (String × Json)}
    (h : ∀ field ∈ fields, ∃ w, ofJson? field.2 = some w) :
    ∃ d : Document,
      ofFields? fields = some d ∧ d.keys = fields.map Prod.fst
        ∧ ∀ key, d.get? key = (Json.findField? key fields).bind ofJson? := by
  induction fields with
  | nil => exact ⟨[], rfl, rfl, fun _ => rfl⟩
  | cons field fields ih =>
    obtain ⟨w, hw⟩ := h field List.mem_cons_self
    obtain ⟨d, hd, hkeys, hget⟩ := ih fun other hother => h other (List.mem_cons_of_mem _ hother)
    refine ⟨(field.1, w) :: d, ?_, ?_, ?_⟩
    · rw [ofFields?, hw, hd]
      rfl
    · rw [List.map_cons, ← hkeys]
      rfl
    · intro key
      rw [Document.get?, Json.findField?, hget]
      split
      next heq => rw [if_pos heq.symm, Option.bind_some, hw]
      next hne => rw [if_neg (Ne.symm hne)]

theorem exists_alikeFields {fields : Document} (hdistinct : fields.Distinct)
    (h : ∀ field ∈ fields, ∃ w, ofJson? (toJson field.2) = some w ∧ field.2.Alike w) :
    ∃ d, ofFields? (Json.sortFields (toJsonFields fields)) = some d ∧ AlikeFields fields d := by
  have hnodup : ((toJsonFields fields).map Prod.fst).Nodup := by
    rw [map_fst_toJsonFields]
    exact hdistinct
  have hread : ∀ field ∈ Json.sortFields (toJsonFields fields), ∃ w, ofJson? field.2 = some w := by
    intro field hfield
    rw [(perm_sortFields hdistinct).mem_iff] at hfield
    obtain ⟨value, hmem, heq⟩ := exists_of_mem_toJsonFields hfield
    obtain ⟨w, hw, -⟩ := h _ hmem
    exact ⟨w, heq ▸ hw⟩
  obtain ⟨d, hd, hkeys, hget⟩ := exists_ofFields? hread
  have hkeysPerm : d.keys.Perm fields.keys := by
    rw [hkeys]
    exact perm_keys_sortFields hdistinct
  refine ⟨d, hd, ?_, ?_, ?_⟩
  · have hlength := hkeysPerm.length_eq
    rw [Document.keys, Document.keys, List.length_map, List.length_map] at hlength
    exact hlength.symm
  · intro key
    rw [hget, Json.findField?_sortFields hnodup, findField?_toJsonFields]
    cases hfound : fields.get? key with
    | none => exact .none
    | some value =>
      obtain ⟨w, hw, halike⟩ := h _ (mem_of_get? hfound)
      rw [Option.map_some, Option.bind_some, hw]
      exact .some halike
  · rw [Document.isOperators_eq, Document.isOperators_eq, hkeysPerm.isEmpty_eq, hkeysPerm.all_eq]

/-! ### Values -/

theorem ofJson?_of_noMarker {fields : List (String × Json)}
    (h : ∀ key ∈ fields.map Prod.fst, Marked.marker? key = none) :
    ofJson? (.object fields) = (ofFields? fields).map .document := by
  have hnone : marker? fields = none := by
    rw [marker?, List.find?_eq_none]
    rintro ⟨name, marker⟩ hentry hfound
    have hmem : name ∈ fields.map Prod.fst := by
      by_contra hmem
      dsimp only at hfound
      rw [Json.findField?_eq_none hmem] at hfound
      contradiction
    have hmarkers : ∀ entry ∈ markers, Marked.marker? entry.1 ≠ none := by decide
    exact hmarkers _ hentry (h _ hmem)
  rw [ofJson?.eq_def]
  simp only [hnone]

theorem ofJson?_scopedCode (text : String) (fields : List (String × Json)) :
    ofJson? (.object [("$code", .string text), ("$scope", .object fields)])
      =
    (ofFields? fields).map (.scopedCode text) := by
  have hmarker : marker? [("$code", .string text), ("$scope", .object fields)]
      = some ("$code", .code) := rfl
  have hscope : scope? [("$code", .string text), ("$scope", .object fields)]
      = (ofFields? fields).map some := by
    simp only [scope?]
    cases ofFields? fields <;> rfl
  rw [ofJson?.eq_def]
  simp only [hmarker, hscope]
  cases ofFields? fields <;> rfl

theorem isStable_int {n : Int} (hlow : -(Nat.pow 2 63 : Int) ≤ n)
    (hhigh : n ≤ Json.Syntax.maxWord) : (Json.int n).IsStable :=
  Json.Syntax.numeral?_toString hlow hhigh

theorem isStable_int32 (i : Int32) : (Json.int i.toInt).IsStable := by
  have hlow := i.le_toInt
  have hhigh := i.toInt_lt
  apply isStable_int
  · norm_num
    omega
  · norm_num [Json.Syntax.maxWord]
    omega

theorem isStable_int64 (i : Int64) : (Json.int i.toInt).IsStable := by
  have hhigh := i.toInt_lt
  apply isStable_int
  · exact i.le_toInt
  · norm_num [Json.Syntax.maxWord]
    omega

theorem isStable_nat {n : Nat} (h : n < Nat.pow 2 32) : (Json.int n).IsStable := by
  apply isStable_int
  · norm_num
  · norm_num [Json.Syntax.maxWord] at h ⊢
    omega

theorem isStable_sortFields {fields : Document} (hdistinct : fields.Distinct)
    (h : ∀ field ∈ fields, (toJson field.2).IsStable) :
    (Json.ofFields (toJsonFields fields)).IsStable := by
  rw [Json.ofFields_eq]
  refine ⟨Json.isSorted_sortFields _, Json.isStableFields_iff.mpr ?_⟩
  intro field hfield
  rw [(perm_sortFields hdistinct).mem_iff] at hfield
  obtain ⟨value, hmem, heq⟩ := exists_of_mem_toJsonFields hfield
  rw [heq]
  exact h _ hmem

mutual

/--
A value that JSON keeps is read from its text, or one that no search tells from it.
-/
theorem exists_reread {v : Value} (hvalid : v.Valid) (hkept : v.Kept) :
    (toJson v).IsStable ∧ ∃ w, ofJson? (toJson v) = some w ∧ v.Alike w := by
  cases v with
  | null => exact ⟨trivial, _, rfl, .refl _⟩
  | undefined => exact ⟨isStable_marked trivial, _, rfl, .refl _⟩
  | minKey => exact ⟨isStable_marked (isStable_int (by decide) (by decide)), _, rfl, .refl _⟩
  | maxKey => exact ⟨isStable_marked (isStable_int (by decide) (by decide)), _, rfl, .refl _⟩
  | bool b => exact ⟨trivial, _, rfl, .refl _⟩
  | int32 i =>
    exact ⟨isStable_int32 i, _, ofJson?_int32 i, .refl _⟩
  | int64 i =>
    exact ⟨isStable_int64 i, _, ofJson?_int64 hkept, .refl _⟩
  | double x => exact ⟨hkept.1, _, hkept.2, .refl _⟩
  | decimal d =>
    refine ⟨isStable_marked trivial, .decimal d, ?_, .refl _⟩
    rw [toJson, ofJson?_marked .decimal (by decide) (by decide), payload?,
      Decimal128.ofText?_text hvalid hkept]
    rfl
  | string s => exact ⟨trivial, _, rfl, .refl _⟩
  | symbol s => exact ⟨isStable_marked trivial, _, rfl, .refl _⟩
  | code text => exact ⟨isStable_marked trivial, _, rfl, .refl _⟩
  | scopedCode text scope =>
    have hfields := exists_rereadFields hvalid.2 hkept
    obtain ⟨d, hd, halike⟩ :=
      exists_alikeFields hvalid.1 fun field hfield => (hfields field hfield).2
    refine ⟨isStable_pair (by decide) trivial (isStable_sortFields hvalid.1 ?_), .scopedCode text d,
      ?_, alike_scopedCode text halike⟩
    · exact fun field hfield => (hfields field hfield).1
    · rw [toJson, Json.ofFields_eq, ofJson?_scopedCode, hd]
      rfl
  | regex pattern options =>
    refine ⟨isStable_marked ?_, _, ofJson?_regex hvalid.1 hvalid.2 hkept, .refl _⟩
    exact isStable_pair (by decide) trivial trivial
  | binary subtype bytes =>
    refine ⟨isStable_marked ?_, _, ofJson?_binary subtype bytes, .refl _⟩
    exact isStable_pair (by decide) trivial trivial
  | objectId id => exact ⟨isStable_marked trivial, _, ofJson?_objectId hvalid, .refl _⟩
  | date millis =>
    refine ⟨?_, _, ofJson?_date hvalid.1 hvalid.2, .refl _⟩
    rw [toJson]
    split
    · exact isStable_marked trivial
    · exact isStable_marked (isStable_marked trivial)
  | timestamp time increment =>
    obtain ⟨htime, hincrement⟩ := hvalid
    refine ⟨isStable_marked ?_, _, ofJson?_timestamp htime hincrement, .refl _⟩
    exact isStable_pair (by decide) (isStable_nat hincrement) (isStable_nat htime)
  | pointer target id =>
    refine ⟨isStable_marked ?_, _, ofJson?_pointer hvalid target, .refl _⟩
    exact isStable_pair (by decide) (isStable_marked trivial) trivial
  | array items =>
    obtain ⟨hstable, others, hothers, halike⟩ := exists_rereadItems hvalid hkept
    refine ⟨hstable, .array others, ?_, alike_array halike⟩
    rw [toJson, ofJson?, hothers]
    rfl
  | document fields =>
    have hfields := exists_rereadFields hvalid.2 hkept.2
    obtain ⟨d, hd, halike⟩ :=
      exists_alikeFields hvalid.1 fun field hfield => (hfields field hfield).2
    refine ⟨isStable_sortFields hvalid.1 fun field hfield => (hfields field hfield).1, .document d,
      ?_, alike_document halike⟩
    rw [toJson, Json.ofFields_eq, ofJson?_of_noMarker, hd]
    · rfl
    · intro key hkey
      apply hkept.1
      rw [(perm_keys_sortFields hvalid.1).mem_iff] at hkey
      exact hkey

theorem exists_rereadItems {items : List Value} (hvalid : ValidItems items)
    (hkept : KeptItems items) :
    Json.IsStableItems (toJsonItems items)
      ∧
    ∃ others, ofItems? (toJsonItems items) = some others ∧ List.Forall₂ Alike items others := by
  cases items with
  | nil => exact ⟨trivial, [], rfl, .nil⟩
  | cons item items =>
    obtain ⟨hstable, w, hw, halike⟩ := exists_reread hvalid.1 hkept.1
    obtain ⟨hstables, others, hothers, halikes⟩ := exists_rereadItems hvalid.2 hkept.2
    refine ⟨⟨hstable, hstables⟩, w :: others, ?_, .cons halike halikes⟩
    rw [toJsonItems, ofItems?, hw, hothers]
    rfl

theorem exists_rereadFields {fields : Document} (hvalid : ValidFields fields)
    (hkept : KeptFields fields) :
    ∀ field ∈ fields,
      (toJson field.2).IsStable ∧ ∃ w, ofJson? (toJson field.2) = some w ∧ field.2.Alike w := by
  cases fields with
  | nil => simp
  | cons field fields =>
    intro other hother
    cases hother with
    | head => exact exists_reread hvalid.1 hkept.1
    | tail _ hother => exact exists_rereadFields hvalid.2 hkept.2 other hother

end

end ExtendedJson
end DerivedQuery
