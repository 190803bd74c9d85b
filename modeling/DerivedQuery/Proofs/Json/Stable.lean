import DerivedQuery.Proofs.Json.Printing
import Mathlib.Data.List.Induction
import Mathlib.Data.String.Basic

/-!
This module contains the fields of objects in their order, and the JSON values that are read back
from their own texts.
-/

namespace DerivedQuery
namespace Json

/-! ### Fields of objects -/

def IsSorted (fields : List (String × Json)) : Prop :=
  fields.Pairwise fun a b => a.1 < b.1

def sortFields (fields : List (String × Json)) : List (String × Json) :=
  fields.foldl (fun sorted (name, value) => insertField name value sorted) []

theorem ofFields_eq (fields : List (String × Json)) :
    ofFields fields = .object (sortFields fields) := rfl

theorem lt_of_mem_insertField {bound name : String} {value : Json} {fields : List (String × Json)}
    (hname : bound < name) (hfields : ∀ field ∈ fields, bound < field.1) :
    ∀ field ∈ insertField name value fields, bound < field.1 := by
  induction fields with
  | nil => simpa [insertField] using hname
  | cons first fields ih =>
    obtain ⟨other, old⟩ := first
    have hrest : ∀ field ∈ fields, bound < field.1 := fun field hfield =>
      hfields field (List.mem_cons_of_mem _ hfield)
    have hother : bound < other := hfields (other, old) List.mem_cons_self
    intro field hfield
    rw [insertField] at hfield
    split at hfield
    next =>
      cases hfield with
      | head => exact hname
      | tail _ hfield => exact hfields field hfield
    next =>
      split at hfield
      next =>
        cases hfield with
        | head => exact hname
        | tail _ hfield => exact hrest field hfield
      next =>
        cases hfield with
        | head => exact hother
        | tail _ hfield => exact ih hrest field hfield

theorem isSorted_insertField {fields : List (String × Json)} (h : IsSorted fields) (name : String)
    (value : Json) : IsSorted (insertField name value fields) := by
  induction fields with
  | nil => exact List.pairwise_singleton _ _
  | cons first fields ih =>
    obtain ⟨other, old⟩ := first
    obtain ⟨hfirst, hfields⟩ := List.pairwise_cons.mp h
    rw [insertField]
    split
    next hlt =>
      refine List.pairwise_cons.mpr ⟨?_, h⟩
      intro field hfield
      cases hfield with
      | head => exact hlt
      | tail _ hfield => exact lt_trans hlt (hfirst field hfield)
    next hnot =>
      split
      next heq =>
        rw [heq]
        exact List.pairwise_cons.mpr ⟨hfirst, hfields⟩
      next hne =>
        have hlt : other < name := lt_of_le_of_ne (not_lt.mp hnot) (Ne.symm hne)
        exact List.pairwise_cons.mpr ⟨lt_of_mem_insertField hlt hfirst, ih hfields⟩

theorem isSorted_sortFields (fields : List (String × Json)) : IsSorted (sortFields fields) := by
  have hfoldl : ∀ (fields sorted : List (String × Json)), IsSorted sorted →
      IsSorted
        (fields.foldl (fun sorted (name, value) => insertField name value sorted) sorted) := by
    intro fields
    induction fields with
    | nil =>
      intro sorted hsorted
      exact hsorted
    | cons field fields ih =>
      intro sorted hsorted
      exact ih _ (isSorted_insertField hsorted _ _)
  exact hfoldl fields [] List.Pairwise.nil

theorem insertField_of_lt {name : String} {value : Json} {fields : List (String × Json)}
    (h : ∀ field ∈ fields, field.1 < name) :
    insertField name value fields = fields ++ [(name, value)] := by
  induction fields with
  | nil => rfl
  | cons first fields ih =>
    obtain ⟨other, old⟩ := first
    have hlt : other < name := h (other, old) List.mem_cons_self
    rw [insertField, if_neg (not_lt_of_gt hlt), if_neg (ne_of_gt hlt),
      ih fun field hfield => h field (List.mem_cons_of_mem _ hfield), List.cons_append]

theorem sortFields_of_isSorted {fields : List (String × Json)} (h : IsSorted fields) :
    sortFields fields = fields := by
  induction fields using List.reverseRecOn with
  | nil => rfl
  | append_singleton fields field ih =>
    obtain ⟨hfields, -, hlast⟩ := List.pairwise_append.mp h
    rw [sortFields, List.foldl_append, ← sortFields, ih hfields]
    exact insertField_of_lt fun other hother => hlast other hother field (List.mem_singleton_self _)

theorem findField?_insertField (key name : String) (value : Json) (fields : List (String × Json)) :
    findField? key (insertField name value fields)
      =
    if key = name then some value else findField? key fields := by
  induction fields with
  | nil => rfl
  | cons first fields ih =>
    obtain ⟨other, old⟩ := first
    rw [insertField]
    split
    next => rw [findField?]
    next =>
      split
      next heq =>
        rw [findField?, findField?, heq]
        split <;> rfl
      next hne =>
        rw [findField?, findField?, ih]
        split
        next hother =>
          rw [if_neg]
          rintro rfl
          exact hne hother
        next => rfl

theorem findField?_eq_none {key : String} {fields : List (String × Json)}
    (h : key ∉ fields.map Prod.fst) : findField? key fields = none := by
  induction fields with
  | nil => rfl
  | cons field fields ih =>
    obtain ⟨name, value⟩ := field
    rw [List.map_cons, List.mem_cons, not_or] at h
    rw [findField?, if_neg h.1, ih h.2]

theorem findField?_foldl {fields : List (String × Json)} (h : (fields.map Prod.fst).Nodup)
    (key : String) (sorted : List (String × Json)) :
    findField? key
        (fields.foldl (fun sorted (name, value) => insertField name value sorted) sorted)
      =
    (findField? key fields).or (findField? key sorted) := by
  induction fields generalizing sorted with
  | nil => rfl
  | cons field fields ih =>
    obtain ⟨name, value⟩ := field
    obtain ⟨hname, hrest⟩ := List.nodup_cons.mp h
    rw [List.foldl_cons, ih hrest, findField?_insertField, findField?]
    split
    next heq =>
      rw [heq, findField?_eq_none hname]
      rfl
    next => rfl

theorem findField?_sortFields {fields : List (String × Json)}
    (h : (fields.map Prod.fst).Nodup) (key : String) :
    findField? key (sortFields fields) = findField? key fields := by
  rw [sortFields, findField?_foldl h, findField?, Option.or_none]

theorem perm_insertField {name : String} {fields : List (String × Json)}
    (h : name ∉ fields.map Prod.fst) (value : Json) :
    (insertField name value fields).Perm ((name, value) :: fields) := by
  induction fields with
  | nil => exact .refl _
  | cons first fields ih =>
    obtain ⟨other, old⟩ := first
    rw [List.map_cons, List.mem_cons, not_or] at h
    rw [insertField]
    split
    next => exact .refl _
    next =>
      rw [if_neg h.1]
      exact ((ih h.2).cons _).trans (.swap _ _ _)

theorem perm_foldl {fields sorted : List (String × Json)}
    (h : (fields.map Prod.fst ++ sorted.map Prod.fst).Nodup) :
    (fields.foldl (fun sorted (name, value) => insertField name value sorted) sorted).Perm
      (fields ++ sorted) := by
  induction fields generalizing sorted with
  | nil => exact .refl _
  | cons field fields ih =>
    obtain ⟨name, value⟩ := field
    rw [List.map_cons, List.cons_append, List.nodup_cons, List.mem_append, not_or] at h
    have hinsert := perm_insertField h.1.2 value
    have hnodup : (fields.map Prod.fst ++ (insertField name value sorted).map Prod.fst).Nodup := by
      rw [((hinsert.map Prod.fst).append_left _).nodup_iff, List.map_cons,
        List.perm_middle.nodup_iff, List.nodup_cons, List.mem_append, not_or]
      exact h
    exact (ih hnodup).trans ((hinsert.append_left _).trans List.perm_middle)

theorem perm_sortFields {fields : List (String × Json)} (h : (fields.map Prod.fst).Nodup) :
    (sortFields fields).Perm fields := by
  have hperm : (sortFields fields).Perm (fields ++ []) := perm_foldl (by simpa using h)
  rw [List.append_nil] at hperm
  exact hperm

/-! ### Values that are read back -/

mutual

/--
The text of the value is read as the value: its numbers are read back, and its fields are in order.
-/
def IsStable : Json → Prop
  | .int n => Syntax.numeral? (toString n).toList = some (.int n)
  | .float x => Syntax.numeral? (Float64.jsonText x).toList = some (.float x)
  | .array items => IsStableItems items
  | .object fields => IsSorted fields ∧ IsStableFields fields
  | _ => True

def IsStableItems : List Json → Prop
  | [] => True
  | item :: items => IsStable item ∧ IsStableItems items

def IsStableFields : List (String × Json) → Prop
  | [] => True
  | (_, value) :: fields => IsStable value ∧ IsStableFields fields

end

theorem isStableFields_iff {fields : List (String × Json)} :
    IsStableFields fields ↔ ∀ field ∈ fields, field.2.IsStable := by
  induction fields with
  | nil => simp [IsStableFields]
  | cons field fields ih =>
    rw [IsStableFields, ih]
    simp

mutual

theorem IsStable.numbersRead {j : Json} (h : j.IsStable) : j.NumbersRead := by
  cases j with
  | int n =>
    rw [IsStable] at h
    rw [NumbersRead, h]
    rfl
  | float x =>
    rw [IsStable] at h
    rw [NumbersRead, h]
    rfl
  | array items => exact IsStableItems.numbersRead h
  | object fields => exact IsStableFields.numbersRead h.2
  | null => trivial
  | bool b => trivial
  | string s => trivial

theorem IsStableItems.numbersRead {items : List Json} (h : IsStableItems items) :
    NumbersReadItems items := by
  cases items with
  | nil => trivial
  | cons item items => exact ⟨IsStable.numbersRead h.1, IsStableItems.numbersRead h.2⟩

theorem IsStableFields.numbersRead {fields : List (String × Json)} (h : IsStableFields fields) :
    NumbersReadFields fields := by
  cases fields with
  | nil => trivial
  | cons field fields => exact ⟨IsStable.numbersRead h.1, IsStableFields.numbersRead h.2⟩

end

mutual

theorem IsStable.toJson_ofJson {j : Json} (h : j.IsStable) : (JsonTree.ofJson j).toJson = j := by
  cases j with
  | int n =>
    rw [IsStable] at h
    rw [JsonTree.ofJson, JsonTree.toJson, h]
    rfl
  | float x =>
    rw [IsStable] at h
    rw [JsonTree.ofJson, JsonTree.toJson, h]
    rfl
  | array items =>
    rw [JsonTree.ofJson, JsonTree.toJson, IsStableItems.toJson_ofJson h]
  | object fields =>
    rw [JsonTree.ofJson, JsonTree.toJson, IsStableFields.toJson_ofJson h.2, ofFields_eq,
      sortFields_of_isSorted h.1]
  | null => rfl
  | bool b => rfl
  | string s => rfl

theorem IsStableItems.toJson_ofJson {items : List Json} (h : IsStableItems items) :
    JsonTree.toJsonItems (JsonTree.ofJsonItems items) = items := by
  cases items with
  | nil => rfl
  | cons item items =>
    rw [JsonTree.ofJsonItems, JsonTree.toJsonItems, IsStable.toJson_ofJson h.1,
      IsStableItems.toJson_ofJson h.2]

theorem IsStableFields.toJson_ofJson {fields : List (String × Json)} (h : IsStableFields fields) :
    JsonTree.toJsonFields (JsonTree.ofJsonFields fields) = fields := by
  cases fields with
  | nil => rfl
  | cons field fields =>
    obtain ⟨name, value⟩ := field
    rw [JsonTree.ofJsonFields, JsonTree.toJsonFields, IsStable.toJson_ofJson h.1,
      IsStableFields.toJson_ofJson h.2]

end

theorem isStable_marked {name : String} {body : Json} (h : body.IsStable) :
    (object [(name, body)]).IsStable :=
  ⟨List.pairwise_singleton _ _, h, trivial⟩

theorem isStable_pair {first second : String} (h : first < second) {a b : Json} (ha : a.IsStable)
    (hb : b.IsStable) : (object [(first, a), (second, b)]).IsStable := by
  refine ⟨?_, ha, hb, trivial⟩
  rw [IsSorted, List.pairwise_pair]
  exact h

theorem IsStable.value_chars {j : Json} (h : j.IsStable) {d : Nat}
    (hdepth : (JsonTree.ofJson j).depth < d) : Syntax.value d j.chars = .ok (j, []) := by
  have hread := JsonTree.value_plain (JsonTree.spells_ofJson h.numbersRead) hdepth Syntax.stops_nil
  rw [List.append_nil, h.toJson_ofJson] at hread
  exact hread

theorem IsStable.eq_of_text_eq {j j' : Json} (h : j.IsStable) (h' : j'.IsStable)
    (htext : j.text = j'.text) : j = j' := by
  have hchars : j.chars = j'.chars := String.ofList_injective htext
  have hread := h.value_chars (Nat.lt_succ_of_le (Nat.le_max_left _ (JsonTree.ofJson j').depth))
  have hread' := h'.value_chars (Nat.lt_succ_of_le (Nat.le_max_right (JsonTree.ofJson j).depth _))
  rw [hchars, hread', Except.ok.injEq, Prod.mk.injEq] at hread
  exact hread.1.symm

end Json
end DerivedQuery
