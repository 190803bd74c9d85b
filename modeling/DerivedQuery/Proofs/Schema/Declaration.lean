import DerivedQuery.Proofs.Json.Stable
import DerivedQuery.Repository.Cache

/-!
This module contains that a schema can be told from every other one by its declaration.
-/

namespace DerivedQuery

theorem ScalarType.code_injective : Function.Injective code := by
  intro a b h
  cases a <;> cases b <;> simp_all [code]

namespace EntitySchema

open Json (isStable_marked isStable_pair)

mutual

theorem isStable_toJson (s : EntitySchema) : s.toJson.IsStable := by
  obtain ⟨name, properties⟩ := s
  exact isStable_pair (by decide) trivial (isStable_propertiesToJson properties)

theorem isStable_propertiesToJson (properties : List Property) :
    Json.IsStableItems (propertiesToJson properties) := by
  cases properties with
  | nil => trivial
  | cons p properties =>
    obtain ⟨name, kind⟩ := p
    constructor
    · exact isStable_pair (by decide) (isStable_kindToJson kind) trivial
    · exact isStable_propertiesToJson properties

theorem isStable_kindToJson (kind : PropertyKind) : (kindToJson kind).IsStable := by
  cases kind with
  | scalar type => exact isStable_pair (by decide) trivial trivial
  | embedded s => exact isStable_pair (by decide) (isStable_toJson s) trivial
  | geoPoint => exact isStable_marked trivial
  | collection element => exact isStable_pair (by decide) (isStable_kindToJson element) trivial
  | reference entity => exact isStable_pair (by decide) trivial trivial

end

mutual

theorem eq_of_toJson_eq {s t : EntitySchema} (h : s.toJson = t.toJson) : s = t := by
  obtain ⟨name, properties⟩ := s
  obtain ⟨name', properties'⟩ := t
  simp only [toJson, Json.object.injEq, List.cons.injEq, Prod.mk.injEq, Json.string.injEq,
    Json.array.injEq, true_and, and_true] at h
  rw [h.1, eq_of_propertiesToJson_eq h.2]

theorem eq_of_propertiesToJson_eq {properties properties' : List Property}
    (h : propertiesToJson properties = propertiesToJson properties') :
    properties = properties' := by
  match properties, properties' with
  | [], [] => rfl
  | [], ⟨_, _⟩ :: _ => simp [propertiesToJson] at h
  | ⟨_, _⟩ :: _, [] => simp [propertiesToJson] at h
  | ⟨name, kind⟩ :: properties, ⟨name', kind'⟩ :: properties' =>
    simp only [propertiesToJson, Json.object.injEq, List.cons.injEq, Prod.mk.injEq,
      Json.string.injEq, true_and, and_true] at h
    rw [eq_of_kindToJson_eq h.1.1, h.1.2, eq_of_propertiesToJson_eq h.2]

theorem eq_of_kindToJson_eq {kind kind' : PropertyKind} (h : kindToJson kind = kindToJson kind') :
    kind = kind' := by
  -- kinds of different constructors have different tags
  cases kind <;> cases kind' <;> simp [kindToJson] at h
  case scalar.scalar => rw [ScalarType.code_injective h]
  case embedded.embedded => rw [eq_of_toJson_eq h]
  case geoPoint.geoPoint => rfl
  case collection.collection => rw [eq_of_kindToJson_eq h]
  case reference.reference => rw [h]

end

theorem eq_of_declaration_eq {s t : EntitySchema} (h : s.declaration = t.declaration) : s = t := by
  apply eq_of_toJson_eq
  apply (isStable_toJson s).eq_of_text_eq (isStable_toJson t)
  exact h

end EntitySchema
end DerivedQuery
