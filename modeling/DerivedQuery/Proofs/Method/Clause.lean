import DerivedQuery.Method.Clause
import DerivedQuery.Proofs.Traversal

/-!
This module contains when a clause is read from a text, and that this does not depend on the method
that the text belongs to.
-/

namespace DerivedQuery
namespace Clause

structure Fits (path : PropertyPath) (op : Operator) (ignoring : Option String) : Prop where
  geo : ¬ (op.isGeo && !path.isGeo) = true
  textual : ∀ ending, ignoring = some ending → supportsIgnoreCase op path = true
  pattern : ¬ (op.isPattern && (path.leaf == .scalar .number || path.leaf == .scalar .boolean ||
      path.leaf == .scalar .date)) = true
  boolean : ¬ ((op == .true_ || op == .false_) && path.leaf != .scalar .boolean &&
      path.leaf != .scalar .any) = true

theorem checkIgnoreCase_eq_ok_iff {method : String} {path : PropertyPath} {op : Operator}
    {ignoring : Option String} {u : Unit} :
    checkIgnoreCase method path op ignoring = .ok u
      ↔
    ∀ ending, ignoring = some ending → supportsIgnoreCase op path = true := by
  cases ignoring with
  | none => simp [checkIgnoreCase]
  | some ending =>
    unfold checkIgnoreCase
    split <;> simp_all

theorem check_eq_ok_iff {method : String} {path : PropertyPath} {op : Operator}
    {ignoring : Option String} {u : Unit} :
    check method path op ignoring = .ok u ↔ Fits path op ignoring := by
  unfold check checkGeo checkPattern checkBoolean
  simp only [bind_eq_ok_iff, checkIgnoreCase_eq_ok_iff, ite_eq_ok_iff, and_true]
  constructor
  · rintro ⟨_, hgeo, _, htextual, _, hpattern, hboolean⟩
    exact ⟨hgeo, htextual, hpattern, hboolean⟩
  · intro h
    exact ⟨(), h.geo, (), h.textual, (), h.pattern, h.boolean⟩

theorem read_eq_ok_iff {s : EntitySchema} {method : String} {all : Bool} {fragment : List Char}
    {clause : Clause} :
    read s method all fragment = .ok clause
      ↔
    resolve s method (takeIgnoreCase fragment).1 = .ok (clause.path, clause.operator)
      ∧
    Fits clause.path clause.operator (takeIgnoreCase fragment).2
      ∧
    clause.source = fragment
      ∧
    clause.ignoreCase = ((takeIgnoreCase fragment).2.isSome ||
      (all && supportsIgnoreCase clause.operator clause.path)) := by
  unfold read
  dsimp only
  rw [bind_eq_ok_iff]
  constructor
  · rintro ⟨⟨path, op⟩, hresolve, h⟩
    rw [bind_eq_ok_iff] at h
    obtain ⟨u, hcheck, h⟩ := h
    cases h
    exact ⟨hresolve, check_eq_ok_iff.mp hcheck, rfl, rfl⟩
  · rintro ⟨hresolve, hfits, hsource, hignore⟩
    refine ⟨_, hresolve, ?_⟩
    rw [bind_eq_ok_iff]
    refine ⟨(), check_eq_ok_iff.mpr hfits, ?_⟩
    dsimp only
    rw [← hignore, ← hsource]
    rfl

/-! ### The method a text belongs to -/

variable {s : EntitySchema} (method other : String)

theorem firstReading?_method {readings : List (List Char × Operator)}
    {result : PropertyPath × Operator} (h : firstReading? s method readings = some (.ok result)) :
    firstReading? s other readings = some (.ok result) := by
  induction readings with
  | nil => contradiction
  | cons reading readings ih =>
    obtain ⟨property, op⟩ := reading
    rw [firstReading?] at h ⊢
    cases hresolution : Resolution.of s property with
    | found path =>
      rw [hresolution] at h
      exact h
    | ambiguous candidates =>
      rw [hresolution] at h
      simp at h
    | missing =>
      -- only a property that is missing lets the next reading be tried
      rw [hresolution] at h
      exact ih h

theorem resolve_method {body : List Char} {result : PropertyPath × Operator}
    (h : resolve s method body = .ok result) : resolve s other body = .ok result := by
  unfold resolve at h ⊢
  cases hreading : firstReading? s method (readings body) with
  | none =>
    rw [hreading] at h
    contradiction
  | some first =>
    rw [hreading] at h
    dsimp only at h
    subst h
    rw [firstReading?_method method other hreading]

theorem read_method {all : Bool} {fragment : List Char} {clause : Clause}
    (h : read s method all fragment = .ok clause) : read s other all fragment = .ok clause := by
  rw [read_eq_ok_iff] at h ⊢
  exact ⟨resolve_method method other h.1, h.2⟩

end Clause

theorem PropertyPath.resolve_method {s : EntitySchema} (method other : String) {token : List Char}
    {path : PropertyPath} (h : resolve s token method = .ok path) :
    resolve s token other = .ok path := by
  unfold resolve at h ⊢
  cases hresolution : Resolution.of s token with
  | found path =>
    rw [hresolution] at h
    exact h
  | ambiguous candidates =>
    rw [hresolution] at h
    contradiction
  | missing =>
    rw [hresolution] at h
    contradiction

theorem OrderClause.read_eq_ok_iff {s : EntitySchema} {method : String} {item : OrderItem}
    {clause : OrderClause} :
    read s method item = .ok clause
      ↔
    clause.item = item ∧ PropertyPath.resolve s item.token method = .ok clause.path := by
  unfold read
  rw [bind_eq_ok_iff]
  constructor
  · rintro ⟨path, hpath, h⟩
    cases h
    exact ⟨rfl, hpath⟩
  · rintro ⟨hitem, hpath⟩
    refine ⟨_, hpath, ?_⟩
    rw [← hitem]
    rfl

end DerivedQuery
