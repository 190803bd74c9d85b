import DerivedQuery.Proofs.Json.Tree
import DerivedQuery.Proofs.Traversal

/-!
This module contains that the bound on nesting decides only whether a text is read, not what is read
from it.
-/

namespace DerivedQuery

def Refines {ε α : Type} (x y : Except ε α) : Prop :=
  ∀ a, x = .ok a → y = .ok a

namespace Refines

variable {ε α β : Type} {x y x' y' : Except ε α}

theorem refl (x : Except ε α) : Refines x x :=
  fun _ h => h

theorem error (e : ε) (x : Except ε α) : Refines (.error e) x := by
  intro a h
  contradiction

theorem bind {f f' : α → Except ε β} (hx : Refines x y) (hf : ∀ a, Refines (f a) (f' a)) :
    Refines (x >>= f) (y >>= f') := by
  intro b h
  rw [bind_eq_ok_iff] at h ⊢
  obtain ⟨a, ha, hb⟩ := h
  exact ⟨a, hx a ha, hf a b hb⟩

theorem ite {p : Prop} [Decidable p] (hx : Refines x x') (hy : Refines y y') :
    Refines (if p then x else y) (if p then x' else y') := by
  split
  · exact hx
  · exact hy

end Refines

namespace Json
namespace Syntax

section
variable {item item' : Reader Json} (hitem : ∀ s, Refines (item s) (item' s))
include hitem

theorem refines_itemThen {others others' : Reader (List Json)}
    (hothers : ∀ s, Refines (others s) (others' s)) (s : List Char) :
    Refines (itemThen item others s) (itemThen item' others' s) := by
  unfold itemThen
  apply (hitem s).bind
  intro r
  exact (hothers r.2).bind fun _ => .refl _

theorem refines_fieldThen {others others' : Reader (List (String × Json))}
    (hothers : ∀ s, Refines (others s) (others' s)) (s : List Char) :
    Refines (fieldThen item others s) (fieldThen item' others' s) := by
  unfold fieldThen
  apply (Refines.refl (string s)).bind
  rintro ⟨name, rest⟩
  dsimp only
  cases skipBlanks rest with
  | nil => exact .refl _
  | cons c rest =>
    apply Refines.ite _ (.refl _)
    apply (hitem rest).bind
    intro r
    exact (hothers r.2).bind fun _ => .refl _

theorem refines_items (fuel : Nat) (first : Bool) (s : List Char) :
    Refines (items item fuel first s) (items item' fuel first s) := by
  induction fuel generalizing first s with
  | zero => exact .refl _
  | succ fuel ih =>
    have hmore := refines_itemThen hitem (ih false)
    unfold items
    cases skipBlanks s with
    | nil => exact .refl _
    | cons c rest =>
      apply Refines.ite (.refl _)
      apply Refines.ite (hmore _)
      apply Refines.ite _ (.refl _)
      cases skipBlanks rest with
      | nil => exact .refl _
      | cons d rest => exact .ite (.refl _) (hmore _)

theorem refines_fields (fuel : Nat) (first : Bool) (s : List Char) :
    Refines (fields item fuel first s) (fields item' fuel first s) := by
  induction fuel generalizing first s with
  | zero => exact .refl _
  | succ fuel ih =>
    have hmore := refines_fieldThen hitem (ih false)
    unfold fields
    cases skipBlanks s with
    | nil => exact .refl _
    | cons c rest =>
      apply Refines.ite (.refl _)
      apply Refines.ite (.ite (hmore _) (.refl _))
      apply Refines.ite _ (.refl _)
      cases skipBlanks rest with
      | nil => exact .refl _
      | cons d rest => exact .ite (hmore _) (.refl _)

end

theorem refines_value_succ (d : Nat) (s : List Char) : Refines (value d s) (value (d + 1) s) := by
  induction d generalizing s with
  | zero => exact .error _ _
  | succ d ih =>
    rw [value, value]
    cases skipBlanks s with
    | nil => exact .refl _
    | cons c rest =>
      -- only containers look at the bound
      iterate 6 apply Refines.ite (.refl _)
      have hcontainer : ∀ {α : Type} {rest : List Char} {x y : Except Fault α},
          Refines x y →
          Refines (if d = 0 then failAfter .recursionLimit rest else x)
            (if d + 1 = 0 then failAfter .recursionLimit rest else y) := by
        intro α rest x y hxy
        rw [if_neg (by omega : ¬ d + 1 = 0)]
        split
        · exact .error _ _
        · exact hxy
      apply Refines.ite
      · exact hcontainer ((refines_items ih _ _ _).bind fun _ => .refl _)
      · apply Refines.ite _ (.refl _)
        exact hcontainer ((refines_fields ih _ _ _).bind fun _ => .refl _)

theorem refines_value {d d' : Nat} (h : d ≤ d') (s : List Char) :
    Refines (value d s) (value d' s) := by
  induction h with
  | refl => exact .refl _
  | step _ ih =>
    intro r hr
    exact refines_value_succ _ s r (ih r hr)

theorem refines_document {d d' : Nat} (h : d ≤ d') (s : List Char) :
    Refines (document d s) (document d' s) := by
  unfold document
  exact (refines_value h s).bind fun _ => .refl _

end Syntax
end Json

namespace JsonTree

/--
What is read from a text within any bound is what its syntax tree stands for.
-/
theorem eq_toJson_of_document {f : List Char → JsonTree} {g : List Char → List Char}
    (hreads : Reads f g) {t : JsonTree} {ps : List TemplatePart} (h : t.IsSyntaxOf ps) {d : Nat}
    {j : Json} (hj : Json.Syntax.document d (text g ps) = .ok j) : j = (t.fill f).toJson := by
  have hwide := Json.Syntax.refines_document (Nat.le_max_left d ((t.fill f).depth + 1)) _ j hj
  have hdepth : (t.fill f).depth < max d ((t.fill f).depth + 1) := by omega
  rw [document_text hreads h hdepth, Except.ok.injEq] at hwide
  exact hwide.symm

end JsonTree
end DerivedQuery
