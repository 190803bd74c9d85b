import DerivedQuery.Filter.Evaluation

/-!
This module contains when a projection keeps the value at a path: what is copied after it must not
take its place. A path that leads through documents only is followed with `reach?`.
-/

namespace DerivedQuery
namespace Document

/--
The value at a path of names that leads through documents only.
-/
def reach? : List String → Document → Option Value
  | [], _ => none
  | [name], d => d.get? name
  | name :: next :: names, d =>
    match d.get? name with
    | some (.document inner) => reach? (next :: names) inner
    | _ => none

variable {names others front rest : List String} {d target : Document} {value other : Value}

theorem walk_of_reach? (h : reach? names d = some value) : walk names d = [value] := by
  induction names generalizing d with
  | nil => contradiction
  | cons name names ih =>
    cases names with
    | nil =>
      unfold reach? at h
      rw [walk, h]
      rfl
    | cons next names =>
      unfold reach? at h
      split at h
      next inner hinner =>
        rw [walk, hinner]
        exact ih h
      next => contradiction

theorem reach?_append (hrest : rest ≠ []) (h : reach? (front ++ rest) d = some value)
    (hfront : front ≠ []) :
    ∃ inner, reach? front d = some (.document inner) ∧ reach? rest inner = some value := by
  induction front generalizing d with
  | nil => contradiction
  | cons name front ih =>
    obtain ⟨next, names, hnext⟩ : ∃ next names, front ++ rest = next :: names :=
      List.exists_cons_of_ne_nil (by simp [hrest])
    rw [List.cons_append, hnext] at h
    unfold reach? at h
    split at h
    next inner hinner =>
      cases front with
      | nil => exact ⟨inner, hinner, by rwa [← hnext] at h⟩
      | cons next' front =>
        rw [← hnext] at h
        obtain ⟨inner', hfront, hrest⟩ := ih h (by simp)
        refine ⟨inner', ?_, hrest⟩
        rw [reach?, hinner]
        exact hfront
    next => contradiction

/-! ### Insertion -/

def innerAt (d : Document) (name : String) : Document :=
  match d.get? name with
  | some (.document inner) => inner
  | _ => []

theorem insertAt_cons (name : String) (hrest : rest ≠ []) (value : Value) (d : Document) :
    insertAt (name :: rest) value d
      =
    d.insert name (.document (insertAt rest value (d.innerAt name))) := by
  cases rest with
  | nil => contradiction
  | cons next rest => rfl

theorem get?_insertAt_of_ne {name other : String} (hne : name ≠ other) (value : Value)
    (d : Document) : (insertAt (other :: rest) value d).get? name = d.get? name := by
  cases rest with
  | nil => exact get?_insert_of_ne d value hne
  | cons next rest => exact get?_insert_of_ne d _ hne

theorem reach?_insertAt_self (hnames : names ≠ []) :
    reach? names (insertAt names value target) = some value := by
  induction names generalizing target with
  | nil => contradiction
  | cons name names ih =>
    cases names with
    | nil => exact get?_insert_self ..
    | cons next names =>
      rw [insertAt_cons name (by simp), reach?, get?_insert_self]
      exact ih (by simp)

theorem reach?_insertAt_of_apart (hfront : ¬ others <+: names) (hbehind : ¬ names <+: others)
    (h : reach? names target = some value) :
    reach? names (insertAt others other target) = some value := by
  induction names generalizing others target with
  | nil => exact absurd List.nil_prefix hbehind
  | cons name names ih =>
    cases others with
    | nil => exact absurd List.nil_prefix hfront
    | cons name' others =>
      by_cases hname : name = name'
      · subst hname
        rw [List.cons_prefix_cons, not_and] at hfront hbehind
        have hfront := hfront rfl
        have hbehind := hbehind rfl
        obtain ⟨next, names, rfl⟩ := List.exists_cons_of_ne_nil
          (fun hnil : names = [] => hbehind (hnil ▸ List.nil_prefix))
        have hothers : others ≠ [] := fun hnil => hfront (hnil ▸ List.nil_prefix)
        rw [reach?] at h
        split at h
        next inner hinner =>
          rw [insertAt_cons name hothers, reach?, get?_insert_self, innerAt, hinner]
          exact ih hfront hbehind h
        next => contradiction
      · cases names with
        | nil => rwa [reach?, get?_insertAt_of_ne hname]
        | cons next names =>
          rw [reach?] at h ⊢
          rwa [get?_insertAt_of_ne hname]

theorem reach?_insertAt_of_leading {inner : Document} (hfront : front ≠ []) (hrest : rest ≠ []) :
    reach? (front ++ rest) (insertAt front (.document inner) target) = reach? rest inner := by
  obtain ⟨next, names, rfl⟩ := List.exists_cons_of_ne_nil hrest
  induction front generalizing target with
  | nil => contradiction
  | cons name front ih =>
    cases front with
    | nil => rw [List.singleton_append, insertAt, reach?, get?_insert_self]
    | cons name' front =>
      rw [insertAt_cons name (by simp), List.cons_append, List.cons_append, reach?,
        get?_insert_self]
      exact ih (by simp)

/-! ### Copies -/

def Leads (path longer : String) : Prop :=
  Text.split '.' path <+: Text.split '.' longer

/--
Copying the field puts nothing into the way of the path: the field is the path itself, neither is a
part of the other, or the field leads to the path through documents only.
-/
inductive Spares (d : Document) (path field : String) : Prop where
  | same (h : field = path)
  | apart (before : ¬ Leads field path) (behind : ¬ Leads path field)
  | leading (leads : Leads field path) (direct : (d.reach? (Text.split '.' path)).isSome = true)

variable {path field : String} {fields : List String}

theorem lookup_eq_walk (h : d.lookup path ≠ []) (target : Document) :
    target.lookup path = walk (Text.split '.' path) target := by
  unfold lookup at h ⊢
  split at h
  next => contradiction
  next hbytes =>
    dsimp only at h
    split at h
    next => contradiction
    next hnames =>
      rw [if_neg hbytes]
      exact if_neg hnames

theorem split_ne_nil (path : String) : Text.split '.' path ≠ [] := by
  unfold Text.split
  rw [ne_eq, List.map_eq_nil_iff]
  exact Text.splitOn_ne_nil '.' path.toList

theorem reach?_copyPath_self (h : d.lookup path = [value]) (target : Document) :
    reach? (Text.split '.' path) (d.copyPath target path) = some value := by
  unfold copyPath
  rw [h]
  exact reach?_insertAt_self (split_ne_nil path)

theorem reach?_copyPath_of_leads (hleads : Leads field path)
    (hsource : reach? (Text.split '.' path) d = some value)
    (h : reach? (Text.split '.' path) target = some value) :
    reach? (Text.split '.' path) (d.copyPath target field) = some value := by
  unfold copyPath
  cases hfound : d.lookup field with
  | nil => exact h
  | cons first found =>
    have hwalk : d.lookup field = walk (Text.split '.' field) d :=
      lookup_eq_walk (d := d) (by simp [hfound]) d
    rw [hfound] at hwalk
    rw [List.head?_cons]
    obtain ⟨rest, hrest⟩ := hleads
    rw [← hrest] at hsource ⊢
    by_cases hnil : rest = []
    · -- the field has the same names as the path
      rw [hnil, List.append_nil] at hsource ⊢
      rw [walk_of_reach? hsource, List.cons.injEq] at hwalk
      rw [hwalk.1]
      exact reach?_insertAt_self (split_ne_nil field)
    · obtain ⟨inner, hfront, hinner⟩ := reach?_append hnil hsource (split_ne_nil field)
      rw [walk_of_reach? hfront, List.cons.injEq] at hwalk
      rw [hwalk.1]
      exact (reach?_insertAt_of_leading (split_ne_nil field) hnil).trans hinner

theorem reach?_copyPath (hvalue : d.lookup path = [value]) (hspares : d.Spares path field)
    (h : reach? (Text.split '.' path) target = some value) :
    reach? (Text.split '.' path) (d.copyPath target field) = some value := by
  cases hspares with
  | same heq =>
    rw [heq]
    exact reach?_copyPath_self hvalue target
  | apart hbefore hbehind =>
    unfold copyPath
    split
    next => exact h
    next => exact reach?_insertAt_of_apart hbefore hbehind h
  | leading hleads hdirect =>
    obtain ⟨found, hfound⟩ := Option.isSome_iff_exists.mp hdirect
    have hwalk : d.lookup path = walk (Text.split '.' path) d :=
      lookup_eq_walk (d := d) (by simp [hvalue]) d
    rw [hvalue, walk_of_reach? hfound, List.cons.injEq] at hwalk
    rw [← hwalk.1] at hfound
    exact reach?_copyPath_of_leads hleads hfound h

theorem reach?_foldl_copyPath
    (hkeeps : ∀ field ∈ fields, ∀ target, reach? (Text.split '.' path) target = some value →
      reach? (Text.split '.' path) (d.copyPath target field) = some value)
    (h : reach? (Text.split '.' path) target = some value) :
    reach? (Text.split '.' path) (fields.foldl (copyPath d) target) = some value := by
  induction fields generalizing target with
  | nil => exact h
  | cons field fields ih =>
    rw [List.forall_mem_cons] at hkeeps
    exact ih hkeeps.2 (hkeeps.1 target h)

theorem lookup_project_of_keeps {before behind : List String} (hvalue : d.lookup path = [value])
    (hfields : fields.take maxProjectionFields = before ++ path :: behind)
    (hkeeps : ∀ field ∈ behind, ∀ target, reach? (Text.split '.' path) target = some value →
      reach? (Text.split '.' path) (d.copyPath target field) = some value) :
    (d.project fields).lookup path = [value] := by
  unfold project
  dsimp only
  rw [hfields, List.foldl_append, List.foldl_cons, lookup_eq_walk (d := d) (by simp [hvalue])]
  exact walk_of_reach? (reach?_foldl_copyPath hkeeps (reach?_copyPath_self hvalue _))

/--
A projection keeps the only value at a path that it has, if no field behind it gets into the way.
-/
theorem lookup_project {before behind : List String} (hvalue : d.lookup path = [value])
    (hfields : fields.take maxProjectionFields = before ++ path :: behind)
    (hspares : ∀ field ∈ behind, d.Spares path field) :
    (d.project fields).lookup path = [value] := by
  apply lookup_project_of_keeps hvalue hfields
  intro field hfield target h
  exact reach?_copyPath hvalue (hspares field hfield) h

end Document
end DerivedQuery
