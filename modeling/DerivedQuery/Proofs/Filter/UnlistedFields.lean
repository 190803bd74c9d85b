import DerivedQuery.Proofs.Filter.ListedFields
import Mathlib.Data.List.Basic

/-!
This module contains that a projection shows nothing beyond what it lists: whatever it holds lies at
`_id`, on the way to a listed field, or behind one.
-/

namespace DerivedQuery
namespace Document

variable {names : List String} {d other target : Document} {path field : String}
  {fields listed : List String}

/--
The names lead to the field `_id`, to a part of the way to a listed field, or on from one.
-/
inductive IsShown (fields : List String) (names : List String) : Prop where
  | id (h : names.head? = some "_id")
  | onWay {field : String} (mem : field ∈ fields) (h : names <+: Text.split '.' field)
  | behind {field : String} (mem : field ∈ fields) (h : Text.split '.' field <+: names)

theorem isShown_of_walk_copyPath (hfield : field ∈ fields)
    (htarget : ∀ names, walk names target ≠ [] → IsShown fields names)
    (h : walk names (d.copyPath target field) ≠ []) : IsShown fields names := by
  unfold copyPath at h
  split at h
  next => exact htarget names h
  next value hvalue =>
    apply leads_of_walk_insertAt (IsShown fields) (split_ne_nil field) htarget _ _ h
    · intro front _ hfront
      exact .onWay hfield hfront
    · intro rest _
      exact .behind hfield (List.prefix_append _ rest)

theorem isShown_of_walk_foldl_copyPath (hlisted : ∀ field ∈ listed, field ∈ fields)
    (htarget : ∀ names, walk names target ≠ [] → IsShown fields names)
    (h : walk names (listed.foldl (copyPath d) target) ≠ []) : IsShown fields names := by
  induction listed generalizing target with
  | nil => exact htarget names h
  | cons field listed ih =>
    rw [List.forall_mem_cons] at hlisted
    apply ih hlisted.2 _ h
    intro names hnames
    exact isShown_of_walk_copyPath hlisted.1 htarget hnames

theorem isShown_of_walk_project (h : walk names (d.project fields) ≠ []) :
    IsShown fields names := by
  unfold project at h
  refine isShown_of_walk_foldl_copyPath (fun field => List.mem_of_mem_take) ?_ h
  -- before the first copy there is at most the field `_id`
  intro names hnames
  cases names with
  | nil => contradiction
  | cons name names =>
    rw [walk_cons] at hnames
    split at hnames
    next id _ =>
      rw [get?] at hnames
      split at hnames
      next heq => exact .id (congrArg some heq.symm)
      next => contradiction
    next => contradiction

theorem copyPath_congr (h : (other.lookup field).head? = (d.lookup field).head?)
    (target : Document) : other.copyPath target field = d.copyPath target field := by
  unfold copyPath
  rw [h]

theorem project_congr (hid : other.get? "_id" = d.get? "_id")
    (h : ∀ field ∈ fields, (other.lookup field).head? = (d.lookup field).head?) :
    other.project fields = d.project fields := by
  unfold project
  rw [hid]
  apply List.foldl_ext
  intro target field hfield
  exact copyPath_congr (h field (List.mem_of_mem_take hfield)) target

/--
A projection has nothing at a path that begins with another field than `_id` and neither leads to a
listed field nor on from one. Nor does anything else of the document have a bearing on it: documents
with the same `_id` and the same first values of the listed fields have the same projection.
-/
theorem lookup_project_unlisted (hid : (Text.split '.' path).head? ≠ some "_id")
    (h : ∀ field ∈ fields, ¬ Leads path field ∧ ¬ Leads field path) :
    (d.project fields).lookup path = []
      ∧
    ∀ other : Document, other.get? "_id" = d.get? "_id" →
      (∀ field ∈ fields, (other.lookup field).head? = (d.lookup field).head?) →
      other.project fields = d.project fields := by
  refine ⟨?_, fun other => project_congr⟩
  cases hfound : (d.project fields).lookup path with
  | nil => rfl
  | cons value values =>
    have hne : (d.project fields).lookup path ≠ [] := by simp [hfound]
    rw [lookup_eq_walk hne] at hne
    cases isShown_of_walk_project hne with
    | id hhead => exact absurd hhead hid
    | onWay hmem hway => exact absurd hway (h _ hmem).1
    | behind hmem hbehind => exact absurd hbehind (h _ hmem).2

def patient : Document :=
  [("_id", .string "1"), ("name", .document [("first", .string "Ann"), ("last", .string "Lee")]),
    ("visits", .array [.document [("day", .string "Mon"), ("note", .string "x")]])]

def patientFields : List String :=
  ["name.first", "visits.day", "name.first.initial"]

theorem lookup_project_unlisted_patient :
    (Text.split '.' "visits.note").head? ≠ some "_id"
      ∧ (∀ field ∈ patientFields, ¬ Leads "visits.note" field ∧ ¬ Leads field "visits.note")
      ∧
    (patient.project patientFields).lookup "visits.note" = [] := by
  have hid : (Text.split '.' "visits.note").head? ≠ some "_id" := by
    decide +kernel
  have hfields : ∀ field ∈ patientFields,
      ¬ Leads "visits.note" field ∧ ¬ Leads field "visits.note" := by
    unfold Leads
    decide +kernel
  exact ⟨hid, hfields, (lookup_project_unlisted hid hfields).1⟩

end Document
end DerivedQuery
