import DerivedQuery.Proofs.Store.LawfulSorts
import DerivedQuery.Proofs.Store.Nearest

/-!
This module contains that sorting looks at every key, unless there are more than documents are
compared by: the first key under which two documents differ says which of them comes first. The
results of a query are in this order.
-/

namespace DerivedQuery

namespace Document

variable {a b d : Document} {key : SortKey} {keys before : SortKeys} {path : String}
  {documents : List Document}

/-! ### Keys -/

def IsReachable (path : String) : Prop :=
  path ≠ "" ∧ path.utf8ByteSize ≤ maxPathBytes ∧ (Text.split '.' path).length ≤ maxPathNames

instance (path : String) : Decidable (IsReachable path) :=
  inferInstanceAs (Decidable (_ ∧ _))

theorem lookup_of_isReachable (h : IsReachable path) (d : Document) :
    d.lookup path = walk (Text.split '.' path) d := by
  obtain ⟨hempty, hbytes, hnames⟩ := h
  unfold lookup
  rw [if_neg]
  · exact if_neg (Nat.not_lt.mpr hnames)
  · simpa using ⟨hempty, hbytes⟩

/--
The first value at the names of a key, however many there are.
-/
def valueUnder (key : SortKey) (d : Document) : Option Value :=
  (walk (Text.split '.' key.field) d).head?

/--
The order of what is found under a key. Nothing comes before every value.
-/
def compareFound : Option Value → Option Value → Ordering
  | some x, some y => x.compare y
  | some _, none => .gt
  | none, some _ => .lt
  | none, none => .eq

def orderUnder (key : SortKey) (a b : Document) : Ordering :=
  match key.direction with
  | .asc => compareFound (valueUnder key a) (valueUnder key b)
  | .desc => (compareFound (valueUnder key a) (valueUnder key b)).swap

theorem compareAt_eq_compareFound (h : IsReachable key.field) :
    compareAt key.field a b = compareFound (valueUnder key a) (valueUnder key b) := by
  unfold compareAt valueUnder
  rw [lookup_of_isReachable h, lookup_of_isReachable h]
  cases (walk (Text.split '.' key.field) a).head? <;>
    cases (walk (Text.split '.' key.field) b).head? <;> rfl

theorem compareByKeys_cons (h : IsReachable key.field) :
    compareByKeys a b (key :: keys) = (orderUnder key a b).then (compareByKeys a b keys) := by
  rw [compareByKeys, compareAt_eq_compareFound h]
  unfold orderUnder
  cases compareFound (valueUnder key a) (valueUnder key b) <;> cases key.direction <;> rfl

theorem compareByKeys_append (hreachable : ∀ k ∈ before, IsReachable k.field)
    (h : ∀ k ∈ before, orderUnder k a b = .eq) :
    compareByKeys a b (before ++ keys) = compareByKeys a b keys := by
  induction before with
  | nil => rfl
  | cons k before ih =>
    rw [List.forall_mem_cons] at hreachable h
    rw [List.cons_append, compareByKeys_cons hreachable.1, h.1, ih hreachable.2 h.2]
    rfl

/--
Every key counts: the first one under which two documents differ says which of them comes first.
-/
def IsSortedBy (keys : SortKeys) (documents : List Document) : Prop :=
  documents.Pairwise fun a b =>
    ∀ before key behind, keys = before ++ key :: behind →
      (∀ k ∈ before, orderUnder k a b = .eq) → orderUnder key a b ≠ .eq → orderUnder key a b = .lt

theorem isSortedBy_nil : IsSortedBy [] documents := by
  apply List.pairwise_of_forall
  intro a b before key behind hkeys
  simp at hkeys

theorem orderUnder_eq_lt {behind : SortKeys}
    (hreachable : ∀ k ∈ before ++ key :: behind, IsReachable k.field)
    (hle : compareByKeys a b (before ++ key :: behind) ≠ .gt)
    (hagree : ∀ k ∈ before, orderUnder k a b = .eq) (hdiffer : orderUnder key a b ≠ .eq) :
    orderUnder key a b = .lt := by
  rw [List.forall_mem_append, List.forall_mem_cons] at hreachable
  rw [compareByKeys_append hreachable.1 hagree, compareByKeys_cons hreachable.2.1] at hle
  cases horder : orderUnder key a b with
  | lt => rfl
  | eq => contradiction
  | gt =>
    rw [horder] at hle
    contradiction

/--
Every key can be looked up, and the documents have values under it that are in order.
-/
structure IsSortable (keys : SortKeys) (documents : List Document) : Prop where
  reachable : ∀ key ∈ keys, IsReachable key.field
  apart : ∀ a ∈ documents, ∀ b ∈ documents, ¬ MixedBy keys a b

theorem compareBy_eq (h : keys.length ≤ SortKeys.maxKeys) :
    compareBy keys a b = compareByKeys a b keys := by
  unfold compareBy
  rw [List.take_of_length_le h]

theorem IsSortable.isSortedBy (h : IsSortable keys documents)
    (hlength : keys.length ≤ SortKeys.maxKeys) :
    IsSortedBy keys (Collection.sortedBy keys documents) := by
  apply (InsertionSort.isStableSort (isPreorderOn_compareBy h.apart)).ascending.imp
  intro a b hle before key behind hkeys
  have hreachable := h.reachable
  rw [compareBy_eq hlength, hkeys] at hle
  rw [hkeys] at hreachable
  exact orderUnder_eq_lt hreachable hle

theorem IsSortable.isSortedBy_ordered {sort : Option SortKeys}
    (h : IsSortable (sort.getD []) documents) (hlength : (sort.getD []).length ≤ SortKeys.maxKeys)
    (filter : Filter) : IsSortedBy (sort.getD []) (Collection.ordered filter sort documents) := by
  cases sort with
  | none => exact isSortedBy_nil
  | some keys =>
    cases keys with
    | nil => exact isSortedBy_nil
    | cons key keys => exact h.isSortedBy hlength

end Document

/-! ### Results -/

variable {γ : Type} {read : EntityReader γ} {near : NearQuery} {documents : List Document}

/--
The ranking is that of what is read from the documents, and keeps the order at each distance.
-/
def Ranking.IsReadFrom (read : EntityReader γ) (near : NearQuery) (documents : List Document)
    (ranking : Ranking γ) : Prop :=
  ∃ listed,
    documents.mapM (Execution.readRanked read near) = some listed
      ∧
    ranking = .ofList listed
      ∧
    ∀ x, ranking.results.filter (·.distance = x) = listed.filter (·.distance = x)

theorem Ranking.isReadFrom_ofList {listed : List (Ranked γ)}
    (h : documents.mapM (Execution.readRanked read near) = some listed) :
    (ofList listed).IsReadFrom read near documents := by
  refine ⟨listed, h, rfl, ?_⟩
  intro x
  apply InsertionSort.filter_sort
  intro a _ hax b _ hbx
  rw [decide_eq_true_iff] at hax hbx
  rw [hax, hbx, Float64.totalCompare, compare_eq_iff_eq.mpr rfl]
  decide

/--
The outcome lists what is read from the documents, in their order, or ranks it by distance.
-/
def Outcome.Lists (read : EntityReader γ) (near : Option NearQuery) (documents : List Document) :
    Outcome γ → Prop
  | .list entities => documents.mapM read = some entities
  | .page p => documents.mapM read = some p.content
  | .geoResults ranking => ∃ point ∈ near, ranking.IsReadFrom read point documents
  | .geoPage p => ∃ point ∈ near, p.results.IsReadFrom read point documents
  | .one _ | .count _ | .exists_ _ => True

namespace Execution

variable {settings : Settings} {options : FindOptions} {spec : Specification} {s s' : Store}

theorem isReadFrom_of_ranked {ranking : Ranking γ}
    (h : ranked read spec options s = .ok ranking s') :
    ∃ point ∈ spec.near,
      ranking.IsReadFrom read point (s.collection.select spec.filter options) := by
  cases hnear : spec.near with
  | none =>
    simp only [ranked, hnear] at h
    cases h
  | some point =>
    simp only [ranked_eq_collect hnear, run_bind_eq_ok_iff] at h
    obtain ⟨listed, s₁, hcollect, h⟩ := h
    cases h
    exact ⟨point, rfl, Ranking.isReadFrom_ofList (collect_eq_ok hcollect).1⟩

theorem lists_of_outcome {result : Outcome γ}
    (h : outcome read spec options s = .ok result s') :
    result.Lists read spec.near (s.collection.select spec.filter options) := by
  unfold outcome at h
  cases hshape : spec.shape with
  | list =>
    simp only [hshape, run_bind_eq_ok_iff] at h
    obtain ⟨entities, s₁, hcollect, h⟩ := h
    cases h
    exact (collect_eq_ok hcollect).1
  | page =>
    simp only [hshape, run_bind_eq_ok_iff] at h
    obtain ⟨content, s₁, hcollect, n, s₂, -, h⟩ := h
    cases h
    exact (collect_eq_ok hcollect).1
  | geoResults =>
    simp only [hshape, run_bind_eq_ok_iff] at h
    obtain ⟨ranking, s₁, hranked, h⟩ := h
    cases h
    exact isReadFrom_of_ranked hranked
  | geoPage =>
    simp only [hshape, run_bind_eq_ok_iff] at h
    obtain ⟨ranking, s₁, hranked, n, s₂, -, h⟩ := h
    cases h
    exact isReadFrom_of_ranked hranked
  | one | count | exists_ =>
    simp only [hshape, run_bind_eq_ok_iff] at h
    obtain ⟨_, s₁, -, h⟩ := h
    cases h
    trivial

/--
The matching documents are put in the order of all keys, and the result is read from the part of
them that is handed back.
-/
theorem exists_isSortedBy_of_run {result : Outcome γ}
    (h : run settings read spec s = .ok result s')
    (hlength : (spec.sort.getD []).length ≤ SortKeys.maxKeys)
    (hsortable : Document.IsSortable (spec.sort.getD []) (s.collection.matching spec.filter)) :
    ∃ sorted,
      sorted.Perm (s.collection.matching spec.filter)
        ∧
      Document.IsSortedBy (spec.sort.getD []) sorted
        ∧
      result.Lists read spec.near
        (Collection.projected (spec.projection.map (keepingNear spec.near))
          (handedBack settings spec sorted)) := by
  obtain ⟨s₁, houtcome, -⟩ := run_eq_ok h
  have hlists := lists_of_outcome houtcome
  rw [select_eq_projected] at hlists
  exact ⟨_, Collection.ordered_perm .., hsortable.isSortedBy_ordered hlength spec.filter, hlists⟩

end Execution
end DerivedQuery
