import DerivedQuery.Proofs.Query.Lead
import DerivedQuery.Proofs.Store.Failures
import DerivedQuery.Proofs.Store.LawfulSorts
import DerivedQuery.Proofs.Store.Pages

/-!
This module contains that the methods with the same clauses agree: what one of them lists is what
the others count, look for and take the first of.
-/

namespace DerivedQuery

/-! ### Selections -/

namespace Collection

theorem length_select (c : Collection) (filter : Filter) (options : FindOptions) {limit : Nat}
    (hskip : options.skip = none) (hlimit : options.limit = some limit) :
    (c.select filter options).length = min (c.matching filter).length limit := by
  rw [select, length_projected, hskip, hlimit, window, Option.getD_none, List.drop_zero,
    List.length_take, length_ordered, Nat.min_comm]

theorem head?_select (c : Collection) (filter : Filter) (options : FindOptions) {limit : Nat}
    (hlimit : options.limit = some limit) (hpos : 0 < limit) :
    (c.select filter { options with limit := some 1 }).head? = (c.select filter options).head? := by
  unfold select
  rw [projected_window, projected_window, hlimit]
  obtain ⟨n, rfl⟩ := Nat.exists_eq_add_of_lt hpos
  cases options.skip <;> simp [window, List.head?_take]

end Collection

namespace Execution

variable {settings : Settings} {spec : Specification} {s : Store} {result : Outcome Document}

/--
The number of documents that a query can hand back, by the settings and by the subject of its name.
-/
def allowance (settings : Settings) (limit : Option Nat) : Nat :=
  limit.elim settings.maxResultLimit (min settings.maxResultLimit)

theorem limit_options (hpage : spec.page = none) :
    (options settings spec).limit = some (allowance settings spec.limit) := by
  simp only [options, Specification.findOptions, hpage, allowance]

theorem skip_options (hpage : spec.page = none) : (options settings spec).skip = none := by
  simp only [options, Specification.findOptions, hpage, Option.map_none]

/-! ### Answers -/

/--
The query runs to its end with the result, however its matches are sorted, and leaves the collection
as it is. Documents are read as they are.
-/
structure Answers (settings : Settings) (spec : Specification) (s : Store)
    (result : Outcome Document) : Prop where
  order : HasOneOrder spec s.collection
  runs : ∃ s', run settings some spec s = .ok result s' ∧ s'.collection = s.collection

theorem answers_of_outcome {taken : Option Nat} (hsorts : SortAnswers spec s.collection)
    (h : AllOrNothing (outcome some spec (options settings spec)) taken s result) :
    Answers settings spec s result := by
  obtain ⟨s₁, houtcome, hleaves⟩ := h.clean
  obtain ⟨s₂, hrun, hcollection⟩ := run_of_outcome houtcome
  exact ⟨hsorts.hasOneOrder, s₂, hrun, hcollection.trans hleaves.collection_eq⟩

theorem answers_count (hshape : spec.shape = .count) (hlimit : spec.limit = none)
    (hfailure : s.collection.failure = none) :
    Answers settings spec s (.count (s.collection.matching spec.filter).length) := by
  have htotal := (allOrNothing_total spec hfailure).map (Outcome.count (γ := Document))
  rw [hlimit, Option.elim_none] at htotal
  apply answers_of_outcome (.inl hshape)
  unfold outcome
  rw [hshape]
  exact htotal

theorem answers_exists (hshape : spec.shape = .exists_) (hfailure : s.collection.failure = none) :
    Answers settings spec s (.exists_ (0 < (s.collection.matching spec.filter).length)) := by
  have hlength := s.collection.length_select spec.filter
    { projection := some ["_id"], limit := some 1 } rfl rfl
  have hsome : (s.collection.select spec.filter
      { projection := some ["_id"], limit := some 1 }).head?.isSome
        = decide (0 < (s.collection.matching spec.filter).length) := by
    rw [Bool.eq_iff_iff, decide_eq_true_iff, List.isSome_head?, ← List.length_pos_iff, hlength]
    omega
  rw [← hsome]
  apply answers_of_outcome (.inr (.inl hshape))
  unfold outcome
  rw [hshape]
  exact ((allOrNothing_findOne hfailure).map Option.isSome).map Outcome.exists_

theorem answers_list (hshape : spec.shape = .list) (hfailure : s.collection.failure = none)
    (hsorts : SortAnswers spec s.collection) :
    Answers settings spec s
      (.list (s.collection.select spec.filter (options settings spec))) := by
  have hread : (s.collection.select spec.filter (options settings spec)).mapM some
      = some (s.collection.select spec.filter (options settings spec)) :=
    List.mapM_pure.trans (congrArg some (List.map_id _))
  apply answers_of_outcome hsorts
  unfold outcome
  rw [hshape]
  exact (allOrNothing_collect hfailure hread).map Outcome.list

theorem answers_one (hshape : spec.shape = .one) (hfailure : s.collection.failure = none)
    (hsorts : SortAnswers spec s.collection) (hpage : spec.page = none)
    (hpos : 0 < allowance settings spec.limit) :
    Answers settings spec s
      (.one (s.collection.select spec.filter (options settings spec)).head?) := by
  have hread : ∀ d : Document, (some d).isSome = true := fun _ => rfl
  have hone := allOrNothing_one hread spec (options settings spec) hfailure
  rw [Option.bind_fun_some, Collection.head?_select _ _ _ (limit_options hpage) hpos] at hone
  apply answers_of_outcome hsorts
  unfold outcome
  rw [hshape]
  exact hone.map Outcome.one

theorem maxResultLimit_pos (h : settings.validate = .ok settings) : 0 < settings.maxResultLimit := by
  unfold Settings.validate at h
  split at h
  next => contradiction
  next =>
    split at h
    next => contradiction
    next =>
      rw [ite_eq_ok_iff] at h
      exact Nat.pos_of_ne_zero h.1

theorem allowance_pos (h : settings.validate = .ok settings) {limit : Option Nat}
    (hlimit : ∀ n ∈ limit, 0 < n) : 0 < allowance settings limit := by
  have hmax := maxResultLimit_pos h
  cases limit with
  | none => exact hmax
  | some n =>
    have hn := hlimit n rfl
    simp only [allowance, Option.elim_some]
    omega

end Execution

/-! ### Families of methods -/

/--
Something of each of four methods: those that ask for all matches, for the first of them, for their
number, and for whether there is any.
-/
structure Family (α : Type) where
  list : α
  one : α
  count : α
  exists_ : α

structure Family.Forall₂ {α β : Type} (R : α → β → Prop) (f : Family α) (g : Family β) : Prop where
  list : R f.list g.list
  one : R f.one g.one
  count : R f.count g.count
  exists_ : R f.exists_ g.exists_

open PartTree (IsLead nameOf)

def Signature.family (sig : Signature) (subject tail : List Char) : Family Signature where
  list := sig.renamed (nameOf "find" subject tail) none
  one := sig.renamed (nameOf "find" subject tail) (some .one)
  count := sig.renamed (nameOf "count" [] tail) none
  exists_ := sig.renamed (nameOf "exists" [] tail) none

def Specification.family (spec : Specification) (limit : Option Nat) (methods : Family String) :
    Family Specification where
  list := spec.reshaped methods.list .list limit
  one := spec.reshaped methods.one .one limit
  count := spec.reshaped methods.count .count none
  exists_ := spec.reshaped methods.exists_ .exists_ none

variable {sig : Signature} {schema : EntitySchema} {q : CompiledQuery} {subject tail : List Char}
  {limit : Option Nat}

theorem CompiledQuery.exists_family (hquery : sig.query = none)
    (hname : sig.name = nameOf "find" [] tail) (hcompile : compile sig schema = .ok q)
    (hlead : IsLead "find" subject .find limit) :
    ∃ qs : Family CompiledQuery,
      Family.Forall₂ (fun sig' q' => compile sig' schema = .ok q') (sig.family subject tail) qs
        ∧
      qs.Forall₂ (fun q' shape => q'.shape = shape) ⟨.list, .one, .count, .exists_⟩
        ∧
      qs.Forall₂ (Alike q) ⟨limit, limit, none, none⟩ := by
  have hcompiles {verb : String} {subject : List Char} {kind : QueryKind} {limit : Option Nat}
      (hlead : IsLead verb subject kind limit) :=
    exists_compile_nameOf hquery hname hcompile .find hlead
  obtain ⟨list, hlist, hlistShape, hlistAlike⟩ := hcompiles hlead none rfl rfl rfl
  obtain ⟨one, hone, honeShape, honeAlike⟩ := hcompiles hlead (some .one) rfl rfl rfl
  obtain ⟨count, hcount, hcountShape, hcountAlike⟩ := hcompiles .count none rfl rfl rfl
  obtain ⟨exists_, hexists, hexistsShape, hexistsAlike⟩ := hcompiles .exists_ none rfl rfl rfl
  refine ⟨⟨list, one, count, exists_⟩, ?_, ?_, ?_⟩
  · exact ⟨hlist, hone, hcount, hexists⟩
  · exact ⟨hlistShape, honeShape, hcountShape, hexistsShape⟩
  · exact ⟨hlistAlike, honeAlike, hcountAlike, hexistsAlike⟩

namespace Execution

/--
The answers to a family of queries agree with each other, and with the matches of the filter of the
query that they come from. Those that find documents answer if every sort of the matches does.
-/
structure Agrees (settings : Settings) (spec : Specification) (limit : Option Nat) (s : Store)
    (specs : Family Specification) : Prop where
  count : Answers settings specs.count s (.count (s.collection.matching spec.filter).length)
  exists_ : Answers settings specs.exists_ s
    (.exists_ (0 < (s.collection.matching spec.filter).length))
  found : settings.validate = .ok settings →
    Collection.SortAnswers (spec.sort.getD []) (s.collection.matching spec.filter) →
    ∃ documents,
      documents.length = min (s.collection.matching spec.filter).length (allowance settings limit)
        ∧
      Answers settings specs.list s (.list documents)
        ∧
      Answers settings specs.one s (.one documents.head?)

theorem agrees_family {settings : Settings} {spec : Specification} {s : Store}
    (hpage : spec.page = none) (hlimit : ∀ n ∈ limit, 0 < n) (hfailure : s.collection.failure = none)
    (methods : Family String) :
    Agrees settings spec limit s (spec.family limit methods) := by
  constructor
  case count => exact answers_count rfl rfl hfailure
  case exists_ => exact answers_exists rfl hfailure
  case found =>
    intro hsettings hsorts
    have hpos := allowance_pos hsettings hlimit
    refine ⟨_, ?_, answers_list rfl hfailure (.inr (.inr hsorts)),
      answers_one rfl hfailure (.inr (.inr hsorts)) hpage hpos⟩
    exact Collection.length_select _ _ _ (skip_options hpage) (limit_options hpage)

/--
Whatever tail is read behind the verb `find`: the methods with its clauses compile, their calls with
the same arguments are bound to the same filter, and their answers agree.
-/
theorem exists_agrees (hquery : sig.query = none) (hpage : .page ∉ sig.params)
    (hname : sig.name = nameOf "find" [] tail)
    (hcompile : CompiledQuery.compile sig schema = .ok q)
    (hlead : IsLead "find" subject .find limit) :
    ∃ qs : Family CompiledQuery,
      Family.Forall₂ (fun sig' q' => CompiledQuery.compile sig' schema = .ok q')
          (sig.family subject tail) qs
        ∧
      qs.Forall₂ q.Alike ⟨limit, limit, none, none⟩
        ∧
      ∀ args maxInSet spec, q.bind args maxInSet = .ok spec →
        ∃ specs : Family Specification,
          qs.Forall₂ (fun q' spec' => q'.bind args maxInSet = .ok spec' ∧ spec'.filter = spec.filter)
              specs
            ∧
          ∀ settings s, s.collection.failure = none → Agrees settings spec limit s specs := by
  obtain ⟨qs, hcompiles, hshapes, halike⟩ :=
    CompiledQuery.exists_family hquery hname hcompile hlead
  refine ⟨qs, hcompiles, halike, ?_⟩
  intro args maxInSet spec hbind
  have hspec := CompiledQuery.page_eq_none_of_bind hpage hcompile hbind
  have hbound {q' : CompiledQuery} {shape : ResultShape} {limit : Option Nat}
      (hshape : q'.shape = shape) (h : q.Alike q' limit) :
      q'.bind args maxInSet = .ok (spec.reshaped q'.signature.name shape limit)
        ∧
      (spec.reshaped q'.signature.name shape limit).filter = spec.filter := by
    rw [← hshape]
    exact ⟨h.bind hbind, rfl⟩
  refine ⟨spec.family limit ⟨qs.list.signature.name, qs.one.signature.name,
    qs.count.signature.name, qs.exists_.signature.name⟩, ?_, ?_⟩
  · constructor
    case list => exact hbound hshapes.list halike.list
    case one => exact hbound hshapes.one halike.one
    case count => exact hbound hshapes.count halike.count
    case exists_ => exact hbound hshapes.exists_ halike.exists_
  · intro settings s hfailure
    exact agrees_family hspec hlead.pos hfailure _

def markedBadges : Signature where
  entity := "Badge"
  name := "findByMarkIsNotNullOrderByMarkDesc"

theorem exists_agrees_badge :
    ∃ q spec,
      CompiledQuery.compile markedBadges badgeSchema = .ok q
        ∧
      q.bind [] 1000 = .ok spec
        ∧
      (badges.matching spec.filter).length = 3
        ∧
      ∃ specs,
        Agrees {} spec (some 2) { collection := badges } specs
          ∧
        ∃ documents,
          documents.length = 2 ∧ Answers {} specs.list { collection := badges } (.list documents) := by
  have hbinds : CompiledQuery.binds markedBadges badgeSchema [] 1000
      (fun spec => (badges.matching spec.filter).length = 3) = true := by
    decide +kernel
  obtain ⟨q, spec, hcompile, hbind, hspec⟩ := CompiledQuery.exists_of_binds hbinds
  have hname : markedBadges.name = nameOf "find" [] "MarkIsNotNullOrderByMarkDesc".toList := by
    decide +kernel
  have hlead : IsLead "find" ("Top".toList ++ ['2']) .find (some 2) :=
    .limited "Top" ['2'] (by decide) (by simp) (by decide) (by decide)
  have hmatches : (badges.matching spec.filter).length = 3 := of_decide_eq_true hspec
  have hsorts : Collection.SortAnswers (spec.sort.getD []) (badges.matching spec.filter) :=
    .inl (by omega)
  obtain ⟨qs, -, -, hagrees⟩ := exists_agrees rfl (by decide) hname hcompile hlead
  obtain ⟨specs, -, hagrees⟩ := hagrees [] 1000 spec hbind
  have hbadges := hagrees {} { collection := badges } rfl
  obtain ⟨documents, hlength, hlist, -⟩ := hbadges.found rfl hsorts
  rw [hmatches] at hlength
  exact ⟨q, spec, hcompile, hbind, hmatches, specs, hbadges, documents, hlength, hlist⟩

end Execution

end DerivedQuery
