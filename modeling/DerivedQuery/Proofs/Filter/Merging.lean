import DerivedQuery.Proofs.Filter.Reading

/-!
This module contains that merging query documents conjoins their meanings, whether their fields go
together in one document or not.
-/

namespace DerivedQuery
namespace Filter

/-! ### Meanings of documents -/

/--
Names of operators, where those that only give context to another one stand beside it.
-/
structure IsClosed (names : List String) : Prop where
  nonempty : names ≠ []
  operators : ∀ name ∈ names, isOperatorName name = true
  options : "$options" ∈ names → "$regex" ∈ names
  distance : "$maxDistance" ∈ names → "$near" ∈ names
  sphere : "$nearSphere" ∉ names

instance (names : List String) : Decidable (IsClosed names) :=
  decidable_of_iff
    (names ≠ [] ∧ (∀ name ∈ names, isOperatorName name = true)
      ∧ ("$options" ∈ names → "$regex" ∈ names) ∧ ("$maxDistance" ∈ names → "$near" ∈ names)
      ∧ "$nearSphere" ∉ names)
    ⟨fun ⟨h1, h2, h3, h4, h5⟩ => ⟨h1, h2, h3, h4, h5⟩,
      fun h => ⟨h.nonempty, h.operators, h.options, h.distance, h.sphere⟩⟩

structure OperatorsMean (path : String) (ops : Document) (P : Meaning) : Prop where
  closed : IsClosed ops.keys
  reads : ReadsAs (ofOperators path (FieldContext.of ops) ops) P

/--
The field means `P`. Only operators can be added to, so what they mean is known on its own.
-/
inductive FieldMeans (key : String) : Value → Meaning → Prop where
  | operators {ops : Document} {P : Meaning} (plain : isOperatorName key = false)
      (means : OperatorsMean key ops P) : FieldMeans key (.document ops) P
  | other {value : Value} {f : Filter} {P : Meaning}
      (plain : ∀ ops, value = .document ops → Document.isOperators ops = false)
      (reads : ofEntry key value = .ok f) (eval : ∀ d, eval d f = P d) : FieldMeans key value P

inductive DocumentMeans : Document → Meaning → Prop where
  | nil : DocumentMeans [] fun _ => true
  | cons {key : String} {value : Value} {fields : Document} {P Q : Meaning}
      (first : FieldMeans key value P) (rest : DocumentMeans fields Q) :
      DocumentMeans ((key, value) :: fields) fun d => P d && Q d

theorem IsClosed.isOperators {ops : Document} (h : IsClosed ops.keys) :
    Document.isOperators ops = true := by
  rw [Document.isOperators_eq, Bool.and_eq_true, List.all_eq_true]
  exact ⟨by simpa using h.nonempty, h.operators⟩

theorem FieldMeans.exists_ofEntry {key : String} {value : Value} {P : Meaning}
    (h : FieldMeans key value P) : ∃ f, ofEntry key value = .ok f ∧ ∀ d, eval d f = P d := by
  cases h with
  | @operators ops _ hplain hmeans =>
    obtain ⟨fs, hfs, hP⟩ := hmeans.reads
    refine ⟨conjoin fs, ?_, ?_⟩
    · rw [ofEntry_of_plain _ hplain, ofField, if_pos hmeans.closed.isOperators, hfs]
      rfl
    · intro d
      rw [eval_conjoin, hP]
  | other _ hreads heval => exact ⟨_, hreads, heval⟩

theorem DocumentMeans.reads {q : Document} {P : Meaning} (h : DocumentMeans q P) :
    ReadsAs (ofFields q) P := by
  induction h with
  | nil => exact ⟨[], rfl, fun _ => rfl⟩
  | cons hfirst _ ih =>
    obtain ⟨f, hf, heval⟩ := hfirst.exists_ofEntry
    exact ih.cons hf heval

theorem DocumentMeans.congr {q : Document} {P Q : Meaning} (h : DocumentMeans q P)
    (heq : ∀ d, P d = Q d) : DocumentMeans q Q := by
  have hfun : P = Q := funext heq
  rwa [← hfun]

theorem documentMeans_singleton {key : String} {value : Value} {P : Meaning}
    (h : FieldMeans key value P) : DocumentMeans [(key, value)] P := by
  apply (DocumentMeans.cons h .nil).congr
  intro d
  rw [Bool.and_true]

theorem documentMeans_append_iff {a b : Document} {R : Meaning} :
    DocumentMeans (a ++ b) R
      ↔
    ∃ P Q, DocumentMeans a P ∧ DocumentMeans b Q ∧ ∀ d, R d = (P d && Q d) := by
  induction a generalizing R with
  | nil =>
    constructor
    · intro h
      exact ⟨_, R, .nil, h, fun d => (Bool.true_and _).symm⟩
    · rintro ⟨P, Q, hP, hQ, heq⟩
      cases hP
      apply hQ.congr
      intro d
      rw [heq, Bool.true_and]
  | cons field a ih =>
    constructor
    · intro h
      cases h with
      | cons hfirst hrest =>
        obtain ⟨P, Q, hP, hQ, heq⟩ := ih.mp hrest
        refine ⟨_, Q, .cons hfirst hP, hQ, ?_⟩
        intro d
        dsimp only
        rw [heq, Bool.and_assoc]
    · rintro ⟨P, Q, hP, hQ, heq⟩
      cases hP with
      | cons hfirst hrest =>
        apply (DocumentMeans.cons hfirst (ih.mpr ⟨_, Q, hrest, hQ, fun _ => rfl⟩)).congr
        intro d
        rw [heq, Bool.and_assoc]

/-! ### Operators together -/

theorem ignoreCase_of_get?_eq {a b : Document}
    (h : Document.get? "$options" a = Document.get? "$options" b) :
    (FieldContext.of a).ignoreCase = (FieldContext.of b).ignoreCase := by
  unfold FieldContext.of
  rw [h]

theorem maxDistance_of_get?_eq {a b : Document}
    (h : Document.get? "$maxDistance" a = Document.get? "$maxDistance" b) :
    (FieldContext.of a).maxDistance = (FieldContext.of b).maxDistance := by
  unfold FieldContext.of
  rw [h]

section

variable {path : String} {a b : Document} {P Q : Meaning} (ha : IsClosed a.keys)
  (hb : IsClosed b.keys) (hapart : ∀ key ∈ a.keys, key ∉ b.keys)

include ha hb

theorem isClosed_append : IsClosed (Document.keys (a ++ b)) := by
  have hkeys : Document.keys (a ++ b) = a.keys ++ b.keys := List.map_append
  rw [hkeys]
  constructor
  · exact List.append_ne_nil_of_left_ne_nil ha.nonempty _
  · intro name hname
    exact (List.mem_append.mp hname).elim (ha.operators name) (hb.operators name)
  · rw [List.mem_append, List.mem_append]
    exact Or.imp ha.options hb.options
  · rw [List.mem_append, List.mem_append]
    exact Or.imp ha.distance hb.distance
  · rw [List.mem_append, not_or]
    exact ⟨ha.sphere, hb.sphere⟩

include hapart

theorem sameContext_append_left :
    SameContext a (FieldContext.of (a ++ b)) (FieldContext.of a) := by
  constructor
  · intro hregex
    apply ignoreCase_of_get?_eq
    apply Document.get?_append_left
    intro hoptions
    exact hapart _ hregex (hb.options hoptions)
  · intro hnear
    apply maxDistance_of_get?_eq
    apply Document.get?_append_left
    intro hdistance
    exact hapart _ hnear (hb.distance hdistance)
  · exact ha.sphere

theorem sameContext_append_right :
    SameContext b (FieldContext.of (a ++ b)) (FieldContext.of b) := by
  constructor
  · intro hregex
    apply ignoreCase_of_get?_eq
    apply Document.get?_append_right
    intro hoptions
    exact hapart _ (ha.options hoptions) hregex
  · intro hnear
    apply maxDistance_of_get?_eq
    apply Document.get?_append_right
    intro hdistance
    exact hapart _ (ha.distance hdistance) hnear
  · exact hb.sphere

end

theorem operatorsMean_append {path : String} {a b : Document} {P Q : Meaning}
    (ha : OperatorsMean path a P) (hb : OperatorsMean path b Q)
    (hapart : ∀ key ∈ a.keys, key ∉ b.keys) :
    OperatorsMean path (a ++ b) fun d => P d && Q d := by
  obtain ⟨fs, hfs, hP⟩ := ha.reads
  obtain ⟨gs, hgs, hQ⟩ := hb.reads
  rw [← ofOperators_eq (sameContext_append_left ha.closed hb.closed hapart)] at hfs
  rw [← ofOperators_eq (sameContext_append_right ha.closed hb.closed hapart)] at hgs
  refine ⟨isClosed_append ha.closed hb.closed, fs ++ gs, ofOperators_append hfs hgs, ?_⟩
  intro d
  rw [evalAll_append, hP, hQ]

/-! ### Merging -/

theorem apart_of_shareAny {a b : Document} (h : shareAny a b = false) :
    ∀ key ∈ a.keys, key ∉ b.keys := by
  intro key ha hb
  unfold shareAny at h
  rw [List.any_eq_false] at h
  obtain ⟨field, hfield, rfl⟩ := List.mem_map.mp hb
  apply h field hfield
  unfold Document.contains
  rw [Option.isSome_iff_ne_none, Ne, Document.get?_eq_none_iff]
  exact fun hnot => hnot ha

theorem operatorsMean_of_fieldMeans {key : String} {ops : Document} {P : Meaning}
    (h : FieldMeans key (.document ops) P) (hops : Document.isOperators ops = true) :
    isOperatorName key = false ∧ OperatorsMean key ops P := by
  cases h with
  | operators hplain hmeans => exact ⟨hplain, hmeans⟩
  | other hplain =>
    rw [hplain ops rfl] at hops
    contradiction

theorem addField?_means {q r : Document} {key : String} {value : Value} {P Q : Meaning}
    (hq : DocumentMeans q P) (hvalue : FieldMeans key value Q)
    (h : addField? q key value = some r) : DocumentMeans r fun d => P d && Q d := by
  unfold addField? at h
  split at h
  next hnone =>
    cases h
    rw [Document.insert_of_get?_eq_none _ hnone, documentMeans_append_iff]
    exact ⟨P, Q, hq, documentMeans_singleton hvalue, fun _ => rfl⟩
  next have_ add hsome =>
    split at h
    next hguard =>
      -- the field keeps its place, and the other operators come behind its own
      cases h
      simp only [Bool.and_eq_true, Bool.not_eq_true'] at hguard
      obtain ⟨⟨hhave, hadd⟩, hshare⟩ := hguard
      obtain ⟨front, back, hfields, hinsert⟩ := Document.exists_insert_eq hsome
      rw [hfields, documentMeans_append_iff] at hq
      obtain ⟨F, G, hfront, hrest, heq⟩ := hq
      cases hrest with
      | @cons _ _ _ H B hfield hback =>
        obtain ⟨hplain, hmeans⟩ := operatorsMean_of_fieldMeans hfield hhave
        obtain ⟨-, hmore⟩ := operatorsMean_of_fieldMeans hvalue hadd
        have htogether := operatorsMean_append hmeans hmore (apart_of_shareAny hshare)
        rw [hinsert, documentMeans_append_iff]
        refine ⟨F, _, hfront, .cons (.operators hplain htogether) hback, ?_⟩
        intro d
        rw [heq]
        dsimp only
        rw [Bool.and_assoc, Bool.and_assoc, Bool.and_comm (B d), ← Bool.and_assoc (H d)]
    next => contradiction
  next => contradiction

theorem addFields?_means {q fields r : Document} {P Q : Meaning} (hq : DocumentMeans q P)
    (hfields : DocumentMeans fields Q) (h : addFields? q fields = some r) :
    DocumentMeans r fun d => P d && Q d := by
  induction hfields generalizing q P with
  | nil =>
    cases h
    apply hq.congr
    intro d
    rw [Bool.and_true]
  | cons hfirst _ ih =>
    rw [addFields?] at h
    split at h
    next => contradiction
    next q' hadd =>
      apply (ih (addField?_means hq hfirst hadd) h).congr
      intro d
      rw [Bool.and_assoc]

abbrev DocumentsMean (fs : List Filter) (docs : List Document) : Prop :=
  List.Forall₂ (fun f q => DocumentMeans q fun d => eval d f) fs docs

theorem mergeAll?_means {q r : Document} {P : Meaning} {fs : List Filter} {docs : List Document}
    (hq : DocumentMeans q P) (hdocs : DocumentsMean fs docs) (h : mergeAll? q docs = some r) :
    DocumentMeans r fun d => P d && evalAll d fs := by
  induction hdocs generalizing q P with
  | nil =>
    cases h
    apply hq.congr
    intro d
    rw [evalAll, Bool.and_true]
  | cons hfirst _ ih =>
    rw [mergeAll?] at h
    split at h
    next => contradiction
    next q' hadd =>
      apply (ih (addFields?_means hq hfirst hadd) h).congr
      intro d
      rw [evalAll, Bool.and_assoc]

/-! ### Branches -/

theorem exists_ofBranchList (key : String) {fs : List Filter} {docs : List Document}
    (h : DocumentsMean fs docs) :
    ∃ gs, ofBranchList key (docs.map .document) = .ok gs
      ∧ List.Forall₂ (fun f g => ∀ d, eval d g = eval d f) fs gs := by
  induction h with
  | nil => exact ⟨[], rfl, .nil⟩
  | cons hfirst _ ih =>
    obtain ⟨gs, hgs, hevals⟩ := ih
    obtain ⟨first, hread, heval⟩ := hfirst.reads
    refine ⟨conjoin first :: gs, ?_, .cons ?_ hevals⟩
    · rw [List.map_cons, ofBranchList, hread, hgs]
      rfl
    · intro d
      rw [eval_conjoin, heval]

theorem evalAll_congr {fs gs : List Filter}
    (h : List.Forall₂ (fun f g => ∀ d, eval d g = eval d f) fs gs) (d : Document) :
    evalAll d gs = evalAll d fs := by
  induction h with
  | nil => rfl
  | cons hfirst _ ih => rw [evalAll, evalAll, hfirst, ih]

theorem evalAny_congr {fs gs : List Filter}
    (h : List.Forall₂ (fun f g => ∀ d, eval d g = eval d f) fs gs) (d : Document) :
    evalAny d gs = evalAny d fs := by
  induction h with
  | nil => rfl
  | cons hfirst _ ih => rw [evalAny, evalAny, hfirst, ih]

theorem documentMeans_of_branches {key : String} {branches : List Value} {f : Filter} {P : Meaning}
    (hread : ofEntry key (.array branches) = .ok f) (hP : ∀ d, eval d f = P d) :
    DocumentMeans [(key, .array branches)] P := by
  apply documentMeans_singleton
  apply FieldMeans.other _ hread hP
  intro ops heq
  contradiction

theorem merged_means {fs : List Filter} {docs : List Document} (h : DocumentsMean fs docs) :
    DocumentMeans (merged docs) fun d => evalAll d fs := by
  unfold merged
  split
  next q hmerge =>
    apply (mergeAll?_means .nil h hmerge).congr
    intro d
    rw [Bool.true_and]
  next =>
    -- documents that do not merge stand side by side below one operator
    obtain ⟨gs, hgs, hevals⟩ := exists_ofBranchList "$and" h
    apply documentMeans_of_branches (f := .and gs)
    · rw [ofEntry_and, hgs]
      rfl
    · intro d
      rw [eval, evalAll_congr hevals]

end Filter
end DerivedQuery
