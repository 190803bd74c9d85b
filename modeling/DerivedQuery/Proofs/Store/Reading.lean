import DerivedQuery.Proofs.Traversal
import DerivedQuery.Store.Execution

/-!
This module contains how searches are read to their end: what a cursor hands out, what an execution
hands back of it, and that the cursor is given back on every way out.
-/

namespace DerivedQuery

variable {α γ : Type} {read : EntityReader γ} {filter : Filter} {options : FindOptions}
  {spec : Specification} {s s' : Store}

/-! ### Cursors -/

/--
The number of documents after which a cursor fails, and the cause.
-/
def Failure.point? : Failure → Option (Nat × String)
  | .call _ => none
  | .afterDocuments count cause => some (count, cause)

namespace Cursor

variable {c : Cursor}

def reachable (c : Cursor) : List Document :=
  match c.failure with
  | none => c.documents
  | some (count, _) => c.documents.take count

def ending? (c : Cursor) : Option String :=
  match c.failure with
  | none => none
  | some (count, cause) => if count ≤ c.documents.length then some cause else none

theorem next_of_some (ho : c.isOpen = true) {d : Document}
    (h : c.reachable[c.position]? = some d) :
    c.next = (.ok (some d), { c with position := c.position + 1 }) := by
  unfold reachable at h
  unfold next fault?
  cases hfailure : c.failure with
  | none =>
    simp only [hfailure] at h
    simp [ho, h]
  | some point =>
    obtain ⟨count, cause⟩ := point
    simp only [hfailure, List.getElem?_take, Option.ite_none_right_eq_some] at h
    have hcount : ¬ count ≤ c.position := by omega
    simp [ho, hcount, h.2]

theorem next_of_none (ho : c.isOpen = true) (hle : c.position ≤ c.reachable.length)
    (h : c.reachable[c.position]? = none) : c.next = (c.ending?.elim (.ok none) .error, c) := by
  rw [List.getElem?_eq_none_iff] at h
  unfold reachable at h hle
  unfold next fault? ending?
  cases hfailure : c.failure with
  | none =>
    simp only [hfailure] at h
    simp [ho, List.getElem?_eq_none h]
  | some point =>
    obtain ⟨count, cause⟩ := point
    simp only [hfailure, List.length_take] at h hle
    by_cases hcount : count ≤ c.position
    · have hlength : count ≤ c.documents.length := by omega
      simp [ho, hcount, hlength]
    · have hlength : ¬ count ≤ c.documents.length := by omega
      have hend : c.documents.length ≤ c.position := by omega
      simp [ho, hcount, hlength, List.getElem?_eq_none hend]

theorem isOpen_next (c : Cursor) : c.next.2.isOpen = c.isOpen := by
  unfold next
  split
  · rfl
  · split
    · rfl
    · split <;> rfl

theorem reachable_of_ending?_eq_none (h : c.ending? = none) : c.reachable = c.documents := by
  unfold ending? at h
  unfold reachable
  split at h
  next => rfl
  next count cause _ =>
    simp only [ite_eq_right_iff, reduceCtorEq, imp_false] at h
    exact List.take_of_length_le (by omega)

def fresh (documents : List Document) (failure : Option Failure) : Cursor where
  documents := documents
  failure := failure.bind Failure.point?

end Cursor

/-! ### Loops -/

namespace Store

def closing (s : Store) (cursor : Cursor) : Store :=
  { s with collection := (s.collection.close cursor).2 }

theorem run_close {ε : Type} (cursor : Cursor) :
    close (ε := ε) cursor s = .ok (s.collection.close cursor).1 (s.closing cursor) := rfl

theorem closing_congr {c d : Cursor} (h : c.isOpen = d.isOpen) : s.closing c = s.closing d := by
  unfold closing Collection.close
  rw [h]
  split <;> rfl

theorem name_closing (cursor : Cursor) :
    (s.closing cursor).collection.name = s.collection.name := by
  unfold closing Collection.close
  split <;> rfl

def released (s : Store) : Store :=
  { s with collection := { s.collection with openCursors := s.collection.openCursors - 1 } }

theorem closing_of_isOpen {c : Cursor} (ho : c.isOpen = true) : s.closing c = s.released := by
  unfold closing Collection.close
  rw [if_pos ho]
  rfl

end Store

namespace Execution

def handBack (read : EntityReader γ) (documents : List Document) (failure : Option String) :
    StoreAction QueryError (List γ) :=
  match documents.mapM read, failure with
  | none, _ => throw .notAnEntity
  | some entities, none => return entities
  | some _, some cause => Store.fail cause

theorem handBack_nil (failure : Option String) :
    handBack read [] failure s
      =
    failure.elim (.ok [] s) fun cause => Store.fail cause s := by
  cases failure <;> rfl

theorem handBack_cons_of_none {d : Document} (h : read d = none) (ds : List Document)
    (failure : Option String) : handBack read (d :: ds) failure s = .error .notAnEntity s := by
  unfold handBack
  rw [List.mapM_cons, h]
  rfl

theorem handBack_cons_of_some {d : Document} {entity : γ} (h : read d = some entity)
    (ds : List Document) (failure : Option String) :
    handBack read (d :: ds) failure s
      =
    (do return entity :: (← handBack read ds failure)) s := by
  unfold handBack
  rw [List.mapM_cons, h]
  cases ds.mapM read with
  | none => rfl
  | some entities => cases failure <;> rfl

end Execution

namespace ResultStream

open Execution (handBack handBack_nil handBack_cons_of_none handBack_cons_of_some)

variable {t rest : ResultStream}

theorem readAll_of_end (h : t.next read s = (.ok none, rest, s')) :
    t.readAll read s = .ok [] s' := by
  rw [readAll]
  split <;> simp_all

theorem readAll_of_error {e : QueryError} (h : t.next read s = (.error e, rest, s')) :
    t.readAll read s = .error e s' := by
  rw [readAll]
  split <;> simp_all

theorem readAll_of_entity {entity : γ} (h : t.next read s = (.ok (some entity), rest, s')) :
    t.readAll read s = (do return entity :: (← rest.readAll read)) s' := by
  rw [readAll]
  split <;> simp_all

theorem release_some (name : String) (c : Cursor) :
    release ⟨name, some c⟩ s = (⟨name, none⟩, s.closing c) := rfl

/--
A stream that is read to its end hands back what its cursor delivers. The cursor is taken back,
however the reading ends.
-/
theorem readAll_eq_handBack {c : Cursor} (ho : c.isOpen = true)
    (hle : c.position ≤ c.reachable.length) (s : Store) :
    readAll read ⟨s.collection.name, some c⟩ s
      =
    handBack read (c.reachable.drop c.position) c.ending? s.released := by
  -- on the documents that are left of the cursor
  generalize hleft : c.reachable.drop c.position = left
  induction left generalizing c with
  | nil =>
    have hend : c.reachable[c.position]? = none :=
      List.getElem?_eq_none (List.drop_eq_nil_iff.mp hleft)
    have hnext := Cursor.next_of_none ho hle hend
    rw [handBack_nil]
    cases hending : c.ending? with
    | none =>
      rw [hending, Option.elim_none] at hnext
      apply readAll_of_end
      simp only [next, hnext, release_some, Store.closing_of_isOpen ho]
      rfl
    | some cause =>
      rw [hending, Option.elim_some] at hnext
      apply readAll_of_error
      simp only [next, hnext, release_some, Store.closing_of_isOpen ho]
      rfl
  | cons d left ih =>
    have hlt : c.position < c.reachable.length := by
      rw [← Nat.not_le, ← List.drop_eq_nil_iff, hleft]
      simp
    rw [List.drop_eq_getElem_cons hlt, List.cons.injEq] at hleft
    have hnext := Cursor.next_of_some ho (List.getElem?_eq_some_iff.mpr ⟨hlt, hleft.1⟩)
    cases hentity : read d with
    | none =>
      rw [handBack_cons_of_none hentity]
      apply readAll_of_error
      simp only [next, hnext, hentity, release_some, Store.closing_of_isOpen ho]
      rfl
    | some entity =>
      have hrest := @ih { c with position := c.position + 1 } ho hlt hleft.2
      have hstep : next read ⟨s.collection.name, some c⟩ s
          = (.ok (some entity), ⟨s.collection.name, some { c with position := c.position + 1 }⟩, s) := by
        simp only [next, hnext, hentity]
      rw [handBack_cons_of_some hentity, readAll_of_entity hstep]
      exact bind_congr_run hrest

end ResultStream

/-! ### Searches -/

namespace Store

theorem reporting_eq_ok_iff {α : Type} {action : StoreAction String α} {a : α} :
    reporting action s = .ok a s' ↔ action s = .ok a s' := by
  unfold reporting
  cases action s with
  | ok b between => simp
  | error cause between => simp [fail]

theorem reporting_of_error {action : StoreAction String α} {cause : String}
    (h : action s = .error cause s') :
    reporting action s
      =
    .error (.execution s'.collection.name cause)
      { s' with journal := s'.journal.countFailure } := by
  unfold reporting
  rw [h]
  rfl

def opened (s : Store) (found : List Document) : Store :=
  { s with
    collection := { s.collection.withoutFailure with
      openCursors := s.collection.openCursors + 1 } }.note
    (.store s.collection.name found.length)

theorem find_of_call {cause : String} (h : s.collection.failure = some (.call cause)) :
    find filter options s
      =
    .error cause { s with collection := s.collection.withoutFailure } := by
  unfold find Collection.find
  rw [h]

theorem find_of_not_call (h : ∀ cause, s.collection.failure ≠ some (.call cause)) :
    find filter options s
      =
    .ok (.fresh (s.collection.select filter options) s.collection.failure)
      (s.opened (s.collection.select filter options)) := by
  unfold find Collection.find opened Cursor.fresh
  cases hfailure : s.collection.failure with
  | none => simp [Collection.withoutFailure]
  | some failure =>
    cases failure with
    | call cause => exact absurd hfailure (h cause)
    | afterDocuments => rfl

def searched (s : Store) (found : List Document) : Store :=
  { s with collection := s.collection.withoutFailure }.note
    (.store s.collection.name found.length)

theorem released_opened (found : List Document) : (s.opened found).released = s.searched found := rfl

def firstOf (cursor : Cursor) : StoreAction String (Option Document) :=
  match cursor.next.1 with
  | .ok found => return found
  | .error cause => throw cause

theorem findOne_of_call {cause : String} (h : s.collection.failure = some (.call cause)) :
    findOne filter options s
      =
    .error cause { s with collection := s.collection.withoutFailure } := by
  unfold findOne
  apply bind_eq_of_error
  exact find_of_call h

theorem findOne_of_not_call (h : ∀ cause, s.collection.failure ≠ some (.call cause)) :
    let found := s.collection.select filter { options with limit := some 1 }
    findOne filter options s = firstOf (.fresh found s.collection.failure) (s.searched found) := by
  intro found
  unfold findOne
  rw [bind_eq_of_ok (find_of_not_call h)]
  have hopen := (Cursor.fresh found s.collection.failure).isOpen_next
  unfold firstOf
  cases hnext : (Cursor.fresh found s.collection.failure).next with
  | mk first cursor =>
    rw [hnext] at hopen
    dsimp only
    refine (bind_eq_of_ok (run_close cursor)).trans ?_
    rw [closing_of_isOpen hopen]
    cases first with
    | ok => exact congrArg (EStateM.Result.ok _) (released_opened found)
    | error => exact congrArg (EStateM.Result.error _) (released_opened found)

end Store

namespace Execution

/--
The loop over results with their distances, which takes the cursor back by itself, does what a
stream does.
-/
theorem readRanking_eq_readAll (read : EntityReader γ) (near : NearQuery) (cursor : Cursor)
    (s : Store) :
    readRanking read near cursor s
      =
    ResultStream.readAll (readRanked read near) ⟨s.collection.name, some cursor⟩ s := by
  have hclosing : ∀ {c rest : Cursor} {answer : Except String (Option Document)},
      c.next = (answer, rest) → s.closing rest = s.closing c := by
    intro c rest answer hnext
    apply Store.closing_congr
    rw [← c.isOpen_next, hnext]
  fun_induction readRanking read near cursor with
  | case1 cursor rest hnext =>
    rw [bind_eq_of_ok (Store.run_close rest), hclosing hnext]
    symm
    apply ResultStream.readAll_of_end
    simp only [ResultStream.next, hnext]
    rfl
  | case2 cursor cause rest hnext =>
    rw [bind_eq_of_ok (Store.run_close rest), hclosing hnext, Store.fail, Store.name_closing]
    symm
    apply ResultStream.readAll_of_error
    simp only [ResultStream.next, hnext]
    rfl
  | case3 cursor d rest hnext result hentity ih =>
    have hstep : ResultStream.next (readRanked read near) ⟨s.collection.name, some cursor⟩ s
        = (.ok (some result), ⟨s.collection.name, some rest⟩, s) := by
      simp only [ResultStream.next, hnext, hentity]
    rw [ResultStream.readAll_of_entity hstep]
    exact bind_congr_run ih
  | case4 cursor d rest hnext hentity =>
    rw [bind_eq_of_ok (Store.run_close rest), hclosing hnext]
    symm
    apply ResultStream.readAll_of_error
    simp only [ResultStream.next, hnext, hentity]
    rfl

theorem collect_of_call {cause : String} (h : s.collection.failure = some (.call cause)) :
    collect read filter options s
      =
    .error (.execution s.collection.name cause)
      ⟨s.collection.withoutFailure, s.journal.countFailure⟩ := by
  unfold collect
  apply bind_eq_of_error
  rw [Store.reporting_of_error (Store.find_of_call h)]
  rfl

theorem collect_of_not_call (h : ∀ cause, s.collection.failure ≠ some (.call cause)) :
    let cursor := Cursor.fresh (s.collection.select filter options) s.collection.failure
    collect read filter options s
      =
    handBack read cursor.reachable cursor.ending?
      (s.searched (s.collection.select filter options)) := by
  unfold collect
  rw [bind_eq_of_ok (Store.reporting_eq_ok_iff.mpr (Store.find_of_not_call h))]
  exact ResultStream.readAll_eq_handBack rfl (Nat.zero_le _) (s.opened _)

theorem ranked_eq_collect {near : NearQuery} (h : spec.near = some near) :
    ranked read spec options
      =
    (do return .ofList (← collect (readRanked read near) spec.filter options)) := by
  unfold ranked collect
  rw [h, bind_assoc]
  apply bind_congr
  intro cursor
  funext s
  exact bind_congr_run (readRanking_eq_readAll read near cursor s)

end Execution

end DerivedQuery
