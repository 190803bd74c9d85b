import DerivedQuery.Proofs.Store.Failures

/-!
This module contains what a stream answers to any calls: the entities in their order from the last
start, then once how they end, and nothing after that.
-/

namespace DerivedQuery

variable {γ : Type} {read : EntityReader γ}

/-! ### Calls of a stream -/

/--
What a stream has from its start: entities, and the error after them if there is one.
-/
structure StreamContents (γ : Type) where
  entities : List γ
  error : Option QueryError

/--
The first document that is not an entity ends the contents.
-/
def StreamContents.ofDocuments (read : EntityReader γ) (error : Option QueryError) :
    List Document → StreamContents γ
  | [] => ⟨[], error⟩
  | d :: ds =>
    match read d with
    | none => ⟨[], some .notAnEntity⟩
    | some entity =>
      let rest := ofDocuments read error ds
      { rest with entities := entity :: rest.entities }

/--
A call of a stream. The store that the stream was opened on has changed in any way since then.
-/
inductive StreamCall where
  | next (store : Store)
  | rewind

inductive StreamAnswer (γ : Type) where
  | next (result : Except QueryError (Option γ))
  | rewind (again : Bool)

def StreamAnswer.isLast : StreamAnswer γ → Bool
  | .next (.ok (some _)) => false
  | .next _ => true
  | .rewind _ => false

def StreamCall.closedAnswer : StreamCall → StreamAnswer γ
  | .next _ => .next (.ok none)
  | .rewind => .rewind false

namespace ResultStream

def call (read : EntityReader γ) (s : ResultStream) : StreamCall → StreamAnswer γ × ResultStream
  | .next store =>
    let (result, s, _) := s.next read store
    (.next result, s)
  | .rewind =>
    let (again, s) := s.rewind
    (.rewind again, s)

def callAll (read : EntityReader γ) (s : ResultStream) :
    List StreamCall → List (StreamAnswer γ) × ResultStream
  | [] => ([], s)
  | c :: cs =>
    let first := s.call read c
    let rest := callAll read first.2 cs
    (first.1 :: rest.1, rest.2)

end ResultStream

namespace StreamContents

def ending (c : StreamContents γ) : Except QueryError (Option γ) :=
  c.error.elim (.ok none) .error

/--
The answer to a call, and what is left of the entities after it. Nothing is left of a stream that is
closed, not even an end.
-/
def answer (c : StreamContents γ) (left : Option (List γ)) :
    StreamCall → StreamAnswer γ × Option (List γ)
  | .next _ =>
    match left with
    | some (entity :: left) => (.next (.ok (some entity)), some left)
    | some [] => (.next c.ending, none)
    | none => (.next (.ok none), none)
  | .rewind =>
    match left with
    | some _ => (.rewind true, some c.entities)
    | none => (.rewind false, none)

def answerAll (c : StreamContents γ) (left : Option (List γ)) :
    List StreamCall → List (StreamAnswer γ) × Option (List γ)
  | [] => ([], left)
  | call :: calls =>
    let first := c.answer left call
    let rest := answerAll c first.2 calls
    (first.1 :: rest.1, rest.2)

end StreamContents

/-! ### Streams -/

namespace ResultStream

variable {contents : StreamContents γ} {s : ResultStream} {left : Option (List γ)}

structure ReadsFrom (read : EntityReader γ) (contents : StreamContents γ) (name : String)
    (c : Cursor) (position : Nat) (left : List γ) : Prop where
  position_le : position ≤ c.reachable.length
  contents_eq : StreamContents.ofDocuments read (c.ending?.map (.execution name))
    (c.reachable.drop position) = { contents with entities := left }

inductive HasLeft (read : EntityReader γ) (contents : StreamContents γ) (s : ResultStream) :
    Option (List γ) → Prop where
  | closed (cursor : s.cursor = none) : HasLeft read contents s none
  | isOpen (c : Cursor) (left : List γ) (cursor : s.cursor = some c) (isOpen : c.isOpen = true)
    (start : ReadsFrom read contents s.collection c 0 contents.entities)
    (rest : ReadsFrom read contents s.collection c c.position left) :
    HasLeft read contents s (some left)

theorem HasLeft.isOpen_eq (h : HasLeft read contents s left) : s.isOpen = left.isSome := by
  unfold ResultStream.isOpen
  cases h with
  | closed cursor => simp [cursor]
  | isOpen c left cursor => simp [cursor]

theorem release_eq (s : ResultStream) (store : Store) :
    (s.release store).1 = { s with cursor := none } := by
  unfold release
  cases hcursor : s.cursor with
  | none => simp [← hcursor]
  | some c => rfl

theorem ReadsFrom.of_none {name : String} {c : Cursor} {position : Nat} {left : List γ}
    (h : ReadsFrom read contents name c position left) (hd : c.reachable[position]? = none) :
    left = [] ∧ contents.error = c.ending?.map (.execution name) := by
  have hcontents := h.contents_eq
  rw [List.drop_eq_nil_of_le (List.getElem?_eq_none_iff.mp hd)] at hcontents
  simp only [StreamContents.ofDocuments, StreamContents.mk.injEq] at hcontents
  exact ⟨hcontents.1.symm, hcontents.2.symm⟩

theorem ReadsFrom.of_some {name : String} {c : Cursor} {position : Nat} {left : List γ}
    (h : ReadsFrom read contents name c position left) {d : Document}
    (hd : c.reachable[position]? = some d) :
    (read d = none → left = [] ∧ contents.error = some .notAnEntity)
      ∧
    ∀ entity, read d = some entity → ∃ rest, left = entity :: rest
      ∧ ReadsFrom read contents name c (position + 1) rest := by
  have hcontents := h.contents_eq
  obtain ⟨hlt, hd⟩ := List.getElem?_eq_some_iff.mp hd
  rw [List.drop_eq_getElem_cons hlt, hd, StreamContents.ofDocuments] at hcontents
  constructor
  · intro hentity
    simp only [hentity, StreamContents.mk.injEq] at hcontents
    exact ⟨hcontents.1.symm, hcontents.2.symm⟩
  · intro entity hentity
    simp only [hentity, StreamContents.mk.injEq] at hcontents
    refine ⟨_, hcontents.1.symm, hlt, ?_⟩
    rw [← hcontents.2]

theorem ReadsFrom.moveTo {name : String} {c : Cursor} {position : Nat} {left : List γ}
    (h : ReadsFrom read contents name c position left) (other : Nat) :
    ReadsFrom read contents name { c with position := other } position left :=
  ⟨h.position_le, h.contents_eq⟩

theorem HasLeft.release (s : ResultStream) (store : Store) :
    HasLeft read contents (s.release store).1 none := by
  apply HasLeft.closed
  rw [release_eq]

theorem HasLeft.call (h : HasLeft read contents s left) (c : StreamCall) :
    (s.call read c).1 = (contents.answer left c).1
      ∧
    HasLeft read contents (s.call read c).2 (contents.answer left c).2 := by
  cases h with
  | closed cursor =>
    cases c with
    | next store =>
      simp only [ResultStream.call, ResultStream.next, cursor]
      exact ⟨rfl, .closed cursor⟩
    | rewind =>
      simp only [ResultStream.call, ResultStream.rewind, cursor]
      exact ⟨rfl, .closed cursor⟩
  | isOpen cursor left hcursor ho start rest =>
    cases c with
    | rewind =>
      have hrewind : cursor.rewind = (true, { cursor with position := 0 }) := if_pos ho
      simp only [ResultStream.call, ResultStream.rewind, hcursor, hrewind]
      exact ⟨rfl, .isOpen _ contents.entities rfl ho (start.moveTo 0) (start.moveTo 0)⟩
    | next store =>
      simp only [ResultStream.call, ResultStream.next, hcursor]
      cases hd : cursor.reachable[cursor.position]? with
      | none =>
        obtain ⟨rfl, herror⟩ := rest.of_none hd
        rw [Cursor.next_of_none ho rest.position_le hd]
        cases hending : cursor.ending? with
        | none =>
          refine ⟨?_, .release s store⟩
          simp [StreamContents.answer, StreamContents.ending, herror, hending]
        | some cause =>
          refine ⟨?_, .release s store⟩
          simp [StreamContents.answer, StreamContents.ending, herror, hending, release_eq]
      | some d =>
        rw [Cursor.next_of_some ho hd]
        obtain ⟨hunread, hentity⟩ := rest.of_some hd
        cases hread : read d with
        | none =>
          obtain ⟨rfl, herror⟩ := hunread hread
          simp only [hread]
          refine ⟨?_, .release s store⟩
          simp [StreamContents.answer, StreamContents.ending, herror]
        | some entity =>
          obtain ⟨left, rfl, hrest⟩ := hentity entity hread
          simp only [hread]
          exact ⟨rfl, .isOpen _ left rfl ho (start.moveTo _) (hrest.moveTo _)⟩

theorem HasLeft.callAll (h : HasLeft read contents s left) (calls : List StreamCall) :
    (s.callAll read calls).1 = (contents.answerAll left calls).1
      ∧
    HasLeft read contents (s.callAll read calls).2 (contents.answerAll left calls).2 := by
  induction calls generalizing s left with
  | nil => exact ⟨rfl, h⟩
  | cons c calls ih =>
    obtain ⟨hanswer, hleft⟩ := h.call c
    obtain ⟨hanswers, hrest⟩ := ih hleft
    rw [ResultStream.callAll, StreamContents.answerAll]
    exact ⟨congrArg₂ List.cons hanswer hanswers, hrest⟩

end ResultStream

/-! ### Opened streams -/

namespace StreamContents

variable {contents : StreamContents γ}

theorem answer_none (call : StreamCall) : contents.answer none call = (call.closedAnswer, none) := by
  cases call <;> rfl

theorem answerAll_none (calls : List StreamCall) :
    contents.answerAll none calls = (calls.map StreamCall.closedAnswer, none) := by
  induction calls with
  | nil => rfl
  | cons call calls ih =>
    rw [answerAll, answer_none]
    dsimp only
    rw [ih, List.map_cons]

theorem answerAll_append (left : Option (List γ)) (calls later : List StreamCall) :
    (contents.answerAll left (calls ++ later)).1
      =
    (contents.answerAll left calls).1
      ++ (contents.answerAll (contents.answerAll left calls).2 later).1 := by
  induction calls generalizing left with
  | nil => rfl
  | cons call calls ih =>
    rw [List.cons_append, answerAll, answerAll]
    dsimp only
    rw [ih, List.cons_append]

theorem isSome_answer (contents : StreamContents γ) (left : List γ) (call : StreamCall) :
    (contents.answer (some left) call).2.isSome = !(contents.answer (some left) call).1.isLast := by
  cases call with
  | next store =>
    cases left with
    | nil =>
      unfold answer ending
      cases contents.error <;> rfl
    | cons entity left => rfl
  | rewind => rfl

theorem isSome_answerAll_iff (left : List γ) (calls : List StreamCall) :
    (contents.answerAll (some left) calls).2.isSome = true
      ↔
    ∀ a ∈ (contents.answerAll (some left) calls).1, a.isLast = false := by
  induction calls generalizing left with
  | nil => simp [answerAll]
  | cons call calls ih =>
    have hfirst := contents.isSome_answer left call
    rw [answerAll]
    dsimp only
    cases hleft : (contents.answer (some left) call).2 with
    | none =>
      rw [hleft, Option.isSome_none, eq_comm, Bool.not_eq_false'] at hfirst
      rw [answerAll_none]
      simp [hfirst]
    | some rest =>
      rw [hleft, Option.isSome_some, eq_comm, Bool.not_eq_true'] at hfirst
      rw [ih, List.forall_mem_cons]
      simp [hfirst]

def ofSelection (read : EntityReader γ) (name : String) (documents : List Document)
    (failure : Option (Nat × String)) : StreamContents γ :=
  match failure with
  | none => ofDocuments read none documents
  | some (n, cause) =>
    ofDocuments read (if n ≤ documents.length then some (.execution name cause) else none)
      (documents.take n)

end StreamContents

namespace ResultStream

/--
A stream of the contents: while it is open it hands them out from the last start. It is closed by
their end, and stays closed.
-/
structure IsStreamOf (read : EntityReader γ) (contents : StreamContents γ) (s : ResultStream) :
    Prop where
  answers_eq : ∀ calls,
    (s.callAll read calls).1 = (contents.answerAll (some contents.entities) calls).1
  isOpen_iff : ∀ calls, (s.callAll read calls).2.isOpen = true
    ↔ ∀ a ∈ (s.callAll read calls).1, a.isLast = false
  closed_eq : ∀ calls later, (s.callAll read calls).2.isOpen = false →
    (s.callAll read (calls ++ later)).1
      = (s.callAll read calls).1 ++ later.map StreamCall.closedAnswer

theorem HasLeft.isStreamOf {contents : StreamContents γ} {s : ResultStream}
    (h : HasLeft read contents s (some contents.entities)) : IsStreamOf read contents s := by
  constructor
  case answers_eq =>
    intro calls
    exact (h.callAll calls).1
  case isOpen_iff =>
    intro calls
    obtain ⟨hanswers, hleft⟩ := h.callAll calls
    rw [hleft.isOpen_eq, hanswers, StreamContents.isSome_answerAll_iff]
  case closed_eq =>
    intro calls later hclosed
    obtain ⟨hanswers, hleft⟩ := h.callAll calls
    rw [hleft.isOpen_eq, Option.isSome_eq_false_iff, Option.isNone_iff_eq_none] at hclosed
    rw [(h.callAll _).1, StreamContents.answerAll_append, hclosed, StreamContents.answerAll_none,
      hanswers]

theorem isStreamOf_fresh (read : EntityReader γ) (name : String) (documents : List Document)
    (failure : Option Failure) :
    IsStreamOf read
      (.ofSelection read name documents (failure.bind Failure.point?))
      ⟨name, some (.fresh documents failure)⟩ := by
  have hreads : ReadsFrom read (.ofSelection read name documents (failure.bind Failure.point?)) name
      (.fresh documents failure) 0
      (StreamContents.ofSelection read name documents (failure.bind Failure.point?)).entities := by
    refine ⟨Nat.zero_le _, ?_⟩
    unfold Cursor.ending? Cursor.reachable Cursor.fresh StreamContents.ofSelection
    cases failure.bind Failure.point? with
    | none => rfl
    | some point =>
      obtain ⟨n, cause⟩ := point
      by_cases hn : n ≤ documents.length <;> simp [hn]
  exact (HasLeft.isOpen _ _ rfl rfl hreads hreads).isStreamOf

end ResultStream

theorem Execution.isStreamOf_stream {settings : Settings} {spec : Specification} {s s' : Store}
    {stream : ResultStream} (h : Execution.stream settings spec s = .ok stream s')
    (read : EntityReader γ) :
    stream.IsStreamOf read
      (.ofSelection read s.collection.name
        (s.collection.select spec.filter (Execution.options settings spec))
        (s.collection.failure.bind Failure.point?)) := by
  unfold Execution.stream at h
  simp only [run_bind_eq_ok_iff, Store.reporting_eq_ok_iff] at h
  obtain ⟨cursor, s₁, hfind, _, s₂, hmodify, s₃, s₄, hget, h⟩ := h
  cases hmodify
  cases hget
  cases h
  have hcall : ∀ cause, s.collection.failure ≠ some (.call cause) := by
    intro cause hcause
    rw [Store.find_of_call hcause] at hfind
    contradiction
  rw [Store.find_of_not_call hcall] at hfind
  cases hfind
  exact ResultStream.isStreamOf_fresh read s.collection.name _ s.collection.failure

end DerivedQuery
