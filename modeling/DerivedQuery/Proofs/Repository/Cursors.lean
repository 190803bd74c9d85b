import DerivedQuery.Proofs.Repository.Balance
import DerivedQuery.Proofs.Repository.Failures
import DerivedQuery.Proofs.Store.Streams
import DerivedQuery.Repository.Session

/-!
This module contains that a collection counts the cursors that were handed out and not given back,
whatever a session does with them.
-/

namespace DerivedQuery

variable {γ : Type}

/-! ### Calls of a session -/

inductive SessionCall where
  | openCursor (id : String) (filter : Filter) (options : FindOptions)
  | openStream (id name : String) (args : List Argument)
  | next (id : String)
  | rewind (id : String)
  | close (id : String)
  | drop (id : String)
  | invoke (name : String) (args : List Argument)
  | insertAll (documents : List Document)
  | failNext (failure : Failure)

inductive SessionAnswer (γ : Type) where
  | opened (ok : Bool)
  | delivery (d : Option (Delivery γ))
  | rewound (again : Option Bool)
  | closed (known : Bool)
  | dropped (known : Bool)
  | other

namespace Session

def call (s : Session γ) : SessionCall → SessionAnswer γ × Session γ
  | .openCursor id filter options =>
    let (result, s) := s.openCursor id filter options
    (.opened result.toBool, s)
  | .openStream id name args =>
    let (result, s) := s.openStream id name args
    (.opened result.toBool, s)
  | .next id =>
    let (d, s) := s.next id
    (.delivery d, s)
  | .rewind id =>
    let (again, s) := s.rewind id
    (.rewound again, s)
  | .close id =>
    let (known, s) := s.close id
    (.closed known, s)
  | .drop id =>
    let (known, s) := s.drop id
    (.dropped known, s)
  | .invoke name args => (.other, (s.perform (Repository.invoke name args)).2)
  | .insertAll documents => (.other, s.setStore (s.store.insertAll documents).2)
  | .failNext failure => (.other, s.setStore (s.store.failNext failure))

end Session

/--
The names of what was handed out and is neither closed nor dropped, as far as the answers tell. A
stream is closed by its end and by an error.
-/
def SessionCall.held (names : List String) : SessionCall → SessionAnswer γ → List String
  | .openCursor id _ _, .opened true | .openStream id _ _, .opened true => id :: names.erase id
  | .next _, .delivery (some (.stream (.ok (some _)))) => names
  | .next id, .delivery (some (.stream _)) => names.erase id
  | .close id, .closed true => names.erase id
  | .drop id, _ => names.erase id
  | _, _ => names

namespace Session

def callAll (s : Session γ) (names : List String) : List SessionCall → Session γ × List String
  | [] => (s, names)
  | c :: cs =>
    let (answer, s) := s.call c
    callAll s (c.held names answer) cs

/-! ### Handles -/

theorem handle?_forget (s : Session γ) (id other : String) :
    (s.forget id).handle? other = if other = id then none else s.handle? other := by
  unfold forget handle?
  dsimp only
  induction s.handles with
  | nil => simp
  | cons entry entries ih =>
    obtain ⟨name, h⟩ := entry
    by_cases hname : name = id
    · rw [List.filter_cons_of_neg (by simp [hname]), ih]
      by_cases hother : other = id
      · rw [if_pos hother, if_pos hother]
      · have hne : (other == name) = false := by simp [hname, hother]
        rw [if_neg hother, if_neg hother, List.lookup_cons, hne]
    · rw [List.filter_cons_of_pos (by simp [hname]), List.lookup_cons, List.lookup_cons, ih]
      by_cases heq : other = name
      · simp [heq, hname]
      · rw [beq_eq_false_iff_ne.mpr heq]

theorem handle?_put (s : Session γ) (id other : String) (h : Handle) :
    (s.put id h).handle? other = if other = id then some h else s.handle? other := by
  have hforget := handle?_forget s id other
  unfold handle? at hforget
  unfold put handle?
  rw [List.lookup_cons, hforget]
  by_cases hother : other = id
  · simp [hother]
  · rw [beq_eq_false_iff_ne.mpr hother, if_neg hother, if_neg hother]

end Session

namespace Handle

def IsSound : Handle → Prop
  | .stream s => ∀ c ∈ s.cursor, c.isOpen = true
  | .cursor _ => True

theorem openCursors_release {h : Handle} (hsound : h.IsSound) (store : Store) :
    (h.release store).openCursors = store.openCursors - h.isOpen.toNat := by
  cases h with
  | stream s =>
    unfold release ResultStream.release isOpen ResultStream.isOpen
    cases hcursor : s.cursor with
    | none => simp [hcursor]
    | some c =>
      have hopen := hsound c hcursor
      simp [Store.openCursors, Collection.close, hcursor, hopen]
  | cursor c =>
    unfold release isOpen
    cases hopen : c.isOpen <;> simp [Store.openCursors, Collection.close, hopen]

end Handle

namespace Session

def openCursors (s : Session γ) : Nat :=
  s.store.openCursors

/--
The collection has counted the names, besides `base` other cursors.
-/
structure Accounts (base : Nat) (names : List String) (s : Session γ) : Prop where
  openCursors_eq : s.openCursors = base + names.length
  nodup : names.Nodup
  mem_iff : ∀ id, id ∈ names ↔ (s.handle? id).any Handle.isOpen = true
  sound : ∀ id h, s.handle? id = some h → h.IsSound

namespace Accounts

variable {base : Nat} {names : List String} {s s' : Session γ} {id : String}

theorem openCursors_pos (h : Accounts base names s) {handle : Handle}
    (hhandle : s.handle? id = some handle) (hopen : handle.isOpen = true) : 0 < s.openCursors := by
  have hmem : id ∈ names := by
    rw [h.mem_iff, hhandle]
    exact hopen
  have hlength := List.length_pos_of_mem hmem
  rw [h.openCursors_eq]
  omega

theorem congr (h : Accounts base names s) (hopen : s'.openCursors = s.openCursors)
    (hhandle : ∀ other, s'.handle? other = s.handle? other) : Accounts base names s' where
  openCursors_eq := hopen.trans h.openCursors_eq
  nodup := h.nodup
  mem_iff := by
    intro other
    rw [hhandle, h.mem_iff]
  sound := by
    intro other handle
    rw [hhandle]
    exact h.sound other handle

theorem keep (h : Accounts base names s) {handle handle' : Handle}
    (hbefore : s.handle? id = some handle) (hopen : handle'.isOpen = handle.isOpen)
    (hsound : handle'.IsSound) : Accounts base names (s.put id handle') where
  openCursors_eq := h.openCursors_eq
  nodup := h.nodup
  mem_iff := by
    intro other
    rw [handle?_put, h.mem_iff]
    by_cases hother : other = id
    · rw [if_pos hother, hother, hbefore, Option.any_some, Option.any_some, hopen]
    · rw [if_neg hother]
  sound := by
    intro other handle''
    rw [handle?_put]
    by_cases hother : other = id
    · rw [if_pos hother]
      rintro ⟨⟩
      exact hsound
    · rw [if_neg hother]
      exact h.sound other handle''

theorem release (h : Accounts base names s)
    (hopen : s'.openCursors = s.openCursors - ((s.handle? id).any Handle.isOpen).toNat)
    (hother : ∀ other, other ≠ id → s'.handle? other = s.handle? other)
    (hclosed : (s'.handle? id).any Handle.isOpen = false)
    (hsound : ∀ handle, s'.handle? id = some handle → handle.IsSound) :
    Accounts base (names.erase id) s' where
  openCursors_eq := by
    rw [hopen, h.openCursors_eq]
    cases hwas : (s.handle? id).any Handle.isOpen with
    | true =>
      have hmem := (h.mem_iff id).mpr hwas
      have hlength := List.length_pos_of_mem hmem
      rw [List.length_erase_of_mem hmem, Bool.toNat_true]
      omega
    | false =>
      have hmem : id ∉ names := by simp [h.mem_iff, hwas]
      rw [List.erase_of_not_mem hmem, Bool.toNat_false, Nat.sub_zero]
  nodup := h.nodup.erase id
  mem_iff := by
    intro other
    rw [h.nodup.mem_erase_iff]
    by_cases heq : other = id
    · simp [heq, hclosed]
    · simp [heq, hother other heq, h.mem_iff]
  sound := by
    intro other handle
    by_cases heq : other = id
    · rw [heq]
      exact hsound handle
    · rw [hother other heq]
      exact h.sound other handle

theorem put (h : Accounts (base + 1) names s) {handle : Handle} (hnew : id ∉ names)
    (hopen : handle.isOpen = true) (hsound : handle.IsSound) :
    Accounts base (id :: names) (s.put id handle) where
  openCursors_eq := by
    have heq : (s.put id handle).openCursors = s.openCursors := rfl
    rw [heq, h.openCursors_eq, List.length_cons]
    omega
  nodup := List.nodup_cons.mpr ⟨hnew, h.nodup⟩
  mem_iff := by
    intro other
    rw [handle?_put, List.mem_cons]
    by_cases hother : other = id
    · simp [hother, hopen]
    · simp [hother, h.mem_iff]
  sound := by
    intro other handle'
    rw [handle?_put]
    by_cases hother : other = id
    · rw [if_pos hother]
      rintro ⟨⟩
      exact hsound
    · rw [if_neg hother]
      exact h.sound other handle'

theorem drop (h : Accounts base names s) (id : String) :
    Accounts base (names.erase id) (s.drop id).2 := by
  unfold Session.drop
  cases hhandle : s.handle? id with
  | none => exact h.release (by simp [hhandle]) (by simp) (by simp [hhandle]) (by simp [hhandle])
  | some handle =>
    have hforget : ∀ other, ((s.forget id).setStore (handle.release s.store)).handle? other
        = if other = id then none else s.handle? other := handle?_forget s id
    apply h.release
    · rw [hhandle]
      exact Handle.openCursors_release (h.sound id handle hhandle) s.store
    · intro other hother
      rw [hforget, if_neg hother]
    · rw [hforget, if_pos rfl]
      rfl
    · intro handle'
      rw [hforget, if_pos rfl]
      intro heq
      contradiction

theorem assign (h : Accounts (base + 1) names s) (id : String) {handle : Handle}
    (hopen : handle.isOpen = true) (hsound : handle.IsSound) :
    Accounts base (id :: names.erase id) (s.assign id handle) :=
  (h.drop id).put h.nodup.not_mem_erase hopen hsound

end Accounts

end Session

/-! ### Opening -/

theorem Store.find_eq (filter : Filter) (options : FindOptions) (s : Store) :
    match find filter options s with
    | .ok cursor s' => cursor.isOpen = true ∧ s'.openCursors = s.openCursors + 1
    | .error _ s' => s'.openCursors = s.openCursors := by
  by_cases hcall : ∃ cause, s.collection.failure = some (.call cause)
  · obtain ⟨cause, hcause⟩ := hcall
    rw [find_of_call hcause]
    rfl
  · rw [find_of_not_call (not_exists.mp hcall)]
    exact ⟨rfl, rfl⟩

theorem Execution.stream_eq (settings : Settings) (spec : Specification) (s : Store) :
    match stream settings spec s with
    | .ok stream s' => (∃ c, stream.cursor = some c ∧ c.isOpen = true)
        ∧ s'.openCursors = s.openCursors + 1
    | .error _ s' => s'.openCursors = s.openCursors := by
  have hfind := Store.find_eq spec.filter (options settings spec) s
  unfold stream
  cases hresult : Store.find spec.filter (options settings spec) s with
  | ok cursor s' =>
    rw [hresult] at hfind
    rw [bind_eq_of_ok (Store.reporting_eq_ok_iff.mpr hresult)]
    exact ⟨⟨cursor, rfl, hfind.1⟩, hfind.2⟩
  | error cause s' =>
    rw [hresult] at hfind
    rw [bind_eq_of_error (Store.reporting_of_error hresult)]
    exact hfind

namespace Repository

variable {name : String} {args : List Argument} {r r' : Repository γ}

theorem stream_of_specification {spec : Specification} (h : specification name args r = .ok spec r') :
    stream name args r
      =
    if spec.shape = .list then onStore (Execution.stream r'.settings spec) r'
    else .error (otherShape name "a stream" spec.shape) r' := by
  unfold stream
  rw [bind_eq_of_ok h]
  by_cases hshape : spec.shape = .list
  · rw [if_neg (not_not.mpr hshape), if_pos hshape]
    rfl
  · rw [if_pos hshape, if_neg hshape]
    rfl

theorem stream_eq (name : String) (args : List Argument) (r : Repository γ) :
    match stream name args r with
    | .ok stream r' => (∃ c, stream.cursor = some c ∧ c.isOpen = true)
        ∧ r'.openCursors = r.openCursors + 1
    | .error _ r' => r'.openCursors = r.openCursors := by
  have hkeeps := keeps_specification (γ := γ) name args r
  unfold stateAfter at hkeeps
  cases hspec : specification name args r with
  | error e r₁ =>
    rw [hspec] at hkeeps
    unfold stream
    rw [bind_eq_of_error hspec]
    exact hkeeps
  | ok spec r₁ =>
    rw [hspec] at hkeeps
    dsimp only at hkeeps
    rw [stream_of_specification hspec, ← hkeeps]
    by_cases hshape : spec.shape = .list
    · have hstream := Execution.stream_eq r₁.settings spec r₁.store
      rw [if_pos hshape, onStore]
      cases hresult : Execution.stream r₁.settings spec r₁.store with
      | ok stream s =>
        rw [hresult] at hstream
        exact hstream
      | error e s =>
        rw [hresult] at hstream
        exact hstream
    · rw [if_neg hshape]

end Repository

/-! ### Calls -/

theorem Cursor.isOpen_rewind (c : Cursor) : c.rewind.2.isOpen = c.isOpen := by
  unfold rewind
  split <;> rfl

theorem ResultStream.next_eq (read : EntityReader γ) (s : ResultStream) (store : Store)
    (hsound : (Handle.stream s).IsSound) :
    match s.next read store with
    | (.ok (some _), s', store') => s'.isOpen = s.isOpen ∧ (Handle.stream s').IsSound ∧ store' = store
    | (_, s', store') => s'.cursor = none
        ∧ store'.openCursors = store.openCursors - s.isOpen.toNat := by
  have hrelease : (s.release store).2.openCursors = store.openCursors - s.isOpen.toNat :=
    Handle.openCursors_release hsound store
  have hclosed : (s.release store).1.cursor = none := by rw [release_eq]
  unfold next
  cases hcursor : s.cursor with
  | none => simp [isOpen, hcursor]
  | some c =>
    have hopen := c.isOpen_next
    rw [hsound c hcursor] at hopen
    dsimp only
    cases hnext : c.next with
    | mk result c' =>
      rw [hnext] at hopen
      match result with
      | .ok none => exact ⟨hclosed, hrelease⟩
      | .error cause => exact ⟨hclosed, hrelease⟩
      | .ok (some d) =>
        dsimp only
        cases read d with
        | none => exact ⟨hclosed, hrelease⟩
        | some entity =>
          refine ⟨by simp [isOpen, hcursor], ?_, rfl⟩
          rintro c'' ⟨⟩
          exact hopen

namespace Session

variable {base : Nat} {names : List String} {s : Session γ}

namespace Accounts

theorem counted {r : Repository γ} (h : Accounts base names s)
    (hopen : r.openCursors = s.openCursors + 1) :
    Accounts (base + 1) names { s with repository := r } where
  openCursors_eq := by
    have heq : ({ s with repository := r } : Session γ).openCursors = r.openCursors := rfl
    rw [heq, hopen, h.openCursors_eq]
    omega
  nodup := h.nodup
  mem_iff := h.mem_iff
  sound := h.sound

theorem openCursor (h : Accounts base names s) (id : String) (filter : Filter)
    (options : FindOptions) :
    match s.openCursor id filter options with
    | (.ok (), s') => Accounts base (id :: names.erase id) s'
    | (.error _, s') => Accounts base names s' := by
  have hfind := Store.find_eq filter options s.repository.store
  unfold Session.openCursor perform Repository.onStore
  cases hresult : Store.find filter options s.repository.store with
  | ok cursor store =>
    rw [hresult] at hfind
    exact (h.counted (r := { s.repository with store }) hfind.2).assign id hfind.1 trivial
  | error cause store =>
    rw [hresult] at hfind
    exact h.congr hfind fun _ => rfl

theorem openStream (h : Accounts base names s) (id name : String) (args : List Argument) :
    match s.openStream id name args with
    | (.ok (), s') => Accounts base (id :: names.erase id) s'
    | (.error _, s') => Accounts base names s' := by
  have hstream := Repository.stream_eq name args s.repository
  unfold Session.openStream perform
  cases hresult : Repository.stream name args s.repository with
  | ok stream r =>
    rw [hresult] at hstream
    obtain ⟨⟨c, hcursor, hopen⟩, hcount⟩ := hstream
    apply (h.counted hcount).assign id
    · simp [Handle.isOpen, ResultStream.isOpen, hcursor]
    · intro c' hc'
      rw [hcursor, Option.mem_some_iff] at hc'
      exact hc' ▸ hopen
  | error e r =>
    rw [hresult] at hstream
    exact h.congr hstream fun _ => rfl

theorem next (h : Accounts base names s) (id : String) :
    match s.next id with
    | (some (.stream (.ok (some _))), s') => Accounts base names s'
    | (some (.stream _), s') => Accounts base (names.erase id) s'
    | (_, s') => Accounts base names s' := by
  unfold Session.next
  cases hhandle : s.handle? id with
  | none => exact h
  | some handle =>
    cases handle with
    | cursor c => exact h.keep hhandle c.isOpen_next trivial
    | stream st =>
      have hnext := st.next_eq s.repository.read s.store (h.sound id _ hhandle)
      dsimp only
      -- the call gives the stream back closed, unless it hands out an entity
      have hclose : ∀ st' store', st'.cursor = none →
          store'.openCursors = s.store.openCursors - st.isOpen.toNat →
          Accounts base (names.erase id) ((s.setStore store').put id (.stream st')) := by
        intro st' store' hcursor hcount
        have hput := handle?_put (s.setStore store') id
        apply h.release
        · rw [hhandle]
          exact hcount
        · intro other hother
          rw [hput, if_neg hother]
          rfl
        · rw [hput, if_pos rfl]
          simp [Handle.isOpen, ResultStream.isOpen, hcursor]
        · intro handle
          rw [hput, if_pos rfl]
          rintro ⟨⟩
          simp [Handle.IsSound, hcursor]
      cases hresult : st.next s.repository.read s.store with
      | mk result rest =>
        obtain ⟨st', store'⟩ := rest
        rw [hresult] at hnext
        cases result with
        | error e => exact hclose st' store' hnext.1 hnext.2
        | ok found =>
          cases found with
          | none => exact hclose st' store' hnext.1 hnext.2
          | some entity =>
            obtain ⟨hopen, hsound, rfl⟩ := hnext
            exact h.keep hhandle hopen hsound

theorem rewind (h : Accounts base names s) (id : String) :
    Accounts base names (s.rewind id).2 := by
  unfold Session.rewind
  cases hhandle : s.handle? id with
  | none => exact h
  | some handle =>
    cases handle with
    | cursor c => exact h.keep hhandle c.isOpen_rewind trivial
    | stream st =>
      have hsound := h.sound id _ hhandle
      dsimp only
      unfold ResultStream.rewind
      cases hcursor : st.cursor with
      | none => exact h.keep hhandle rfl hsound
      | some c =>
        apply h.keep hhandle
        · simp [Handle.isOpen, ResultStream.isOpen, hcursor]
        · rintro c' ⟨⟩
          exact c.isOpen_rewind.trans (hsound c hcursor)

theorem close (h : Accounts base names s) (id : String) :
    match s.close id with
    | (true, s') => Accounts base (names.erase id) s'
    | (false, s') => Accounts base names s' := by
  unfold Session.close
  cases hhandle : s.handle? id with
  | none => exact h
  | some handle =>
    cases handle with
    | stream st => exact h
    | cursor c =>
      have hrelease := Handle.openCursors_release (h := .cursor c) trivial s.store
      have hclosed : (s.store.collection.close c).1.isOpen = false := by
        unfold Collection.close
        cases hopen : c.isOpen <;> simp [Cursor.closed, hopen]
      have hput := handle?_put (s.setStore { s.store with
        collection := (s.store.collection.close c).2 }) id
      dsimp only
      apply h.release
      · rw [hhandle]
        exact hrelease
      · intro other hother
        rw [hput, if_neg hother]
        rfl
      · rw [hput, if_pos rfl]
        exact hclosed
      · intro handle
        rw [hput, if_pos rfl]
        rintro ⟨⟩
        trivial

theorem openCursors_insertAll (c : Collection) (documents : List Document) :
    (c.insertAll documents).2.openCursors = c.openCursors := by
  induction documents generalizing c with
  | nil => rfl
  | cons d ds ih =>
    rw [Collection.insertAll]
    dsimp only
    rw [ih]
    unfold Collection.insert
    split <;> rfl

theorem call (h : Accounts base names s) (c : SessionCall) :
    Accounts base (c.held names (s.call c).1) (s.call c).2 := by
  cases c with
  | openCursor id filter options =>
    have hopen := h.openCursor id filter options
    unfold Session.call
    dsimp only
    cases hresult : s.openCursor id filter options with
    | mk result s' =>
      rw [hresult] at hopen
      cases result <;> exact hopen
  | openStream id name args =>
    have hopen := h.openStream id name args
    unfold Session.call
    dsimp only
    cases hresult : s.openStream id name args with
    | mk result s' =>
      rw [hresult] at hopen
      cases result <;> exact hopen
  | next id =>
    have hnext := h.next id
    unfold Session.call
    dsimp only
    cases hresult : s.next id with
    | mk d s' =>
      rw [hresult] at hnext
      match d with
      | none => exact hnext
      | some (.cursor result) => exact hnext
      | some (.stream (.error e)) => exact hnext
      | some (.stream (.ok none)) => exact hnext
      | some (.stream (.ok (some entity))) => exact hnext
  | rewind id => exact h.rewind id
  | close id =>
    have hclose := h.close id
    unfold Session.call
    dsimp only
    cases hresult : s.close id with
    | mk known s' =>
      rw [hresult] at hclose
      cases known <;> exact hclose
  | drop id => exact h.drop id
  | invoke name args =>
    have hkeeps := Repository.keeps_invoke (γ := γ) name args s.repository
    unfold stateAfter at hkeeps
    unfold Session.call perform
    dsimp only
    cases hresult : Repository.invoke name args s.repository with
    | ok result r =>
      rw [hresult] at hkeeps
      exact h.congr hkeeps fun _ => rfl
    | error e r =>
      rw [hresult] at hkeeps
      exact h.congr hkeeps fun _ => rfl
  | insertAll documents =>
    exact h.congr (openCursors_insertAll s.store.collection documents) fun _ => rfl
  | failNext failure => exact h.congr rfl fun _ => rfl

theorem callAll (h : Accounts base names s) (calls : List SessionCall) :
    Accounts base (s.callAll names calls).2 (s.callAll names calls).1 := by
  induction calls generalizing s names with
  | nil => exact h
  | cons c calls ih => exact ih (h.call c)

end Accounts
theorem accounts_of_handles_eq_nil {s : Session γ} (h : s.handles = []) :
    Accounts s.openCursors [] s where
  openCursors_eq := rfl
  nodup := List.nodup_nil
  mem_iff := by simp [handle?, h]
  sound := by simp [handle?, h]

end Session

theorem Repository.isStreamOf_stream {name : String} {args : List Argument} {r r' : Repository γ}
    {stream : ResultStream} (h : Repository.stream name args r = .ok stream r') :
    ∃ spec, (specification name args).answer r = .ok spec
      ∧
    stream.IsStreamOf r.read
      (.ofSelection r.read r.store.collection.name
        (r.store.collection.select spec.filter (Execution.options r.settings spec))
        (r.store.collection.failure.bind Failure.point?)) := by
  cases hspec : specification name args r with
  | error e r₁ =>
    unfold Repository.stream at h
    rw [bind_eq_of_error hspec] at h
    contradiction
  | ok spec r₁ =>
    refine ⟨spec, by rw [RepositoryAction.answer, hspec], ?_⟩
    rw [stream_of_specification hspec] at h
    split at h
    next =>
      obtain ⟨hleaves, hsettings, -⟩ := leaves_specification hspec
      rw [← hsettings, ← hleaves.collection_eq]
      unfold onStore at h
      split at h
      next hstream =>
        cases h
        exact Execution.isStreamOf_stream hstream r.read
      next => contradiction
    next => contradiction

/--
A collection counts the cursors that a session holds, so that none is given back that it does not
count. A stream hands out what was selected, up to its end or to a failure that waited.
-/
theorem openCursors_callAll_and_isStreamOf_stream :
    (∀ (s : Session γ) (calls : List SessionCall), s.handles = [] →
      let after := s.callAll [] calls
      after.1.openCursors = s.openCursors + after.2.length
        ∧
      (∀ id, id ∈ after.2 ↔ (after.1.handle? id).any Handle.isOpen = true)
        ∧
      ∀ id h, after.1.handle? id = some h → h.isOpen = true → 0 < after.1.openCursors)
      ∧
    ∀ (r r' : Repository γ) (name : String) (args : List Argument) (stream : ResultStream),
      Repository.stream name args r = .ok stream r' →
        ∃ spec, (Repository.specification name args).answer r = .ok spec
          ∧
        stream.IsStreamOf r.read
          (.ofSelection r.read r.store.collection.name
            (r.store.collection.select spec.filter (Execution.options r.settings spec))
            (r.store.collection.failure.bind Failure.point?)) := by
  constructor
  · intro s calls hhandles
    have haccounts := (Session.accounts_of_handles_eq_nil hhandles).callAll calls
    refine ⟨haccounts.openCursors_eq, haccounts.mem_iff, ?_⟩
    intro id h hhandle hopen
    exact haccounts.openCursors_pos hhandle hopen
  · intro r r' name args stream hstream
    exact Repository.isStreamOf_stream hstream

open Execution (badges badgeSchema badgePages)

def badgeList : Signature :=
  { badgePages with params := [], returns := none }

def badgeDesk : Repository Document :=
  { (Repository.register badgeList).final
      { store := { collection := badges }, schema := badgeSchema, read := some } with
    store := { collection := badges.failNext (.afterDocuments 1 "gone") } }

def badgeSession : Session Document where
  repository := badgeDesk

def badgeSessionCalls : List SessionCall :=
  [.openStream "stream" badgeList.name [], .openCursor "cursor" .all {}, .next "stream",
   .rewind "stream", .next "stream", .next "cursor", .next "stream", .next "stream",
   .close "cursor", .close "cursor", .rewind "cursor", .openCursor "other" .all {}]

def succeeds {ε σ α : Type} : EStateM.Result ε σ α → Bool
  | .ok _ _ => true
  | .error _ _ => false

theorem openCursors_callAll_badge :
    (badgeSession.callAll [] badgeSessionCalls).2 = ["other"]
      ∧
    (badgeSession.callAll [] badgeSessionCalls).1.openCursors = 1
      ∧
    ∃ stream r' spec,
      Repository.stream badgeList.name [] badgeDesk = .ok stream r'
        ∧
      (Repository.specification badgeList.name []).answer badgeDesk = .ok spec
        ∧
      stream.IsStreamOf badgeDesk.read
        (.ofSelection badgeDesk.read "badges"
          (badges.select spec.filter (Execution.options badgeDesk.settings spec))
          (some (1, "gone"))) := by
  have hnames : (badgeSession.callAll [] badgeSessionCalls).2 = ["other"] := by
    decide +kernel
  have hcount := (openCursors_callAll_and_isStreamOf_stream.1 badgeSession badgeSessionCalls rfl).1
  rw [hnames] at hcount
  refine ⟨hnames, hcount, ?_⟩
  have hok : succeeds (Repository.stream badgeList.name [] badgeDesk) = true := by
    decide +kernel
  cases hstream : Repository.stream badgeList.name [] badgeDesk with
  | ok stream r' =>
    obtain ⟨spec, hspec, hcontents⟩ := openCursors_callAll_and_isStreamOf_stream.2
      badgeDesk r' badgeList.name [] stream hstream
    exact ⟨stream, r', spec, rfl, hspec, hcontents⟩
  | error e r' => simp [hstream, succeeds] at hok

end DerivedQuery
