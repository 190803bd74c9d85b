import DerivedQuery.Method.Keyword
import DerivedQuery.Schema.Path
import Mathlib.Data.List.Forall2
import Mathlib.Data.List.Infix

/-!
This module contains what it means that a chain of properties spells a token: the token is cut into
segments, and each segment is the name of a property that is in reach.
-/

namespace DerivedQuery

/--
A property and its position in its schema, which tells it from another one of the same name.
-/
abbrev Place := Property × Nat

structure IsCut (s : List Char) (segments : List (List Char)) : Prop where
  flatten : segments.flatten = s
  nonempty : segments ≠ []
  segment : ∀ segment ∈ segments, segment ≠ []
  capital : ∀ segment ∈ segments.tail, Keyword.startsCapital segment = true

/--
The token is cut into chunks at every underscore, and none of them is empty.
-/
structure IsChunks (token : List Char) (chunks : List (List Char)) : Prop where
  token : token = List.intercalate ['_'] chunks
  nonempty : chunks ≠ []
  chunk : ∀ chunk ∈ chunks, chunk ≠ []
  underscore : ∀ chunk ∈ chunks, '_' ∉ chunk

/--
The segments spell the chain: the first property belongs to the scope, each next one to the schema
that the one before holds.
-/
inductive Spells : Option EntitySchema → List (List Char) → List Place → Prop where
  | nil {scope : Option EntitySchema} : Spells scope [] []
  | cons {s : EntitySchema} {segment : List Char} {segments : List (List Char)} {place : Place}
      {chain : List Place} (position : s.properties[place.2]? = some place.1)
      (name : place.1.matchesSegment segment = true)
      (rest : Spells place.1.kind.nested? segments chain) :
      Spells (some s) (segment :: segments) (place :: chain)

def IsSpelling (s : EntitySchema) (token : List Char) (chain : List Place) : Prop :=
  ∃ chunks cuts,
    IsChunks token chunks ∧ List.Forall₂ IsCut chunks cuts
      ∧ cuts.flatten.length ≤ maxPathDepth ∧ Spells (some s) cuts.flatten chain

def IsShortest (s : EntitySchema) (token : List Char) (chain : List Place) : Prop :=
  IsSpelling s token chain ∧ ∀ other, IsSpelling s token other → chain.length ≤ other.length

/-! ### Cuts -/

theorem mem_capitalCuts {s head tail : List Char} :
    (head, tail) ∈ capitalCuts s
      ↔
    s = head ++ tail ∧ (tail = [] ∨ Keyword.startsCapital tail = true) := by
  induction s generalizing head with
  | nil =>
    simp only [capitalCuts, List.mem_singleton, Prod.mk.injEq, List.nil_eq, List.append_eq_nil_iff]
    constructor
    · intro h
      exact ⟨h, .inl h.2⟩
    · intro h
      exact h.1
  | cons c cs ih =>
    have hhere : (head, tail) ∈ (if c.isUpper then [([], c :: cs)] else [])
        ↔ head = [] ∧ tail = c :: cs ∧ c.isUpper = true := by
      split <;> simp_all
    -- the empty head comes from a cut before the letter, any other from a cut behind it
    rw [capitalCuts, List.mem_append, hhere, List.mem_map]
    cases head with
    | nil =>
      constructor
      · rintro (⟨-, rfl, hupper⟩ | ⟨cut, -, heq⟩)
        · exact ⟨rfl, .inr hupper⟩
        · simp at heq
      · rintro ⟨rfl, hend | hupper⟩
        · contradiction
        · exact .inl ⟨rfl, rfl, hupper⟩
    | cons d head =>
      constructor
      · rintro (⟨hnil, -⟩ | ⟨⟨front, back⟩, hcut, heq⟩)
        · contradiction
        · simp only [Prod.mk.injEq, List.cons.injEq] at heq
          obtain ⟨⟨rfl, rfl⟩, rfl⟩ := heq
          rw [ih] at hcut
          rw [hcut.1]
          exact ⟨rfl, hcut.2⟩
      · rintro ⟨heq, hend⟩
        rw [List.cons_append, List.cons.injEq] at heq
        right
        refine ⟨(head, tail), ih.mpr ⟨heq.2, hend⟩, ?_⟩
        rw [heq.1]

theorem mem_segmentCuts {s head tail : List Char} (hs : s ≠ []) :
    (head, tail) ∈ segmentCuts s
      ↔
    s = head ++ tail ∧ head ≠ [] ∧ (tail = [] ∨ Keyword.startsCapital tail = true) := by
  cases s with
  | nil => contradiction
  | cons c cs =>
    rw [segmentCuts, List.mem_map]
    constructor
    · rintro ⟨⟨front, back⟩, hcut, heq⟩
      simp only [Prod.mk.injEq] at heq
      obtain ⟨rfl, rfl⟩ := heq
      rw [mem_capitalCuts] at hcut
      rw [hcut.1]
      exact ⟨rfl, List.cons_ne_nil _ _, hcut.2⟩
    · rintro ⟨heq, hne, hend⟩
      cases head with
      | nil => contradiction
      | cons d head =>
        rw [List.cons_append, List.cons.injEq] at heq
        refine ⟨(head, tail), mem_capitalCuts.mpr ⟨heq.2, hend⟩, ?_⟩
        rw [heq.1]

theorem pairwise_capitalCuts (s : List Char) :
    (capitalCuts s).Pairwise fun a b => a.1.length < b.1.length := by
  induction s with
  | nil => simp [capitalCuts]
  | cons c cs ih =>
    have hmap : ((capitalCuts cs).map fun cut => (c :: cut.1, cut.2)).Pairwise
        fun a b => a.1.length < b.1.length := by
      rw [List.pairwise_map]
      apply ih.imp
      intro a b hab
      simpa using hab
    rw [capitalCuts]
    split
    · rw [List.singleton_append, List.pairwise_cons]
      refine ⟨?_, hmap⟩
      intro cut hcut
      rw [List.mem_map] at hcut
      obtain ⟨_, -, rfl⟩ := hcut
      simp
    · exact hmap

theorem pairwise_segmentCuts (s : List Char) :
    (segmentCuts s).Pairwise fun a b => a.1.length < b.1.length := by
  cases s with
  | nil => simp [segmentCuts]
  | cons c cs =>
    rw [segmentCuts, List.pairwise_map]
    apply (pairwise_capitalCuts cs).imp
    intro a b hab
    simpa using hab

theorem startsCapital_flatten {segment : List Char} (segments : List (List Char))
    (h : Keyword.startsCapital segment = true) :
    Keyword.startsCapital (segment :: segments).flatten = true := by
  cases segment with
  | nil => simp [Keyword.startsCapital] at h
  | cons => exact h

theorem isCut_cons_iff {s head : List Char} {segments : List (List Char)} :
    IsCut s (head :: segments)
      ↔
    ∃ tail, s = head ++ tail ∧ head ≠ []
      ∧ (segments = [] ∧ tail = []
        ∨ Keyword.startsCapital tail = true ∧ IsCut tail segments) := by
  constructor
  · intro h
    refine ⟨segments.flatten, h.flatten.symm, h.segment head (by simp), ?_⟩
    cases segments with
    | nil => exact .inl ⟨rfl, rfl⟩
    | cons next segments =>
      right
      have hcapital := h.capital
      rw [List.tail_cons] at hcapital
      constructor
      · exact startsCapital_flatten segments (hcapital next (by simp))
      · constructor
        · rfl
        · simp
        · intro segment hsegment
          exact h.segment segment (List.mem_cons_of_mem head hsegment)
        · intro segment hsegment
          exact hcapital segment (List.mem_cons_of_mem next hsegment)
  · rintro ⟨tail, rfl, hhead, ⟨rfl, rfl⟩ | ⟨hstart, htail⟩⟩
    · constructor <;> simp [hhead]
    · constructor
      · rw [List.flatten_cons, htail.flatten]
      · simp
      · intro segment hsegment
        rcases List.mem_cons.mp hsegment with rfl | hsegment
        · exact hhead
        · exact htail.segment segment hsegment
      · -- the first of the segments begins as the tail does
        intro segment hsegment
        have hcapital := htail.capital
        have hflatten := htail.flatten
        cases segments with
        | nil => contradiction
        | cons next segments =>
          rcases List.mem_cons.mp hsegment with rfl | hsegment
          · have hne := htail.segment segment (by simp)
            rw [← hflatten] at hstart
            cases segment with
            | nil => contradiction
            | cons => exact hstart
          · exact hcapital segment hsegment

theorem flatten_flatten_of_isCut {chunks : List (List Char)} {cuts : List (List (List Char))}
    (h : List.Forall₂ IsCut chunks cuts) : cuts.flatten.flatten = chunks.flatten := by
  induction h with
  | nil => rfl
  | cons hcut _ ih =>
    rw [List.flatten_cons, List.flatten_append, hcut.flatten, ih, List.flatten_cons]

theorem exists_chunk_of_mem_flatten {chunks : List (List Char)} {cuts : List (List (List Char))}
    {segment : List Char} (h : List.Forall₂ IsCut chunks cuts) (hsegment : segment ∈ cuts.flatten) :
    ∃ chunk ∈ chunks, segment ≠ [] ∧ ∀ c ∈ segment, c ∈ chunk := by
  induction h with
  | nil => contradiction
  | cons hcut _ ih =>
    rw [List.flatten_cons, List.mem_append] at hsegment
    rcases hsegment with hsegment | hsegment
    · refine ⟨_, List.mem_cons_self, hcut.segment segment hsegment, ?_⟩
      intro c hc
      rw [← hcut.flatten, List.mem_flatten]
      exact ⟨segment, hsegment, hc⟩
    · obtain ⟨chunk, hchunk, hprops⟩ := ih hsegment
      exact ⟨chunk, List.mem_cons_of_mem _ hchunk, hprops⟩

/-! ### Chunks -/

theorem splitOn_of_not_mem {sep : Char} {s : List Char} (h : sep ∉ s) :
    Text.splitOn sep s = [s] := by
  induction s with
  | nil => rfl
  | cons c cs ih =>
    rw [List.mem_cons, not_or] at h
    rw [Text.splitOn, if_neg (Ne.symm h.1), ih h.2]

theorem splitOn_append {sep : Char} {s : List Char} (rest : List Char) (h : sep ∉ s) :
    Text.splitOn sep (s ++ sep :: rest) = s :: Text.splitOn sep rest := by
  induction s with
  | nil => rw [List.nil_append, Text.splitOn, if_pos rfl]
  | cons c cs ih =>
    rw [List.mem_cons, not_or] at h
    rw [List.cons_append, Text.splitOn, if_neg (Ne.symm h.1), ih h.2]

theorem splitOn_intercalate {sep : Char} {pieces : List (List Char)} (hne : pieces ≠ [])
    (h : ∀ piece ∈ pieces, sep ∉ piece) :
    Text.splitOn sep (List.intercalate [sep] pieces) = pieces := by
  induction pieces with
  | nil => contradiction
  | cons piece pieces ih =>
    have hpiece := h piece (by simp)
    cases pieces with
    | nil => rw [List.intercalate_singleton, splitOn_of_not_mem hpiece]
    | cons next pieces =>
      rw [List.intercalate_cons_cons, List.append_assoc, List.singleton_append,
        splitOn_append _ hpiece, ih (List.cons_ne_nil next pieces)]
      intro other hother
      exact h other (List.mem_cons_of_mem piece hother)

theorem isChunks_iff {token : List Char} {chunks : List (List Char)} :
    IsChunks token chunks
      ↔
    chunks = Text.splitOn '_' token ∧ ∀ chunk ∈ chunks, chunk ≠ [] := by
  constructor
  · intro h
    refine ⟨?_, h.chunk⟩
    rw [h.token, splitOn_intercalate h.nonempty h.underscore]
  · rintro ⟨rfl, hchunk⟩
    constructor
    · rw [Text.intercalate_splitOn]
    · exact Text.splitOn_ne_nil '_' token
    · exact hchunk
    · exact Text.not_mem_of_mem_splitOn '_' token

/-! ### Spelled chains -/

def scopeAfter (scope : Option EntitySchema) (chain : List Place) : Option EntitySchema :=
  match chain.getLast? with
  | none => scope
  | some last => last.1.kind.nested?

theorem scopeAfter_cons (scope : Option EntitySchema) (place : Place) (chain : List Place) :
    scopeAfter scope (place :: chain) = scopeAfter place.1.kind.nested? chain := by
  unfold scopeAfter
  cases chain with
  | nil => rfl
  | cons next chain => rw [List.getLast?_cons_cons, List.getLast?_cons]

theorem Spells.length_eq {scope : Option EntitySchema} {segments : List (List Char)}
    {chain : List Place} (h : Spells scope segments chain) : chain.length = segments.length := by
  induction h with
  | nil => rfl
  | cons _ _ _ ih => rw [List.length_cons, List.length_cons, ih]

theorem spells_nil_iff {scope : Option EntitySchema} {chain : List Place} :
    Spells scope [] chain ↔ chain = [] := by
  constructor
  · intro h
    cases h
    rfl
  · rintro rfl
    exact .nil

theorem Spells.exists_scope {scope : Option EntitySchema} {segments : List (List Char)}
    {chain : List Place} (hne : segments ≠ []) (h : Spells scope segments chain) :
    ∃ s, scope = some s := by
  cases h with
  | nil => contradiction
  | cons => exact ⟨_, rfl⟩

theorem spells_append_iff {scope : Option EntitySchema} {a b : List (List Char)}
    {chain : List Place} :
    Spells scope (a ++ b) chain
      ↔
    ∃ front back, chain = front ++ back ∧ Spells scope a front
      ∧ Spells (scopeAfter scope front) b back := by
  induction a generalizing scope chain with
  | nil =>
    constructor
    · intro h
      exact ⟨[], chain, rfl, .nil, h⟩
    · rintro ⟨front, back, rfl, hfront, hback⟩
      cases hfront
      exact hback
  | cons segment a ih =>
    constructor
    · intro h
      cases h with
      | @cons s _ _ place chain hposition hname hrest =>
        obtain ⟨front, back, rfl, hfront, hback⟩ := ih.mp hrest
        refine ⟨place :: front, back, rfl, .cons hposition hname hfront, ?_⟩
        rwa [scopeAfter_cons]
    · rintro ⟨front, back, rfl, hfront, hback⟩
      cases hfront with
      | cons hposition hname hrest =>
        rw [scopeAfter_cons] at hback
        exact .cons hposition hname (ih.mpr ⟨_, back, rfl, hrest, hback⟩)

end DerivedQuery
