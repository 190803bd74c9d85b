import DerivedQuery.Proofs.Schema.Alphabetical
import DerivedQuery.Proofs.Schema.Chains

/-!
This module contains what the resolver answers: the one shortest chain that spells a token, the
names of several shortest chains, or that no chain spells it.
-/

namespace DerivedQuery

def placesName (chain : List Place) : String :=
  ".".intercalate (chain.map fun place => place.1.name)

structure PropertyPath.IsAlong (path : PropertyPath) (chain : List Place) : Prop where
  segments : path.segments = chain.map fun place => place.1.name
  leaf : ∃ last, chain.getLast? = some last ∧ path.leaf = .ofKind last.1.kind

theorem PropertyPath.IsAlong.eq {path other : PropertyPath} {chain : List Place}
    (h : path.IsAlong chain) (hother : other.IsAlong chain) : path = other := by
  obtain ⟨segments, leaf⟩ := path
  obtain ⟨otherSegments, otherLeaf⟩ := other
  obtain ⟨hsegments, last, hlast, hleaf⟩ := h
  obtain ⟨hsegments', last', hlast', hleaf'⟩ := hother
  rw [hlast, Option.some.injEq] at hlast'
  simp_all

theorem IsSpelling.ne_nil {s : EntitySchema} {token : List Char} {chain : List Place}
    (h : IsSpelling s token chain) : chain ≠ [] := by
  obtain ⟨chunks, cuts, hchunks, hcuts, -, hspells⟩ := h
  have hlength := hspells.length_eq
  have hne := hchunks.nonempty
  cases hcuts with
  | nil => contradiction
  | cons hcut _ =>
    have hpos := List.length_pos_iff.mpr hcut.nonempty
    rw [List.flatten_cons, List.length_append] at hlength
    apply List.ne_nil_of_length_pos
    omega

namespace Resolution

section

variable {α β : Type}

theorem mem_shortest {found : List (List α)} {chain : List α} :
    chain ∈ shortest found
      ↔
    chain ∈ found ∧ ∀ other ∈ found, chain.length ≤ other.length := by
  unfold shortest
  split
  next hnone =>
    rw [List.min?_eq_none_iff, List.map_eq_nil_iff] at hnone
    rw [hnone]
    simp
  next least hleast =>
    rw [List.min?_eq_some_iff] at hleast
    rw [List.mem_filter, beq_iff_eq]
    constructor
    · rintro ⟨hmem, rfl⟩
      refine ⟨hmem, ?_⟩
      intro other hother
      exact hleast.2 _ (List.mem_map_of_mem hother)
    · rintro ⟨hmem, hle⟩
      refine ⟨hmem, ?_⟩
      obtain ⟨other, hother, heq⟩ := List.mem_map.mp hleast.1
      have hge := hleast.2 _ (List.mem_map_of_mem hmem)
      have hle := hle other hother
      omega

theorem nodup_shortest {found : List (List α)} (h : found.Nodup) : (shortest found).Nodup := by
  unfold shortest
  split
  · simp
  · exact h.filter _

theorem shortest_map (f : α → β) (found : List (List α)) :
    shortest (found.map (List.map f)) = (shortest found).map (List.map f) := by
  have hlength : (found.map (List.map f)).map List.length = found.map List.length := by
    rw [List.map_map]
    apply List.map_congr_left
    intro chain _
    exact List.length_map f
  unfold shortest
  rw [hlength]
  split
  · rfl
  · rw [List.filter_map]
    congr 2
    funext chain
    simp

theorem shortest_eq_nil_iff {found : List (List α)} : shortest found = [] ↔ found = [] := by
  unfold shortest
  split
  next hnone =>
    rw [List.min?_eq_none_iff, List.map_eq_nil_iff] at hnone
    simp [hnone]
  next least hleast =>
    rw [List.min?_eq_some_iff] at hleast
    obtain ⟨chain, hchain, heq⟩ := List.mem_map.mp hleast.1
    constructor
    · intro hnil
      rw [List.filter_eq_nil_iff] at hnil
      exact absurd (beq_iff_eq.mpr heq) (hnil chain hchain)
    · rintro rfl
      rfl

end

/-! ### The answer -/

inductive Answers (s : EntitySchema) (token : List Char) : Resolution → Prop where
  | found {path : PropertyPath} {chain : List Place} (shortest : IsShortest s token chain)
      (unique : ∀ other, IsShortest s token other → other = chain) (along : path.IsAlong chain) :
      Answers s token (.found path)
  | ambiguous {names : List String} {chain other : List Place} (different : chain ≠ other)
      (shortest : IsShortest s token chain) (alternative : IsShortest s token other)
      (ascending : names.Pairwise (· < ·))
      (exact : ∀ name, name ∈ names ↔ ∃ chain, IsShortest s token chain ∧ placesName chain = name) :
      Answers s token (.ambiguous names)
  | missing (none : ∀ chain, ¬ IsSpelling s token chain) : Answers s token .missing

theorem mem_shortest_tokenPlaces {s : EntitySchema} {token : List Char} {chain : List Place} :
    chain ∈ shortest (s.tokenPlaces token) ↔ IsShortest s token chain := by
  rw [mem_shortest]
  unfold IsShortest
  simp only [EntitySchema.mem_tokenPlaces]

theorem exists_isAlong {chain : List Place} (h : chain ≠ []) :
    ∃ path, PropertyPath.ofChain? (chain.map Prod.fst) = some path ∧ path.IsAlong chain := by
  have hlast := List.getLast?_eq_some_getLast h
  unfold PropertyPath.ofChain?
  rw [List.getLast?_map, hlast]
  refine ⟨_, rfl, ?_, _, hlast, rfl⟩
  rw [List.map_map]
  rfl

theorem answers_of (s : EntitySchema) (token : List Char) : Answers s token (of s token) := by
  have hmem : ∀ chain, chain ∈ shortest (s.tokenPlaces token) ↔ IsShortest s token chain := by
    intro chain
    exact mem_shortest_tokenPlaces
  have hnodup := nodup_shortest (s.nodup_tokenPlaces token)
  unfold of
  rw [← EntitySchema.map_fst_tokenPlaces, shortest_map]
  cases hshortest : shortest (s.tokenPlaces token) with
  | nil =>
    rw [shortest_eq_nil_iff] at hshortest
    apply Answers.missing
    intro chain hchain
    rw [← EntitySchema.mem_tokenPlaces, hshortest] at hchain
    contradiction
  | cons chain chains =>
    rw [hshortest] at hmem hnodup
    have hchain := (hmem chain).mp List.mem_cons_self
    cases chains with
    | nil =>
      obtain ⟨path, hpath, halong⟩ := exists_isAlong hchain.1.ne_nil
      rw [List.map_cons, List.map_nil]
      dsimp only
      rw [hpath]
      apply Answers.found hchain _ halong
      intro other hother
      rw [← hmem] at hother
      exact List.mem_singleton.mp hother
    | cons other chains =>
      have hother := (hmem other).mp (List.mem_cons_of_mem chain List.mem_cons_self)
      -- as nothing is found twice, these are two different chains
      have hne : chain ≠ other := by
        rintro rfl
        simp at hnodup
      rw [List.map_cons, List.map_cons]
      apply Answers.ambiguous hne hchain hother (pairwise_alphabetical _)
      intro name
      rw [mem_alphabetical, ← List.map_cons, ← List.map_cons, List.map_map, List.mem_map]
      have hname : ∀ places, (chainName ∘ List.map Prod.fst) places = placesName places := by
        intro places
        unfold placesName
        rw [Function.comp_apply, chainName, List.map_map]
        rfl
      simp only [hname, hmem]

theorem of_eq_found_iff {s : EntitySchema} {token : List Char} {path : PropertyPath} :
    of s token = .found path
      ↔
    ∃ chain, IsShortest s token chain ∧ (∀ other, IsShortest s token other → other = chain)
      ∧ path.IsAlong chain := by
  have h := answers_of s token
  constructor
  · intro hof
    rw [hof] at h
    cases h with
    | found hshortest hunique halong => exact ⟨_, hshortest, hunique, halong⟩
  · rintro ⟨chain, hshortest, hunique, halong⟩
    generalize of s token = answer at h
    cases h with
    | found hshortest' _ halong' =>
      rw [hunique _ hshortest'] at halong'
      rw [halong.eq halong']
    | ambiguous hne h₁ h₂ => exact absurd ((hunique _ h₁).trans (hunique _ h₂).symm) hne
    | missing hnone => exact absurd hshortest.1 (hnone chain)

theorem exists_of_eq_ambiguous_iff {s : EntitySchema} {token : List Char} :
    (∃ names, of s token = .ambiguous names)
      ↔
    ∃ chain other, chain ≠ other ∧ IsShortest s token chain ∧ IsShortest s token other := by
  have h := answers_of s token
  constructor
  · rintro ⟨names, hof⟩
    rw [hof] at h
    cases h with
    | ambiguous hne h₁ h₂ => exact ⟨_, _, hne, h₁, h₂⟩
  · rintro ⟨chain, other, hne, h₁, h₂⟩
    generalize of s token = answer at h
    cases h with
    | found _ hunique => exact absurd ((hunique chain h₁).trans (hunique other h₂).symm) hne
    | ambiguous => exact ⟨_, rfl⟩
    | missing hnone => exact absurd h₁.1 (hnone chain)

theorem names_of_of_eq_ambiguous {s : EntitySchema} {token : List Char} {names : List String}
    (hof : of s token = .ambiguous names) :
    names.Pairwise (· < ·)
      ∧
    ∀ name, name ∈ names ↔ ∃ chain, IsShortest s token chain ∧ placesName chain = name := by
  have h := answers_of s token
  rw [hof] at h
  cases h with
  | ambiguous _ _ _ hascending hexact => exact ⟨hascending, hexact⟩

theorem of_eq_missing_iff {s : EntitySchema} {token : List Char} :
    of s token = .missing ↔ ∀ chain, ¬ IsSpelling s token chain := by
  have h := answers_of s token
  constructor
  · intro hof
    rw [hof] at h
    cases h with
    | missing hnone => exact hnone
  · intro hnone
    generalize of s token = answer at h
    cases h with
    | found hshortest => exact absurd hshortest.1 (hnone _)
    | ambiguous _ hshortest => exact absurd hshortest.1 (hnone _)
    | missing => rfl

end Resolution

namespace PropertyPath

theorem resolve_eq_ok_iff {s : EntitySchema} {token : List Char} {method : String}
    {path : PropertyPath} :
    resolve s token method = .ok path ↔ Resolution.of s token = .found path := by
  unfold resolve
  cases Resolution.of s token <;> simp

theorem resolve_eq_ambiguous_iff {s : EntitySchema} {token : List Char} {method : String}
    {names : List String} :
    resolve s token method = .error (.ambiguousProperty method (String.ofList token) names)
      ↔
    Resolution.of s token = .ambiguous names := by
  unfold resolve
  cases Resolution.of s token <;> simp

theorem resolve_eq_unresolved_iff {s : EntitySchema} {token : List Char} {method : String} :
    resolve s token method = .error (.unresolvedProperty method s.name (String.ofList token))
      ↔
    Resolution.of s token = .missing := by
  unfold resolve
  cases Resolution.of s token <;> simp

/--
A token that exactly one shortest chain spells is resolved to the path along it, one that several
spell is ambiguous between their names, and one that none spells is not resolved.
-/
theorem resolve_isShortest (s : EntitySchema) (token : List Char) (method : String) :
    (∀ path, resolve s token method = .ok path
      ↔ ∃ chain, IsShortest s token chain ∧ (∀ other, IsShortest s token other → other = chain)
        ∧ path.IsAlong chain)
      ∧
    ((∃ names, resolve s token method
        = .error (.ambiguousProperty method (String.ofList token) names))
      ↔ ∃ chain other, chain ≠ other ∧ IsShortest s token chain ∧ IsShortest s token other)
      ∧
    (∀ names, resolve s token method
        = .error (.ambiguousProperty method (String.ofList token) names)
      → names.Pairwise (· < ·)
        ∧ ∀ name, name ∈ names ↔ ∃ chain, IsShortest s token chain ∧ placesName chain = name)
      ∧
    (resolve s token method = .error (.unresolvedProperty method s.name (String.ofList token))
      ↔ ∀ chain, ¬ IsSpelling s token chain) := by
  refine ⟨?_, ?_, ?_, ?_⟩
  · intro path
    rw [resolve_eq_ok_iff, Resolution.of_eq_found_iff]
  · simp only [resolve_eq_ambiguous_iff]
    exact Resolution.exists_of_eq_ambiguous_iff
  · intro names hnames
    rw [resolve_eq_ambiguous_iff] at hnames
    exact Resolution.names_of_of_eq_ambiguous hnames
  · rw [resolve_eq_unresolved_iff, Resolution.of_eq_missing_iff]

end PropertyPath
end DerivedQuery
