import DerivedQuery.Proofs.Schema.Spelling
import Mathlib.Data.List.Nodup

/-!
This module contains that the search for chains is complete: the chains that are found for a token
are the ones that spell it, each of them once.
-/

namespace DerivedQuery
namespace EntitySchema

/-! ### Chains with positions -/

def places (s : EntitySchema) (segment : List Char) : List Place :=
  s.properties.zipIdx.filter fun place => place.1.matchesSegment segment

def chainsFrom (next : EntitySchema → List (List Place)) (tail : List Char) (place : Place) :
    List (List Place) :=
  if tail.isEmpty then [[place]]
  else
    match place.1.kind.nested? with
    | none => []
    | some nested => (next nested).map (place :: ·)

def placeChains : (room : Nat) → EntitySchema → List Char → List (List Place)
  | 0, _, _ => []
  | room + 1, scope, s =>
    (segmentCuts s).flatMap fun cut =>
      (scope.places cut.1).flatMap
        (chainsFrom (fun nested => placeChains room nested cut.2) cut.2)

def continuePlaces (s : EntitySchema) (chunk : List Char) (chain : List Place) :
    List (List Place) :=
  match scopeAfter (some s) chain with
  | none => []
  | some scope => (placeChains (maxPathDepth - chain.length) scope chunk).map (chain ++ ·)

def chunkPlaces (s : EntitySchema) (chunks : List (List Char)) : List (List Place) :=
  chunks.foldl (fun found chunk => found.flatMap (s.continuePlaces chunk)) [[]]

def tokenPlaces (s : EntitySchema) (token : List Char) : List (List Place) :=
  let chunks := Text.splitOn '_' token
  if chunks.any List.isEmpty then [] else s.chunkPlaces chunks

theorem map_fst_places (s : EntitySchema) (segment : List Char) :
    (s.places segment).map Prod.fst = s.matching segment := by
  have hproperties : s.properties = s.properties.zipIdx.map Prod.fst := by
    rw [List.zipIdx_map_fst]
  unfold places matching
  conv =>
    rhs
    rw [hproperties, List.filter_map]
  rfl

theorem map_fst_placeChains (room : Nat) (scope : EntitySchema) (s : List Char) :
    (placeChains room scope s).map (List.map Prod.fst) = chains room scope s := by
  induction room generalizing scope s with
  | zero => rfl
  | succ room ih =>
    unfold placeChains chains
    rw [List.map_flatMap]
    apply List.flatMap_congr
    rintro ⟨head, tail⟩ -
    dsimp only
    rw [← map_fst_places, List.map_flatMap, List.flatMap_map]
    apply List.flatMap_congr
    intro place _
    unfold chainsFrom
    split
    · rfl
    · cases place.1.kind.nested? with
      | none => rfl
      | some nested =>
        dsimp only
        rw [← ih]
        simp

theorem map_fst_continuePlaces (s : EntitySchema) (chunk : List Char) (chain : List Place) :
    (s.continuePlaces chunk chain).map (List.map Prod.fst)
      =
    s.continueChain chunk (chain.map Prod.fst) := by
  have hscope : s.scopeAfter? (chain.map Prod.fst) = scopeAfter (some s) chain := by
    unfold scopeAfter? scopeAfter
    rw [List.getLast?_map]
    cases chain.getLast? <;> rfl
  unfold continuePlaces continueChain
  rw [hscope]
  cases scopeAfter (some s) chain with
  | none => rfl
  | some scope =>
    dsimp only
    rw [List.length_map, ← map_fst_placeChains]
    simp

theorem map_fst_tokenPlaces (s : EntitySchema) (token : List Char) :
    (s.tokenPlaces token).map (List.map Prod.fst) = s.tokenChains token := by
  unfold tokenPlaces tokenChains chunkPlaces
  generalize Text.splitOn '_' token = chunks
  dsimp only
  split
  · rfl
  · -- the search goes on from the end, as the last chunk is spelled last
    induction chunks using List.reverseRecOn with
    | nil => rfl
    | append_singleton chunks chunk ih =>
      rw [List.foldl_concat, List.foldl_concat, ← ih (by simp_all), List.map_flatMap,
        List.flatMap_map]
      apply List.flatMap_congr
      intro chain _
      exact map_fst_continuePlaces s chunk chain

/-! ### What is found -/

theorem mem_places {s : EntitySchema} {segment : List Char} {place : Place} :
    place ∈ s.places segment
      ↔
    s.properties[place.2]? = some place.1 ∧ place.1.matchesSegment segment = true := by
  unfold places
  rw [List.mem_filter, List.mem_zipIdx_iff_getElem?]

theorem mem_chainsFrom {next : EntitySchema → List (List Place)} {tail : List Char} {place : Place}
    {chain : List Place} :
    chain ∈ chainsFrom next tail place
      ↔
    tail = [] ∧ chain = [place]
      ∨
    tail ≠ [] ∧ ∃ nested rest, place.1.kind.nested? = some nested ∧ rest ∈ next nested
      ∧ chain = place :: rest := by
  unfold chainsFrom
  by_cases htail : tail = []
  · simp [htail]
  · rw [if_neg (by simpa using htail)]
    cases place.1.kind.nested? with
    | none => simp [htail]
    | some nested => simp [htail, eq_comm]

theorem mem_placeChains {room : Nat} {scope : EntitySchema} {s : List Char} {chain : List Place}
    (hs : s ≠ []) :
    chain ∈ placeChains room scope s
      ↔
    ∃ segments, IsCut s segments ∧ segments.length ≤ room ∧ Spells (some scope) segments chain := by
  induction room generalizing scope s chain with
  | zero =>
    simp only [placeChains, List.not_mem_nil, false_iff]
    rintro ⟨segments, hcut, hroom, -⟩
    exact hcut.nonempty (List.eq_nil_of_length_eq_zero (by omega))
  | succ room ih =>
    rw [placeChains, List.mem_flatMap]
    constructor
    · rintro ⟨⟨head, tail⟩, hcut, hchain⟩
      rw [mem_segmentCuts hs] at hcut
      obtain ⟨hsplit, hhead, hend⟩ := hcut
      rw [List.mem_flatMap] at hchain
      obtain ⟨place, hplace, hchain⟩ := hchain
      rw [mem_places] at hplace
      rw [mem_chainsFrom] at hchain
      -- the first segment takes one of the room, and the others have what is left of it
      rcases hchain with ⟨rfl, rfl⟩ | ⟨htail, nested, rest, hnested, hrest, rfl⟩
      · refine ⟨[head], ?_, by simp, .cons hplace.1 hplace.2 .nil⟩
        rw [isCut_cons_iff]
        exact ⟨[], hsplit, hhead, .inl ⟨rfl, rfl⟩⟩
      · obtain ⟨segments, hsegments, hroom, hspells⟩ := (ih htail).mp hrest
        refine ⟨head :: segments, ?_, ?_, ?_⟩
        · rw [isCut_cons_iff]
          exact ⟨tail, hsplit, hhead, .inr ⟨hend.resolve_left htail, hsegments⟩⟩
        · rw [List.length_cons]
          omega
        · apply Spells.cons hplace.1 hplace.2
          rwa [hnested]
    · rintro ⟨segments, hcut, hroom, hspells⟩
      cases hspells with
      | nil => exact absurd rfl hcut.nonempty
      | @cons _ segment segments place rest hposition hname hrest =>
        rw [isCut_cons_iff] at hcut
        obtain ⟨tail, hsplit, hhead, hend⟩ := hcut
        have hcut : (segment, tail) ∈ segmentCuts s := by
          rw [mem_segmentCuts hs]
          refine ⟨hsplit, hhead, ?_⟩
          rcases hend with ⟨-, rfl⟩ | ⟨hcapital, -⟩
          · exact .inl rfl
          · exact .inr hcapital
        refine ⟨(segment, tail), hcut, ?_⟩
        rw [List.mem_flatMap]
        refine ⟨place, mem_places.mpr ⟨hposition, hname⟩, ?_⟩
        rw [mem_chainsFrom]
        rcases hend with ⟨rfl, rfl⟩ | ⟨hcapital, htail⟩
        · rw [spells_nil_iff] at hrest
          rw [hrest]
          exact .inl ⟨rfl, rfl⟩
        · right
          have hne : tail ≠ [] := by
            intro hnil
            rw [hnil] at hcapital
            contradiction
          obtain ⟨nested, hnested⟩ := hrest.exists_scope htail.nonempty
          rw [hnested] at hrest
          rw [List.length_cons] at hroom
          exact ⟨hne, nested, rest, hnested, (ih hne).mpr ⟨segments, htail, by omega, hrest⟩, rfl⟩

theorem mem_continuePlaces {s : EntitySchema} {chunk : List Char} {chain more : List Place}
    (hchunk : chunk ≠ []) :
    more ∈ s.continuePlaces chunk chain
      ↔
    ∃ segments rest, IsCut chunk segments ∧ chain.length + segments.length ≤ maxPathDepth
      ∧ Spells (scopeAfter (some s) chain) segments rest ∧ more = chain ++ rest := by
  unfold continuePlaces
  cases scopeAfter (some s) chain with
  | none =>
    simp only [List.not_mem_nil, false_iff]
    rintro ⟨segments, rest, hcut, -, hspells, -⟩
    obtain ⟨scope, hscope⟩ := hspells.exists_scope hcut.nonempty
    contradiction
  | some scope =>
    rw [List.mem_map]
    constructor
    · rintro ⟨rest, hrest, rfl⟩
      obtain ⟨segments, hcut, hroom, hspells⟩ := (mem_placeChains hchunk).mp hrest
      have hpos := List.length_pos_iff.mpr hcut.nonempty
      exact ⟨segments, rest, hcut, by omega, hspells, rfl⟩
    · rintro ⟨segments, rest, hcut, hroom, hspells, rfl⟩
      exact ⟨rest, (mem_placeChains hchunk).mpr ⟨segments, hcut, by omega, hspells⟩, rfl⟩

theorem mem_chunkPlaces {s : EntitySchema} {chunks : List (List Char)} {chain : List Place}
    (hchunks : ∀ chunk ∈ chunks, chunk ≠ []) :
    chain ∈ s.chunkPlaces chunks
      ↔
    ∃ cuts, List.Forall₂ IsCut chunks cuts ∧ cuts.flatten.length ≤ maxPathDepth
      ∧ Spells (some s) cuts.flatten chain := by
  unfold chunkPlaces
  induction chunks using List.reverseRecOn generalizing chain with
  | nil =>
    simp only [List.foldl_nil, List.mem_singleton, List.forall₂_nil_left_iff]
    constructor
    · rintro rfl
      exact ⟨[], rfl, by simp, .nil⟩
    · rintro ⟨cuts, rfl, -, hspells⟩
      cases hspells
      rfl
  | append_singleton chunks chunk ih =>
    have hchunk : chunk ≠ [] := hchunks chunk (by simp)
    have hfound := fun start =>
      @ih start (fun other hother => hchunks other (by simp [hother]))
    rw [List.foldl_concat, List.mem_flatMap]
    constructor
    · rintro ⟨start, hstart, hchain⟩
      obtain ⟨cuts, hcuts, -, hfront⟩ := (hfound start).mp hstart
      obtain ⟨segments, rest, hcut, hroom, hback, rfl⟩ := (mem_continuePlaces hchunk).mp hchain
      rw [hfront.length_eq] at hroom
      refine ⟨cuts ++ [segments], List.rel_append hcuts (.cons hcut .nil), ?_, ?_⟩
      · simpa using hroom
      · rw [List.flatten_append, List.flatten_singleton, spells_append_iff]
        exact ⟨start, rest, rfl, hfront, hback⟩
    · rintro ⟨cuts, hcuts, hroom, hspells⟩
      rw [← List.forall₂_reverse_iff, List.reverse_append, List.reverse_singleton,
        List.singleton_append, List.forall₂_cons_left_iff] at hcuts
      obtain ⟨segments, others, hcut, hothers, hreverse⟩ := hcuts
      obtain rfl : cuts = others.reverse ++ [segments] := by
        rw [← List.reverse_cons, ← hreverse, List.reverse_reverse]
      rw [← List.forall₂_reverse_iff, List.reverse_reverse] at hothers
      rw [List.flatten_append, List.flatten_singleton, spells_append_iff] at hspells
      obtain ⟨front, back, rfl, hfront, hback⟩ := hspells
      rw [List.flatten_append, List.flatten_singleton, List.length_append] at hroom
      refine ⟨front, (hfound front).mpr ⟨_, hothers, by omega, hfront⟩, ?_⟩
      rw [mem_continuePlaces hchunk]
      exact ⟨segments, back, hcut, by rwa [hfront.length_eq], hback, rfl⟩

theorem ne_nil_of_any_isEmpty {chunks : List (List Char)}
    (h : ¬ chunks.any List.isEmpty = true) : ∀ chunk ∈ chunks, chunk ≠ [] := by
  intro chunk hchunk hnil
  apply h
  rw [List.any_eq_true]
  exact ⟨chunk, hchunk, List.isEmpty_iff.mpr hnil⟩

theorem mem_tokenPlaces {s : EntitySchema} {token : List Char} {chain : List Place} :
    chain ∈ s.tokenPlaces token ↔ IsSpelling s token chain := by
  unfold tokenPlaces
  dsimp only
  split
  next hempty =>
    simp only [List.not_mem_nil, false_iff]
    rintro ⟨chunks, cuts, hchunks, -⟩
    rw [isChunks_iff] at hchunks
    rw [List.any_eq_true] at hempty
    obtain ⟨chunk, hchunk, hnil⟩ := hempty
    rw [← hchunks.1] at hchunk
    exact hchunks.2 chunk hchunk (List.isEmpty_iff.mp hnil)
  next hne =>
    have hchunks := ne_nil_of_any_isEmpty hne
    rw [mem_chunkPlaces hchunks]
    constructor
    · rintro ⟨cuts, hcuts, hroom, hspells⟩
      exact ⟨_, cuts, isChunks_iff.mpr ⟨rfl, hchunks⟩, hcuts, hroom, hspells⟩
    · rintro ⟨chunks, cuts, hisChunks, hcuts, hroom, hspells⟩
      rw [(isChunks_iff.mp hisChunks).1] at hcuts
      exact ⟨cuts, hcuts, hroom, hspells⟩

/-! ### Each of them once -/

def letters (place : Place) : List Char :=
  plainLetters place.1.name.toList

theorem letters_eq_of_mem_places {s : EntitySchema} {segment : List Char} {place : Place}
    (h : place ∈ s.places segment) : letters place = plainLetters segment := by
  rw [mem_places] at h
  unfold letters
  simpa [Property.matchesSegment] using h.2

theorem map_letters_of_spells {scope : Option EntitySchema} {segments : List (List Char)}
    {chain : List Place} (h : Spells scope segments chain) :
    chain.map letters = segments.map plainLetters := by
  induction h with
  | nil => rfl
  | cons hposition hname _ ih =>
    rw [List.map_cons, List.map_cons, ih,
      letters_eq_of_mem_places (mem_places.mpr ⟨hposition, hname⟩)]

theorem length_plainLetters {s : List Char} (h : '_' ∉ s) : (plainLetters s).length = s.length := by
  unfold plainLetters
  rw [List.length_map, List.filter_eq_self.mpr]
  intro c hc
  rw [bne_iff_ne]
  intro heq
  rw [heq] at hc
  contradiction

theorem flatten_map_plainLetters (segments : List (List Char)) :
    (segments.map plainLetters).flatten = plainLetters segments.flatten := by
  unfold plainLetters
  rw [List.filter_flatten, List.map_flatten, List.map_map]
  rfl

theorem nodup_places (s : EntitySchema) (segment : List Char) : (s.places segment).Nodup := by
  unfold places
  apply List.Nodup.filter
  apply List.Nodup.of_map Prod.snd
  rw [List.zipIdx_map_snd]
  exact List.nodup_range'

theorem head?_of_mem_chainsFrom {next : EntitySchema → List (List Place)} {tail : List Char}
    {place : Place} {chain : List Place} (h : chain ∈ chainsFrom next tail place) :
    chain.head? = some place := by
  rw [mem_chainsFrom] at h
  rcases h with ⟨-, rfl⟩ | ⟨-, nested, rest, -, -, rfl⟩ <;> rfl

theorem nodup_chainsFrom {next : EntitySchema → List (List Place)} {tail : List Char}
    {place : Place} (h : tail ≠ [] → ∀ nested, (next nested).Nodup) :
    (chainsFrom next tail place).Nodup := by
  unfold chainsFrom
  split
  · simp
  next hempty =>
    rw [List.isEmpty_iff] at hempty
    split
    · simp
    · apply List.Nodup.map List.cons_injective
      exact h hempty _

theorem nodup_placeChains (room : Nat) (scope : EntitySchema) {s : List Char} (hs : s ≠ [])
    (hunderscore : '_' ∉ s) : (placeChains room scope s).Nodup := by
  induction room generalizing scope s with
  | zero => simp [placeChains]
  | succ room ih =>
    have hcuts : ∀ cut ∈ segmentCuts s, '_' ∉ cut.1 ∧ '_' ∉ cut.2 := by
      rintro ⟨head, tail⟩ hcut
      rw [mem_segmentCuts hs] at hcut
      rwa [hcut.1, List.mem_append, not_or] at hunderscore
    rw [placeChains, List.nodup_flatMap]
    constructor
    · intro cut hcut
      rw [List.nodup_flatMap]
      constructor
      · intro place _
        apply nodup_chainsFrom
        intro htail nested
        exact ih nested htail (hcuts cut hcut).2
      · apply (nodup_places scope cut.1).imp
        intro a b hne chain ha hb
        have heq := head?_of_mem_chainsFrom ha
        rw [head?_of_mem_chainsFrom hb, Option.some.injEq] at heq
        exact hne heq.symm
    · -- the first property tells how long the first segment is
      apply (pairwise_segmentCuts s).imp_of_mem
      intro a b hamem hbmem hlt chain ha hb
      rw [List.mem_flatMap] at ha hb
      obtain ⟨place, hplace, ha⟩ := ha
      obtain ⟨other, hother, hb⟩ := hb
      have heq := head?_of_mem_chainsFrom ha
      rw [head?_of_mem_chainsFrom hb, Option.some.injEq] at heq
      subst heq
      have hletters := letters_eq_of_mem_places hplace
      rw [letters_eq_of_mem_places hother] at hletters
      have hlength := congrArg List.length hletters
      rw [length_plainLetters (hcuts a hamem).1, length_plainLetters (hcuts b hbmem).1] at hlength
      omega

theorem nodup_continuePlaces (s : EntitySchema) {chunk : List Char} (chain : List Place)
    (hchunk : chunk ≠ []) (hunderscore : '_' ∉ chunk) : (s.continuePlaces chunk chain).Nodup := by
  unfold continuePlaces
  split
  · simp
  · apply List.Nodup.map (List.append_right_injective chain)
    exact nodup_placeChains _ _ hchunk hunderscore

theorem letters_of_mem_chunkPlaces {s : EntitySchema} {chunks : List (List Char)}
    {chain : List Place} (hchunks : ∀ chunk ∈ chunks, chunk ≠ [])
    (hunderscore : ∀ chunk ∈ chunks, '_' ∉ chunk) (h : chain ∈ s.chunkPlaces chunks) :
    (chain.map letters).flatten = plainLetters chunks.flatten
      ∧
    ∀ place ∈ chain, letters place ≠ [] := by
  rw [mem_chunkPlaces hchunks] at h
  obtain ⟨cuts, hcuts, -, hspells⟩ := h
  have hletters := map_letters_of_spells hspells
  constructor
  · rw [hletters, flatten_map_plainLetters, flatten_flatten_of_isCut hcuts]
  · intro place hplace
    have hmem := List.mem_map_of_mem (f := letters) hplace
    rw [hletters, List.mem_map] at hmem
    obtain ⟨segment, hsegment, heq⟩ := hmem
    obtain ⟨chunk, hchunk, hne, hchars⟩ := exists_chunk_of_mem_flatten hcuts hsegment
    rw [← heq, ← List.length_pos_iff, length_plainLetters, List.length_pos_iff]
    · exact hne
    · intro hmem
      exact hunderscore chunk hchunk (hchars '_' hmem)

/--
The part of a chain that spells the first letters is determined by their number.
-/
theorem eq_of_append_eq_append {a b c d : List Place} (h : a ++ c = b ++ d)
    (hletters : (a.map letters).flatten = (b.map letters).flatten)
    (ha : ∀ place ∈ a, letters place ≠ []) (hb : ∀ place ∈ b, letters place ≠ []) : a = b := by
  have hnil : ∀ front rest : List Place, (∀ place ∈ front ++ rest, letters place ≠ []) →
      ((front ++ rest).map letters).flatten = (front.map letters).flatten → rest = [] := by
    intro front rest hne heq
    rw [List.map_append, List.flatten_append, List.append_right_eq_self] at heq
    cases rest with
    | nil => rfl
    | cons place rest =>
      rw [List.map_cons, List.flatten_cons, List.append_eq_nil_iff] at heq
      exact absurd heq.1 (hne place (by simp))
  rcases List.append_eq_append_iff.mp h with ⟨rest, rfl, -⟩ | ⟨rest, rfl, -⟩
  · rw [hnil a rest hb hletters.symm, List.append_nil]
  · rw [hnil b rest ha hletters, List.append_nil]

theorem nodup_chunkPlaces (s : EntitySchema) {chunks : List (List Char)}
    (hchunks : ∀ chunk ∈ chunks, chunk ≠ []) (hunderscore : ∀ chunk ∈ chunks, '_' ∉ chunk) :
    (s.chunkPlaces chunks).Nodup := by
  induction chunks using List.reverseRecOn with
  | nil => simp [chunkPlaces]
  | append_singleton chunks chunk ih =>
    have hfront : ∀ other ∈ chunks, other ≠ [] := by
      intro other hother
      exact hchunks other (by simp [hother])
    have hfront' : ∀ other ∈ chunks, '_' ∉ other := by
      intro other hother
      exact hunderscore other (by simp [hother])
    have hsplit : s.chunkPlaces (chunks ++ [chunk])
        = (s.chunkPlaces chunks).flatMap (s.continuePlaces chunk) := by
      unfold chunkPlaces
      rw [List.foldl_concat]
    rw [hsplit, List.nodup_flatMap]
    constructor
    · intro chain _
      exact nodup_continuePlaces s chain (hchunks chunk (by simp)) (hunderscore chunk (by simp))
    · apply (ih hfront hfront').imp_of_mem
      intro a b ha hb hne chain hchaina hchainb
      -- both begin with what spells the chunks before, and that has the same letters
      rw [mem_continuePlaces (hchunks chunk (by simp))] at hchaina hchainb
      obtain ⟨_, _, -, -, -, heq⟩ := hchaina
      obtain ⟨_, _, -, -, -, heq'⟩ := hchainb
      rw [heq] at heq'
      obtain ⟨haletters, hane⟩ := letters_of_mem_chunkPlaces hfront hfront' ha
      obtain ⟨hbletters, hbne⟩ := letters_of_mem_chunkPlaces hfront hfront' hb
      exact hne (eq_of_append_eq_append heq' (haletters.trans hbletters.symm) hane hbne)

theorem nodup_tokenPlaces (s : EntitySchema) (token : List Char) : (s.tokenPlaces token).Nodup := by
  unfold tokenPlaces
  dsimp only
  split
  · simp
  next hne =>
    apply nodup_chunkPlaces
    · exact ne_nil_of_any_isEmpty hne
    · exact Text.not_mem_of_mem_splitOn '_' token

end EntitySchema
end DerivedQuery
