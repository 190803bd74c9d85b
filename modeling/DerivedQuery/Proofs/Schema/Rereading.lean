import DerivedQuery.Proofs.Schema.Reach

/-!
This module contains that the two ways to spell a path agree: a path that either of them finds is
found again by its own dotted text, be it as long as paths can be.
-/

namespace DerivedQuery
namespace PropertyPath

variable {room : Nat} {s : EntitySchema} {scope : Option EntitySchema} {names : List String}
  {chain : List Property} {path : PropertyPath} {dotted method : String}

/-! ### Chains -/

theorem chainOfNames?_map_name (h : chainOfNames? room scope names = some chain) :
    chainOfNames? room scope (chain.map Property.name) = some chain := by
  induction names generalizing room scope chain with
  | nil =>
    rw [chainOfNames?, Option.some.injEq] at h
    rw [← h, List.map_nil, chainOfNames?]
  | cons name names ih =>
    rw [chainOfNames?_cons_eq_some_iff] at h
    obtain ⟨left, s, p, rest, rfl, rfl, hp, hrest, rfl⟩ := h
    rw [List.map_cons, chainOfNames?_cons_eq_some_iff]
    exact ⟨left, s, p, rest, rfl, rfl, EntitySchema.head?_meant_name hp, ih hrest, rfl⟩

theorem chainOfNames?_of_isChain (hdistinct : ∀ s ∈ scope, s.HasDistinctNames)
    (h : IsChain scope chain) (hlength : chain.length ≤ room) :
    chainOfNames? room scope (chain.map Property.name) = some chain := by
  induction h generalizing room with
  | nil => rw [List.map_nil, chainOfNames?]
  | @cons s p chain hp _ ih =>
    have hs : s.HasDistinctNames := hdistinct s rfl
    obtain ⟨left, rfl⟩ : ∃ left, room = left + 1 :=
      Nat.exists_eq_add_one.mpr (Nat.lt_of_lt_of_le (Nat.succ_pos _) hlength)
    rw [List.map_cons, chainOfNames?_cons_eq_some_iff]
    refine ⟨left, s, p, chain, rfl, rfl, EntitySchema.head?_meant_of_mem hs.names hp, ?_, rfl⟩
    apply ih _ (Nat.le_of_succ_le_succ hlength)
    intro inner hinner
    exact hs.nested hp hinner

/-! ### Dots -/

theorem dot_not_mem_of_chainOfNames? (hnames : ∀ name ∈ names, '.' ∉ name.toList)
    (h : chainOfNames? room scope names = some chain) : ∀ p ∈ chain, '.' ∉ p.name.toList := by
  induction names generalizing room scope chain with
  | nil =>
    rw [chainOfNames?, Option.some.injEq] at h
    simp [← h]
  | cons name names ih =>
    rw [chainOfNames?_cons_eq_some_iff] at h
    obtain ⟨left, s, p, rest, rfl, rfl, hp, hrest, rfl⟩ := h
    rw [List.forall_mem_cons] at hnames ⊢
    refine ⟨?_, ih hnames.2 hrest⟩
    -- a segment without dots spells only names without dots
    have hspelled := EntitySchema.matchesSegment_of_mem_meant (List.mem_of_head? hp)
    rw [Property.matchesSegment, beq_iff_eq] at hspelled
    rw [← dot_mem_plainLetters, hspelled, dot_mem_plainLetters]
    exact hnames.1

theorem resolveDotted_dotted_of_chain
    (hchain : chainOfNames? maxPathDepth (some s) (chain.map Property.name) = some chain)
    (hdots : ∀ p ∈ chain, '.' ∉ p.name.toList) (hpath : ofChain? chain = some path) :
    resolveDotted s path.dotted method = .ok path := by
  rw [resolveDotted_eq_ok_iff]
  refine ⟨chain, ?_, hpath⟩
  have hne : chain.map Property.name ≠ [] := by
    simpa using ne_nil_of_ofChain? hpath
  rw [dotted, segments_of_ofChain? hpath, split_intercalate_dot hne, hchain]
  simpa using hdots

/-! ### Agreement -/

/--
A path that was found by a dotted text is found again by its own. So is a path that was found by a
token, if the names of the schema are distinct at each level and free of dots.
-/
theorem resolveDotted_dotted (s : EntitySchema) :
    (∀ dotted method path, resolveDotted s dotted method = .ok path →
      ∀ again, resolveDotted s path.dotted again = .ok path)
      ∧
    (s.HasDistinctNames → s.IsDotFree → ∀ token method path, resolve s token method = .ok path →
      ∀ again, resolveDotted s path.dotted again = .ok path) := by
  constructor
  · intro dotted method path h again
    rw [resolveDotted_eq_ok_iff] at h
    obtain ⟨chain, hchain, hpath⟩ := h
    have hnames : ∀ name ∈ Text.split '.' dotted, '.' ∉ name.toList := by
      intro name hname
      obtain ⟨piece, hpiece, rfl⟩ := List.mem_map.mp hname
      rw [String.toList_ofList]
      exact Text.not_mem_of_mem_splitOn '.' dotted.toList piece hpiece
    exact resolveDotted_dotted_of_chain (chainOfNames?_map_name hchain)
      (dot_not_mem_of_chainOfNames? hnames hchain) hpath
  · intro hdistinct hdots token method path h again
    obtain ⟨chain, hchain, hlength, hpath⟩ := exists_chain_of_found (resolve_eq_ok_iff.mp h)
    apply resolveDotted_dotted_of_chain _ _ hpath
    · exact chainOfNames?_of_isChain (by simpa using hdistinct) hchain hlength
    · exact hchain.forall_of_levels hdots

def ladder : (steps : Nat) → EntitySchema
  | 0 => ⟨"Top", [⟨"tag", .scalar .string⟩]⟩
  | steps + 1 =>
    ⟨"Step", [⟨"tag", .geoPoint⟩, ⟨"sub_Step", .collection (.embedded (ladder steps))⟩]⟩

def topPath : PropertyPath :=
  ⟨List.replicate 31 "sub_Step" ++ ["tag"], .scalar .string⟩

def topToken : List Char :=
  (List.replicate 31 "SubStep".toList).flatten ++ "Tag".toList

theorem resolveDotted_dotted_ladder :
    (ladder 31).HasDistinctNames ∧ (ladder 31).IsDotFree
      ∧ resolve (ladder 31) topToken "findByTop" = .ok topPath ∧ topPath.depth = maxPathDepth
      ∧
    resolveDotted (ladder 31) topPath.dotted "findByTop" = .ok topPath := by
  have hdistinct : (ladder 31).HasDistinctNames := by
    decide +kernel
  have hdots : (ladder 31).IsDotFree := by
    decide +kernel
  have hfound : resolve (ladder 31) topToken "findByTop" = .ok topPath := by
    rw [resolve_eq_ok_iff]
    decide +kernel
  exact ⟨hdistinct, hdots, hfound, rfl,
    (resolveDotted_dotted (ladder 31)).2 hdistinct hdots _ _ _ hfound _⟩

end PropertyPath
end DerivedQuery
