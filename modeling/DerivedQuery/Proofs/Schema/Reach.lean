import DerivedQuery.Proofs.Schema.Dotted
import DerivedQuery.Proofs.Schema.Resolution

/-!
This module contains that whatever is resolved lies in the schema: a path, however it was spelled,
goes along properties each of which belongs to the schema that the one before holds.
-/

namespace DerivedQuery

/--
The first property belongs to the scope, each next one to the schema that the one before holds.
-/
inductive IsChain : Option EntitySchema → List Property → Prop where
  | nil {scope : Option EntitySchema} : IsChain scope []
  | cons {s : EntitySchema} {p : Property} {chain : List Property} (mem : p ∈ s.properties)
      (rest : IsChain p.kind.nested? chain) : IsChain (some s) (p :: chain)

theorem IsChain.forall_of_levels {P : Property → Prop} {s : EntitySchema} {chain : List Property}
    (hlevels : ∀ level ∈ s.levels, ∀ p ∈ level.properties, P p) (h : IsChain (some s) chain) :
    ∀ p ∈ chain, P p := by
  induction chain generalizing s with
  | nil => simp
  | cons p chain ih =>
    cases h with
    | cons hp hrest =>
      rw [List.forall_mem_cons]
      refine ⟨hlevels s s.self_mem_levels p hp, ?_⟩
      cases hnested : p.kind.nested? with
      | none =>
        rw [hnested] at hrest
        cases hrest
        simp
      | some inner =>
        rw [hnested] at hrest
        refine ih ?_ hrest
        intro level hlevel
        exact hlevels level (EntitySchema.levels_subset_of_nested? hp hnested hlevel)

def EntitySchema.HasPath (s : EntitySchema) (path : String) : Prop :=
  ∃ chain, IsChain (some s) chain ∧ chain ≠ [] ∧ chain.length ≤ maxPathDepth
    ∧ path = Resolution.chainName chain

theorem Spells.isChain {scope : Option EntitySchema} {segments : List (List Char)}
    {chain : List Place} (h : Spells scope segments chain) :
    IsChain scope (chain.map Prod.fst) := by
  induction h with
  | nil => exact .nil
  | cons position _ _ ih => exact .cons (List.mem_of_getElem? position) ih

namespace PropertyPath

variable {s : EntitySchema} {path : PropertyPath} {method : String}

theorem exists_chain_of_found {token : List Char} (h : Resolution.of s token = .found path) :
    ∃ chain, IsChain (some s) chain ∧ chain.length ≤ maxPathDepth
      ∧ ofChain? chain = some path := by
  obtain ⟨chain, hshortest, -, halong⟩ := Resolution.of_eq_found_iff.mp h
  obtain ⟨path', hpath', halong'⟩ := Resolution.exists_isAlong hshortest.1.ne_nil
  obtain ⟨_, cuts, -, -, hdepth, hspells⟩ := hshortest.1
  refine ⟨chain.map Prod.fst, hspells.isChain, ?_, ?_⟩
  · rw [List.length_map, hspells.length_eq]
    exact hdepth
  · rw [hpath', halong.eq halong']

theorem isChain_of_chainOfNames? {room : Nat} {scope : Option EntitySchema} {names : List String}
    {chain : List Property} (h : chainOfNames? room scope names = some chain) :
    IsChain scope chain ∧ chain.length ≤ room := by
  induction names generalizing room scope chain with
  | nil =>
    rw [chainOfNames?, Option.some.injEq] at h
    rw [← h]
    exact ⟨.nil, Nat.zero_le room⟩
  | cons name names ih =>
    rw [chainOfNames?_cons_eq_some_iff] at h
    obtain ⟨left, s, p, rest, rfl, rfl, hp, hrest, rfl⟩ := h
    obtain ⟨hchain, hlength⟩ := ih hrest
    have hmem := (EntitySchema.mem_meant.mp (List.mem_of_head? hp)).1
    exact ⟨.cons hmem hchain, Nat.succ_le_succ hlength⟩

theorem hasPath_of_ofChain? {chain : List Property} (h : IsChain (some s) chain)
    (hlength : chain.length ≤ maxPathDepth) (hpath : ofChain? chain = some path) :
    s.HasPath path.dotted := by
  refine ⟨chain, h, ne_nil_of_ofChain? hpath, hlength, ?_⟩
  rw [dotted, segments_of_ofChain? hpath]
  rfl

theorem hasPath_of_found {token : List Char} (h : Resolution.of s token = .found path) :
    s.HasPath path.dotted := by
  obtain ⟨chain, hchain, hlength, hpath⟩ := exists_chain_of_found h
  exact hasPath_of_ofChain? hchain hlength hpath

theorem hasPath_of_resolve {token : List Char} (h : resolve s token method = .ok path) :
    s.HasPath path.dotted :=
  hasPath_of_found (resolve_eq_ok_iff.mp h)

theorem hasPath_of_resolveDotted {given : String} (h : resolveDotted s given method = .ok path) :
    s.HasPath path.dotted := by
  rw [resolveDotted_eq_ok_iff] at h
  obtain ⟨chain, hnames, hpath⟩ := h
  obtain ⟨hchain, hlength⟩ := isChain_of_chainOfNames? hnames
  exact hasPath_of_ofChain? hchain hlength hpath

end PropertyPath
end DerivedQuery
