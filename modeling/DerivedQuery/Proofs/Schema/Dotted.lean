import DerivedQuery.Proofs.Pattern.Folding
import DerivedQuery.Proofs.Schema.Spelling
import Mathlib.Data.List.Nodup
import Mathlib.Data.String.Basic

/-!
This module contains what a path with dots means: at each level the first of the properties that its
segment can mean. They are those of exactly the name, or, where there is none, all that it spells.
-/

namespace DerivedQuery

/-! ### Segments -/

theorem dot_mem_plainLetters {s : List Char} : '.' ∈ plainLetters s ↔ '.' ∈ s := by
  unfold plainLetters
  simp only [List.mem_map, List.mem_filter]
  constructor
  · rintro ⟨c, ⟨hc, -⟩, hlower⟩
    have hsame : Text.sameLetter c '.' = true := by
      rw [Text.sameLetter, hlower]
      rfl
    rwa [← (Text.eq_iff_of_sameLetter hsame (m := '.') rfl).mpr rfl]
  · intro h
    exact ⟨'.', ⟨h, rfl⟩, rfl⟩

theorem split_intercalate_dot {names : List String} (hne : names ≠ [])
    (h : ∀ name ∈ names, '.' ∉ name.toList) : Text.split '.' (".".intercalate names) = names := by
  have hsplit : Text.splitOn '.' (List.intercalate ['.'] (names.map String.toList))
      = names.map String.toList := by
    apply splitOn_intercalate
    · simpa using hne
    · simpa using h
  unfold Text.split
  rw [String.toList_intercalate]
  change (Text.splitOn '.' (List.intercalate ['.'] (names.map String.toList))).map String.ofList = _
  rw [hsplit, List.map_map]
  simp [Function.comp_def]

theorem Property.matchesSegment_self (p : Property) : p.matchesSegment p.name.toList = true :=
  beq_self_eq_true _

namespace EntitySchema

variable {s : EntitySchema} {name : String} {p q : Property}

def meant (s : EntitySchema) (name : String) : List Property :=
  if (s.get? name).isSome then s.properties.filter fun p => p.name == name
  else s.matching name.toList

theorem head?_meant (s : EntitySchema) (name : String) :
    (s.meant name).head? = (s.get? name).or (s.matching name.toList).head? := by
  unfold meant
  cases hget : s.get? name with
  | none => rfl
  | some p =>
    rw [Option.isSome_some, if_pos rfl, List.head?_filter, Option.some_or, ← hget]
    rfl

theorem get?_isSome_iff : (s.get? name).isSome = true ↔ ∃ p ∈ s.properties, p.name = name := by
  unfold get?
  simp only [List.find?_isSome, beq_iff_eq]

theorem mem_meant :
    p ∈ s.meant name
      ↔
    p ∈ s.properties
      ∧ (p.name = name
        ∨ (∀ q ∈ s.properties, q.name ≠ name) ∧ p.matchesSegment name.toList = true) := by
  unfold meant matching
  by_cases hexact : ∃ q ∈ s.properties, q.name = name
  · rw [if_pos (get?_isSome_iff.mpr hexact), List.mem_filter, beq_iff_eq]
    obtain ⟨q, hq, hname⟩ := hexact
    rw [or_iff_left (fun h => h.1 q hq hname)]
  · rw [if_neg (get?_isSome_iff.not.mpr hexact), List.mem_filter]
    have hnone : ∀ q ∈ s.properties, q.name ≠ name := by
      intro q hq hname
      exact hexact ⟨q, hq, hname⟩
    apply and_congr_right
    intro hp
    rw [or_iff_right (hnone p hp), and_iff_right hnone]

theorem exists_filter_eq_meant (s : EntitySchema) (name : String) :
    ∃ test, s.meant name = s.properties.filter test := by
  unfold meant matching
  split
  next => exact ⟨_, rfl⟩
  next => exact ⟨_, rfl⟩

theorem matchesSegment_of_mem_meant (h : p ∈ s.meant name) :
    p.matchesSegment name.toList = true := by
  rcases (mem_meant.mp h).2 with rfl | ⟨-, hmatches⟩
  · exact p.matchesSegment_self
  · exact hmatches

theorem head?_meant_name (h : (s.meant name).head? = some p) : (s.meant p.name).head? = some p := by
  have hp := mem_meant.mp (List.mem_of_head? h)
  rcases hp.2 with hname | ⟨hnone, -⟩
  · rwa [hname]
  · have hexact : (s.get? p.name).isSome = true := get?_isSome_iff.mpr ⟨p, hp.1, rfl⟩
    have hspelled : ¬ (s.get? name).isSome = true := by
      rw [get?_isSome_iff]
      rintro ⟨q, hq, hname⟩
      exact hnone q hq hname
    rw [meant, if_neg hspelled, matching, List.head?_filter, List.find?_eq_some_iff_append] at h
    obtain ⟨hmatches, before, behind, hsplit, hbefore⟩ := h
    rw [meant, if_pos hexact, List.head?_filter, List.find?_eq_some_iff_append]
    refine ⟨beq_self_eq_true _, before, behind, hsplit, ?_⟩
    intro q hq
    have hq := hbefore q hq
    rw [Bool.not_eq_true', Property.matchesSegment] at hq
    rw [Bool.not_eq_true', beq_eq_false_iff_ne]
    intro hname
    rw [hname] at hq
    rw [Property.matchesSegment, hq] at hmatches
    contradiction

theorem eq_of_name_eq (hdistinct : (s.properties.map Property.name).Nodup) (hp : p ∈ s.properties)
    (hq : q ∈ s.properties) (hname : p.name = q.name) : p = q :=
  List.inj_on_of_nodup_map hdistinct hp hq hname

theorem head?_meant_of_mem (hdistinct : (s.properties.map Property.name).Nodup)
    (hp : p ∈ s.properties) : (s.meant p.name).head? = some p := by
  cases hmeant : s.meant p.name with
  | nil =>
    have hmem : p ∈ s.meant p.name := mem_meant.mpr ⟨hp, .inl rfl⟩
    rw [hmeant] at hmem
    contradiction
  | cons q others =>
    obtain ⟨hq, hname | ⟨hnone, -⟩⟩ := mem_meant.mp (hmeant ▸ List.mem_cons_self)
    · rw [List.head?_cons, eq_of_name_eq hdistinct hq hp hname]
    · exact absurd rfl (hnone p hp)

/-! ### Levels -/

mutual

def levels : EntitySchema → List EntitySchema
  | ⟨name, properties⟩ => ⟨name, properties⟩ :: levelsOf properties

def levelsOf : List Property → List EntitySchema
  | [] => []
  | ⟨_, kind⟩ :: properties => levelsIn kind ++ levelsOf properties

def levelsIn : PropertyKind → List EntitySchema
  | .embedded schema => levels schema
  | .collection element => levelsIn element
  | _ => []

end

theorem self_mem_levels (s : EntitySchema) : s ∈ s.levels := by
  obtain ⟨name, properties⟩ := s
  exact List.mem_cons_self

theorem levelsIn_of_nested? {kind : PropertyKind} {inner : EntitySchema}
    (h : kind.nested? = some inner) : levelsIn kind = inner.levels := by
  match kind with
  | .embedded _ =>
    rw [PropertyKind.nested?, Option.some.injEq] at h
    rw [levelsIn, h]
  | .collection _ =>
    rw [PropertyKind.nested?] at h
    rw [levelsIn, levelsIn_of_nested? h]

theorem levelsIn_subset_levelsOf {properties : List Property} (h : p ∈ properties) :
    levelsIn p.kind ⊆ levelsOf properties := by
  induction properties with
  | nil => contradiction
  | cons q properties ih =>
    obtain ⟨name, kind⟩ := q
    rw [levelsOf]
    rcases List.mem_cons.mp h with rfl | h
    · exact List.subset_append_left _ _
    · exact List.subset_append_of_subset_right _ (ih h)

theorem levels_subset_of_nested? {inner : EntitySchema} (hp : p ∈ s.properties)
    (h : p.kind.nested? = some inner) : inner.levels ⊆ s.levels := by
  obtain ⟨name, properties⟩ := s
  rw [← levelsIn_of_nested? h, levels]
  exact List.subset_cons_of_subset _ (levelsIn_subset_levelsOf hp)

/--
No two properties of the same level have the same name.
-/
def HasDistinctNames (s : EntitySchema) : Prop :=
  ∀ level ∈ s.levels, (level.properties.map Property.name).Nodup

def IsDotFree (s : EntitySchema) : Prop :=
  ∀ level ∈ s.levels, ∀ p ∈ level.properties, '.' ∉ p.name.toList

instance (s : EntitySchema) : Decidable s.HasDistinctNames :=
  inferInstanceAs (Decidable (∀ level ∈ s.levels, _))

instance (s : EntitySchema) : Decidable s.IsDotFree :=
  inferInstanceAs (Decidable (∀ level ∈ s.levels, _))

theorem HasDistinctNames.names (h : s.HasDistinctNames) : (s.properties.map Property.name).Nodup :=
  h s s.self_mem_levels

theorem HasDistinctNames.nested {inner : EntitySchema} (h : s.HasDistinctNames)
    (hp : p ∈ s.properties) (hinner : p.kind.nested? = some inner) : inner.HasDistinctNames :=
  fun level hlevel => h level (levels_subset_of_nested? hp hinner hlevel)

end EntitySchema

namespace PropertyPath

variable {room : Nat} {s : EntitySchema} {scope : Option EntitySchema} {name : String}
  {names : List String} {chain : List Property} {path : PropertyPath} {dotted method : String}

theorem chainOfNames?_succ (room : Nat) (s : EntitySchema) (name : String) (names : List String) :
    chainOfNames? (room + 1) (some s) (name :: names)
      =
    (s.meant name).head?.bind fun p => (chainOfNames? room p.kind.nested? names).map (p :: ·) := by
  rw [chainOfNames?, EntitySchema.head?_meant]
  simp only [Option.map_eq_bind]
  rfl

theorem chainOfNames?_cons_eq_some_iff :
    chainOfNames? room scope (name :: names) = some chain
      ↔
    ∃ left s p rest, room = left + 1 ∧ scope = some s ∧ (s.meant name).head? = some p
      ∧ chainOfNames? left p.kind.nested? names = some rest ∧ chain = p :: rest := by
  cases room with
  | zero => simp [chainOfNames?]
  | succ left =>
    cases scope with
    | none => simp [chainOfNames?]
    | some s =>
      simp only [chainOfNames?_succ, Option.bind_eq_some_iff, Option.map_eq_some_iff]
      constructor
      · rintro ⟨p, hp, rest, hrest, rfl⟩
        exact ⟨left, s, p, rest, rfl, rfl, hp, hrest, rfl⟩
      · rintro ⟨_, _, p, rest, hroom, hs, hp, hrest, rfl⟩
        cases hroom
        cases hs
        exact ⟨p, hp, rest, hrest, rfl⟩

theorem segments_of_ofChain? (h : ofChain? chain = some path) :
    path.segments = chain.map Property.name := by
  rw [ofChain?, Option.map_eq_some_iff] at h
  obtain ⟨last, -, rfl⟩ := h
  rfl

theorem ne_nil_of_ofChain? (h : ofChain? chain = some path) : chain ≠ [] := by
  rintro rfl
  contradiction

theorem resolveDotted_eq_ok_iff :
    resolveDotted s dotted method = .ok path
      ↔
    ∃ chain, chainOfNames? maxPathDepth (some s) (Text.split '.' dotted) = some chain
      ∧ ofChain? chain = some path := by
  rw [← Option.bind_eq_some_iff]
  change _ ↔ ofDotted? s dotted = some path
  unfold resolveDotted
  cases ofDotted? s dotted <;> simp

end PropertyPath
end DerivedQuery
