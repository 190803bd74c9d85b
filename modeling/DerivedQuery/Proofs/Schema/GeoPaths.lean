import DerivedQuery.Proofs.Schema.Rereading
import DerivedQuery.Proofs.Traversal

/-!
This module contains that the geospatial paths of a schema are listed in full and each once: they
are the texts that spell themselves, as paths to a point or to a collection of points.
-/

namespace DerivedQuery

theorem PropertyKind.nested?_of_isGeo {kind : PropertyKind} (h : kind.isGeo = true) :
    kind.nested? = none := by
  match kind with
  | .geoPoint => rfl
  | .collection _ =>
    rw [isGeo] at h
    rw [nested?, nested?_of_isGeo h]

namespace EntitySchema

variable {room : Nat} {s : EntitySchema} {path : String} {chain : List Property}

/-! ### Chains -/

def LeadsToPoints (chain : List Property) : Prop :=
  ∃ last, chain.getLast? = some last ∧ last.kind.isGeo = true

def geoChains : (room : Nat) → EntitySchema → List (List Property)
  | 0, _ => []
  | room + 1, s =>
    s.properties.flatMap fun p =>
      (if p.kind.isGeo then [[]] else p.kind.nested?.elim [] (geoChains room)).map (p :: ·)

theorem mem_geoChains_succ :
    chain ∈ geoChains (room + 1) s
      ↔
    ∃ p ∈ s.properties, ∃ rest,
      rest ∈ (if p.kind.isGeo then [[]] else p.kind.nested?.elim [] (geoChains room))
        ∧
      p :: rest = chain := by
  rw [geoChains]
  simp only [List.mem_flatMap, List.mem_map]

theorem leadsToPoints_singleton {p : Property} : LeadsToPoints [p] ↔ p.kind.isGeo = true := by
  simp [LeadsToPoints]

theorem leadsToPoints_cons_cons {p q : Property} :
    LeadsToPoints (p :: q :: chain) ↔ LeadsToPoints (q :: chain) := by
  rw [LeadsToPoints, LeadsToPoints, List.getLast?_cons_cons]

theorem LeadsToPoints.ne_nil (h : LeadsToPoints chain) : chain ≠ [] := by
  rintro rfl
  obtain ⟨_, hlast, -⟩ := h
  contradiction

theorem mem_geoChains :
    chain ∈ geoChains room s
      ↔
    IsChain (some s) chain ∧ chain.length ≤ room ∧ LeadsToPoints chain := by
  induction room generalizing s chain with
  | zero =>
    constructor
    · intro h
      contradiction
    · rintro ⟨-, hlength, hleads⟩
      rw [List.length_eq_zero_iff.mp (Nat.le_zero.mp hlength)] at hleads
      exact absurd rfl hleads.ne_nil
  | succ room ih =>
    rw [mem_geoChains_succ]
    constructor
    · rintro ⟨p, hp, rest, hrest, rfl⟩
      split at hrest
      next hgeo =>
        rw [List.mem_singleton.mp hrest]
        exact ⟨.cons hp .nil, Nat.le_add_left 1 room, leadsToPoints_singleton.mpr hgeo⟩
      next =>
        cases hnested : p.kind.nested? with
        | none =>
          rw [hnested] at hrest
          contradiction
        | some inner =>
          rw [hnested, Option.elim_some, ih] at hrest
          obtain ⟨hchain, hlength, hleads⟩ := hrest
          refine ⟨.cons hp (hnested ▸ hchain), Nat.succ_le_succ hlength, ?_⟩
          cases rest with
          | nil => exact absurd rfl hleads.ne_nil
          | cons q rest => exact leadsToPoints_cons_cons.mpr hleads
    · rintro ⟨hchain, hlength, hleads⟩
      cases hchain with
      | nil => exact absurd rfl hleads.ne_nil
      | @cons _ p rest hp hrest =>
        refine ⟨p, hp, rest, ?_, rfl⟩
        cases rest with
        | nil =>
          rw [if_pos (leadsToPoints_singleton.mp hleads)]
          exact List.mem_singleton_self _
        | cons q rest =>
          have hgeo : ¬ p.kind.isGeo = true := by
            intro hgeo
            rw [PropertyKind.nested?_of_isGeo hgeo] at hrest
            cases hrest
          rw [if_neg hgeo]
          cases hnested : p.kind.nested? with
          | none =>
            rw [hnested] at hrest
            cases hrest
          | some inner =>
            rw [hnested] at hrest
            rw [Option.elim_some, ih]
            exact ⟨hrest, Nat.le_of_succ_le_succ hlength, leadsToPoints_cons_cons.mp hleads⟩

theorem nodup_geoChains (h : s.HasDistinctNames) : (geoChains room s).Nodup := by
  induction room generalizing s with
  | zero => exact List.nodup_nil
  | succ room ih =>
    rw [geoChains, List.nodup_flatMap]
    constructor
    · intro p hp
      refine List.Nodup.map List.cons_injective ?_
      split
      · exact List.nodup_singleton _
      · cases hnested : p.kind.nested? with
        | none => exact List.nodup_nil
        | some inner => exact ih (h.nested hp hnested)
    · -- chains that begin with different properties differ
      refine (List.Nodup.of_map _ h.names).imp ?_
      intro p q hne chain hp hq
      obtain ⟨_, -, rfl⟩ := List.mem_map.mp hp
      obtain ⟨_, -, heq⟩ := List.mem_map.mp hq
      exact hne (List.cons.inj heq).1.symm

/-! ### Texts -/

def textBelow (path : String) (chain : List Property) : String :=
  chain.foldl (fun path p => extendPath path p.name) path

theorem geoPathsIn_eq (path : String) (room : Nat) (kind : PropertyKind) :
    geoPathsIn path room kind = kind.nested?.elim [] (geoPathsFrom path room) := by
  match kind with
  | .scalar _ | .geoPoint | .reference _ => rfl
  | .embedded _ => rfl
  | .collection element => rw [geoPathsIn, PropertyKind.nested?, geoPathsIn_eq path room element]

theorem geoPathsOf_eq (path : String) (room : Nat) (properties : List Property) :
    geoPathsOf path room properties
      =
    properties.flatMap fun p =>
      if p.kind.isGeo then [extendPath path p.name]
      else p.kind.nested?.elim [] (geoPathsFrom (extendPath path p.name) room) := by
  induction properties with
  | nil => rfl
  | cons p properties ih =>
    obtain ⟨name, kind⟩ := p
    rw [geoPathsOf, ih, geoPathsIn_eq, List.flatMap_cons]

theorem geoPathsFrom_eq (path : String) (room : Nat) (s : EntitySchema) :
    geoPathsFrom path room s = (geoChains room s).map (textBelow path) := by
  induction room generalizing path s with
  | zero =>
    obtain ⟨name, properties⟩ := s
    rfl
  | succ room ih =>
    obtain ⟨name, properties⟩ := s
    rw [geoPathsFrom, geoPathsOf_eq, geoChains, List.map_flatMap]
    congr 1
    funext p
    split
    · rfl
    · cases p.kind.nested? with
      | none => rfl
      | some inner =>
        rw [Option.elim_some, Option.elim_some, ih, List.map_map]
        rfl

def IsNamed (s : EntitySchema) : Prop :=
  ∀ level ∈ s.levels, ∀ p ∈ level.properties, p.name ≠ ""

instance (s : EntitySchema) : Decidable s.IsNamed :=
  inferInstanceAs (Decidable (∀ level ∈ s.levels, _))

theorem extendPath_of_ne (h : path ≠ "") (name : String) :
    extendPath path name = path ++ "." ++ name := by
  unfold extendPath
  rw [if_neg]
  simpa using h

theorem textBelow_of_ne (h : path ≠ "") (chain : List Property) :
    textBelow path chain = ".".intercalate (path :: chain.map Property.name) := by
  induction chain generalizing path with
  | nil => simp [textBelow]
  | cons p chain ih =>
    have hne : extendPath path p.name ≠ "" := by
      rw [extendPath_of_ne h]
      simp
    have hstep : textBelow path (p :: chain) = textBelow (extendPath path p.name) chain := rfl
    rw [hstep, ih hne, extendPath_of_ne h, ← String.toList_inj]
    cases chain with
    | nil => simp
    | cons q chain => simp [String.toList_intercalate]

theorem textBelow_root (h : ∀ p ∈ chain, p.name ≠ "") :
    textBelow "" chain = Resolution.chainName chain := by
  cases chain with
  | nil => rfl
  | cons p chain =>
    have hstep : textBelow "" (p :: chain) = textBelow p.name chain := rfl
    rw [hstep, textBelow_of_ne (h p List.mem_cons_self)]
    rfl

theorem mem_geoPaths (h : s.IsNamed) {text : String} :
    text ∈ s.geoPaths ↔ ∃ chain ∈ geoChains maxPathDepth s, text = Resolution.chainName chain := by
  have hnames : ∀ chain ∈ geoChains maxPathDepth s, ∀ p ∈ chain, p.name ≠ "" := by
    intro chain hchain
    exact (mem_geoChains.mp hchain).1.forall_of_levels h
  rw [geoPaths, geoPathsFrom_eq, List.mem_map]
  constructor
  · rintro ⟨chain, hchain, rfl⟩
    exact ⟨chain, hchain, textBelow_root (hnames chain hchain)⟩
  · rintro ⟨chain, hchain, rfl⟩
    exact ⟨chain, hchain, textBelow_root (hnames chain hchain)⟩

end EntitySchema

/-! ### Agreement -/

namespace PropertyPath

variable {s : EntitySchema} {chain : List Property} {path : PropertyPath}

theorem isGeo_eq (segments : List String) (kind : PropertyKind) :
    isGeo ⟨segments, .ofKind kind⟩ = kind.isGeo := by
  cases kind with
  | collection element =>
    rw [PropertyKind.isGeo]
    cases h : element.isGeo <;> simp [isGeo, Leaf.ofKind, h]
  | scalar | embedded | geoPoint | reference => rfl

theorem isGeo_iff_of_ofChain? (h : ofChain? chain = some path) :
    path.isGeo = true ↔ EntitySchema.LeadsToPoints chain := by
  rw [ofChain?, Option.map_eq_some_iff] at h
  obtain ⟨last, hlast, rfl⟩ := h
  rw [isGeo_eq, EntitySchema.LeadsToPoints, hlast]
  simp

end PropertyPath

namespace EntitySchema

open PropertyPath

variable {s : EntitySchema} {chain : List Property}

theorem eq_of_chainName_eq (hdistinct : s.HasDistinctNames) (hdots : s.IsDotFree)
    {other : List Property} (hchain : IsChain (some s) chain) (hother : IsChain (some s) other)
    (hne : chain ≠ []) (hne' : other ≠ [])
    (h : Resolution.chainName chain = Resolution.chainName other) : chain = other := by
  have hnames : ∀ {chain}, IsChain (some s) chain → chain ≠ [] →
      Text.split '.' (Resolution.chainName chain) = chain.map Property.name := by
    intro chain hchain hne
    apply split_intercalate_dot (by simpa using hne)
    have hdots := hchain.forall_of_levels hdots
    simpa using hdots
  have hmap := hnames hchain hne
  rw [h, hnames hother hne'] at hmap
  have hfound :=
    chainOfNames?_of_isChain (by simpa using hdistinct) hchain (le_max_left _ other.length)
  rw [← hmap, chainOfNames?_of_isChain (by simpa using hdistinct) hother (le_max_right _ _),
    Option.some.injEq] at hfound
  exact hfound.symm

theorem nodup_geoPaths (hdistinct : s.HasDistinctNames) (hdots : s.IsDotFree) (hnamed : s.IsNamed) :
    s.geoPaths.Nodup := by
  rw [geoPaths, geoPathsFrom_eq]
  apply (nodup_geoChains hdistinct).map_on
  intro chain hchain other hother htext
  rw [mem_geoChains] at hchain hother
  obtain ⟨hchain, -, hleads⟩ := hchain
  obtain ⟨hother, -, hleads'⟩ := hother
  rw [textBelow_root (hchain.forall_of_levels hnamed),
    textBelow_root (hother.forall_of_levels hnamed)] at htext
  exact eq_of_chainName_eq hdistinct hdots hchain hother hleads.ne_nil hleads'.ne_nil htext

/--
The geospatial paths of a schema are the texts that mean a path to points of the same text, and none
of them is listed twice.
-/
theorem nodup_geoPaths_and_mem_iff_resolveDotted (hdistinct : s.HasDistinctNames)
    (hdots : s.IsDotFree) (hnamed : s.IsNamed) :
    s.geoPaths.Nodup
      ∧
    ∀ text method,
      text ∈ s.geoPaths
        ↔
      ∃ path, resolveDotted s text method = .ok path ∧ path.dotted = text ∧ path.isGeo = true := by
  refine ⟨nodup_geoPaths hdistinct hdots hnamed, ?_⟩
  intro text method
  rw [mem_geoPaths hnamed]
  constructor
  · rintro ⟨chain, hchain, rfl⟩
    obtain ⟨hchain, hlength, hleads⟩ := mem_geoChains.mp hchain
    obtain ⟨last, hlast, -⟩ := id hleads
    obtain ⟨path, hpath⟩ : ∃ path, ofChain? chain = some path := by
      rw [ofChain?, hlast]
      exact ⟨_, rfl⟩
    have htext : path.dotted = Resolution.chainName chain := by
      rw [dotted, segments_of_ofChain? hpath]
      rfl
    refine ⟨path, ?_, htext, (isGeo_iff_of_ofChain? hpath).mpr hleads⟩
    rw [← htext]
    apply resolveDotted_dotted_of_chain _ _ hpath
    · exact chainOfNames?_of_isChain (by simpa using hdistinct) hchain hlength
    · exact hchain.forall_of_levels hdots
  · rintro ⟨path, hresolve, rfl, hgeo⟩
    obtain ⟨chain, hnames, hpath⟩ := resolveDotted_eq_ok_iff.mp hresolve
    obtain ⟨hchain, hlength⟩ := isChain_of_chainOfNames? hnames
    refine ⟨chain, mem_geoChains.mpr ⟨hchain, hlength, (isGeo_iff_of_ofChain? hpath).mp hgeo⟩, ?_⟩
    rw [dotted, segments_of_ofChain? hpath]
    rfl

/--
A house whose rooms, in two wings on each floor, have doors, with landing spots on the roof.
-/
def house : (floors : Nat) → EntitySchema
  | 0 => ⟨"Roof", [⟨"spots", .collection .geoPoint⟩]⟩
  | floors + 1 =>
    ⟨"Floor", [⟨"door", .geoPoint⟩, ⟨"owner", .reference "Person"⟩,
      ⟨"rooms", .collection (.collection (.embedded (house floors)))⟩]⟩

def housePath (floors : Nat) (name : String) : String :=
  ".".intercalate (List.replicate floors "rooms" ++ [name])

/--
Of a house with 32 floors the doors are listed, and the spots on its roof are too deep.
-/
theorem nodup_geoPaths_and_mem_iff_resolveDotted_house :
    (house 32).HasDistinctNames ∧ (house 32).IsDotFree ∧ (house 32).IsNamed
      ∧
    (house 32).geoPaths.Nodup
      ∧
    housePath 31 "door" ∈ (house 32).geoPaths ∧ housePath 32 "spots" ∉ (house 32).geoPaths := by
  have hdistinct : (house 32).HasDistinctNames := by
    decide +kernel
  have hdots : (house 32).IsDotFree := by
    decide +kernel
  have hnamed : (house 32).IsNamed := by
    decide +kernel
  obtain ⟨hnodup, hmem⟩ := nodup_geoPaths_and_mem_iff_resolveDotted hdistinct hdots hnamed
  refine ⟨hdistinct, hdots, hnamed, hnodup, ?door, ?spots⟩
  case door =>
    rw [hmem _ "ensureIndexes"]
    have hfound : ((resolveDotted (house 32) (housePath 31 "door") "ensureIndexes").toOption.any
        fun path => path.dotted = housePath 31 "door" ∧ path.isGeo = true) = true := by
      decide +kernel
    rw [Option.any_eq_true] at hfound
    obtain ⟨path, hpath, hgeo⟩ := hfound
    rw [decide_eq_true_iff] at hgeo
    exact ⟨path, toOption_eq_some_iff.mp hpath, hgeo⟩
  case spots =>
    rw [hmem _ "ensureIndexes"]
    rintro ⟨path, hpath, -⟩
    have hmissing : (resolveDotted (house 32) (housePath 32 "spots") "ensureIndexes").toOption
        = none := by
      decide +kernel
    rw [← toOption_eq_some_iff, hmissing] at hpath
    cases hpath

end EntitySchema
end DerivedQuery
