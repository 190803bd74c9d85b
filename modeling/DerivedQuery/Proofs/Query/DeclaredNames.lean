import DerivedQuery.Proofs.Schema.Reach
import DerivedQuery.Proofs.Traversal
import DerivedQuery.Query.Compiled

/-!
This module contains what a projection makes of the declared name of a property. A name without
underscores is its own path, whatever else it spells. An underscore ends a segment, so that a name
with one never means its own property.
-/

namespace DerivedQuery

/--
The names are neither empty nor have they dots, and they stay different when neither underscores nor
the case of ASCII letters count.
-/
structure EntitySchema.HasApartNames (s : EntitySchema) : Prop where
  nonempty : ∀ p ∈ s.properties, p.name ≠ ""
  dotFree : ∀ p ∈ s.properties, '.' ∉ p.name.toList
  apart : (s.properties.map fun p => plainLetters p.name.toList).Nodup

instance (s : EntitySchema) : Decidable s.HasApartNames :=
  decidable_of_iff ((∀ p ∈ s.properties, p.name ≠ "") ∧ (∀ p ∈ s.properties, '.' ∉ p.name.toList)
      ∧ (s.properties.map fun p => plainLetters p.name.toList).Nodup)
    ⟨fun ⟨h₁, h₂, h₃⟩ => ⟨h₁, h₂, h₃⟩, fun ⟨h₁, h₂, h₃⟩ => ⟨h₁, h₂, h₃⟩⟩

namespace EntitySchema

variable {s : EntitySchema} {p : Property} {place other : Place} {chain : List Place}
  {token : List Char}

theorem HasApartNames.eq_of_letters_eq (h : s.HasApartNames)
    (hplace : s.properties[place.2]? = some place.1)
    (hother : s.properties[other.2]? = some other.1) (hletters : letters place = letters other) :
    place = other := by
  obtain ⟨p, i⟩ := place
  obtain ⟨q, j⟩ := other
  dsimp only at hplace hother
  have hi : i < (s.properties.map fun p => plainLetters p.name.toList).length := by
    rw [List.length_map]
    exact (List.getElem?_eq_some_iff.mp hplace).1
  have hij : i = j := by
    rw [← List.getElem?_inj hi h.apart, List.getElem?_map, List.getElem?_map, hplace, hother]
    exact congrArg some hletters
  rw [← hij, hplace, Option.some.injEq] at hother
  rw [hij, hother]

/-! ### Tokens without underscores -/

theorem isSpelling_declared {i : Nat} (hplace : s.properties[i]? = some p) (hne : p.name ≠ "")
    (hname : '_' ∉ p.name.toList) : IsSpelling s p.name.toList [(p, i)] := by
  have hchars : p.name.toList ≠ [] := by
    rwa [ne_eq, String.toList_eq_nil_iff]
  refine ⟨[p.name.toList], [[p.name.toList]], ?_, ?_, Nat.le_of_ble_eq_true rfl, ?_⟩
  · rw [isChunks_iff, splitOn_of_not_mem hname]
    simpa using hchars
  · apply List.Forall₂.cons _ .nil
    rw [isCut_cons_iff]
    exact ⟨[], (List.append_nil _).symm, hchars, .inl ⟨rfl, rfl⟩⟩
  · exact .cons hplace p.matchesSegment_self .nil

theorem letters_of_isSpelling_single (hname : '_' ∉ token) (h : IsSpelling s token [place]) :
    s.properties[place.2]? = some place.1 ∧ letters place = plainLetters token := by
  obtain ⟨chunks, cuts, hchunks, hcuts, -, hspells⟩ := h
  constructor
  · generalize cuts.flatten = segments at hspells
    cases hspells with
    | cons hposition => exact hposition
  · have hchunk : chunks = [token] := by
      rw [(isChunks_iff.mp hchunks).1, splitOn_of_not_mem hname]
    calc letters place
      _ = ([place].map letters).flatten := by simp
      _ = (cuts.flatten.map plainLetters).flatten := by rw [map_letters_of_spells hspells]
      _ = plainLetters cuts.flatten.flatten := flatten_map_plainLetters _
      _ = plainLetters token := by
        rw [flatten_flatten_of_isCut hcuts, hchunk, List.flatten_singleton]

theorem found_declared (h : s.HasApartNames) (hp : p ∈ s.properties) (hname : '_' ∉ p.name.toList) :
    Resolution.of s p.name.toList = .found ⟨[p.name], .ofKind p.kind⟩ := by
  obtain ⟨i, hplace⟩ := List.mem_iff_getElem?.mp hp
  have hspelling := isSpelling_declared hplace (h.nonempty p hp) hname
  rw [Resolution.of_eq_found_iff]
  refine ⟨[(p, i)], ⟨hspelling, ?_⟩, ?_, rfl, (p, i), rfl, rfl⟩
  · intro other hother
    exact List.length_pos_iff.mpr hother.ne_nil
  · intro other hother
    have hlength := hother.2 _ hspelling
    have hpos := List.length_pos_iff.mpr hother.1.ne_nil
    obtain ⟨place, rfl⟩ := List.length_eq_one_iff.mp (Nat.le_antisymm hlength hpos)
    obtain ⟨hposition, hletters⟩ := letters_of_isSpelling_single hname hother.1
    have heq : place = (p, i) := h.eq_of_letters_eq hposition hplace hletters
    rw [heq]

/-! ### Tokens with underscores -/

theorem two_le_length_of_isSpelling (hname : '_' ∈ token) (h : IsSpelling s token chain) :
    2 ≤ chain.length := by
  obtain ⟨chunks, cuts, hchunks, hcuts, -, hspells⟩ := h
  rw [hspells.length_eq]
  cases hcuts with
  | nil => exact absurd rfl hchunks.nonempty
  | @cons chunk _ _ _ hcut hcuts =>
    cases hcuts with
    | nil =>
      rw [hchunks.token, List.intercalate_singleton] at hname
      exact absurd hname (hchunks.underscore chunk List.mem_cons_self)
    | cons hcut' =>
      have hpos := List.length_pos_iff.mpr hcut.nonempty
      have hpos' := List.length_pos_iff.mpr hcut'.nonempty
      rw [List.flatten_cons, List.flatten_cons, List.length_append, List.length_append]
      omega

theorem two_le_depth_of_found {path : PropertyPath} (hname : '_' ∈ token)
    (h : Resolution.of s token = .found path) : 2 ≤ path.depth := by
  obtain ⟨chain, hshortest, -, halong⟩ := Resolution.of_eq_found_iff.mp h
  rw [PropertyPath.depth, halong.segments, List.length_map]
  exact two_le_length_of_isSpelling hname hshortest.1

end EntitySchema

namespace CompiledQuery

variable {s : EntitySchema} {p : Property} {sig : Signature} {fields : List String}

theorem projectedField_of_dotFree {field : String} (h : '.' ∉ field.toList) :
    projectedField sig s field
      =
    (PropertyPath.resolve s field.toList sig.name).map PropertyPath.dotted := by
  unfold projectedField
  rw [if_neg (by simpa using h)]
  rfl

theorem exists_resolveProjection_eq_ok (hfields : sig.projection = some fields)
    (hlength : fields.length ≤ maxProjectionFields)
    (h : ∀ field ∈ fields, ∃ path, projectedField sig s field = .ok path) :
    ∃ paths, resolveProjection sig s = .ok (some paths)
      ∧ List.Forall₂ (fun field path => projectedField sig s field = .ok path) fields paths := by
  obtain ⟨paths, hpaths⟩ := exists_forall₂ h
  refine ⟨paths, ?_, hpaths⟩
  unfold resolveProjection
  rw [hfields]
  dsimp only
  rw [if_neg (Nat.not_lt.mpr hlength), mapM_eq_ok_iff.mpr hpaths]
  rfl

/--
A declared name without underscores is projected to its own property, wherever it stands in a
projection whose other fields are resolved. One with underscores is never projected to its own
property, and it is refused if no chain spells it.
-/
theorem resolveProjection_declared (h : s.HasApartNames) (hp : p ∈ s.properties)
    (hfields : sig.projection = some fields) (hlength : fields.length ≤ maxProjectionFields) :
    ('_' ∉ p.name.toList →
      PropertyPath.resolve s p.name.toList sig.name = .ok ⟨[p.name], .ofKind p.kind⟩
        ∧
      ((∀ field ∈ fields, field ≠ p.name → ∃ path, projectedField sig s field = .ok path) →
        ∃ paths, resolveProjection sig s = .ok (some paths)
          ∧ List.Forall₂ (fun field path => field = p.name → path = p.name) fields paths))
      ∧
    ('_' ∈ p.name.toList →
      (∀ path, PropertyPath.resolve s p.name.toList sig.name = .ok path → 2 ≤ path.depth)
        ∧
      ((∀ chain, ¬ IsSpelling s p.name.toList chain) →
        projectedField sig s p.name
          = .error (.unresolvedProperty sig.name s.name p.name))) := by
  have hfield : projectedField sig s p.name
      = (PropertyPath.resolve s p.name.toList sig.name).map PropertyPath.dotted :=
    projectedField_of_dotFree (h.dotFree p hp)
  constructor
  · intro hname
    have hresolve : PropertyPath.resolve s p.name.toList sig.name
        = .ok ⟨[p.name], .ofKind p.kind⟩ :=
      PropertyPath.resolve_eq_ok_iff.mpr (EntitySchema.found_declared h hp hname)
    refine ⟨hresolve, ?_⟩
    intro hothers
    have hself : projectedField sig s p.name = .ok p.name := by
      rw [hfield, hresolve]
      rfl
    have hall : ∀ field ∈ fields, ∃ path, projectedField sig s field = .ok path := by
      intro field hmem
      by_cases heq : field = p.name
      · exact ⟨p.name, heq ▸ hself⟩
      · exact hothers field hmem heq
    obtain ⟨paths, hpaths, hrel⟩ := exists_resolveProjection_eq_ok hfields hlength hall
    refine ⟨paths, hpaths, hrel.imp ?_⟩
    rintro field path hpath rfl
    rw [hself] at hpath
    cases hpath
    rfl
  · intro hname
    constructor
    · intro path hpath
      exact EntitySchema.two_le_depth_of_found hname (PropertyPath.resolve_eq_ok_iff.mp hpath)
    · intro hnone
      have hmissing := Resolution.of_eq_missing_iff.mpr hnone
      rw [hfield, PropertyPath.resolve_eq_unresolved_iff.mpr hmissing, String.ofList_toList]
      rfl

def guest : EntitySchema :=
  ⟨"Guest", [⟨"addressCity", .scalar .string⟩,
    ⟨"address", .embedded ⟨"Address", [⟨"city", .scalar .string⟩]⟩⟩, ⟨"zip_code", .scalar .string⟩]⟩

def guestCities : Signature :=
  { name := "findByZipCode", params := [.value], projection := some ["ZipCode", "addressCity"] }

theorem resolveProjection_declared_guest :
    guest.HasApartNames ∧ ⟨"addressCity", .scalar .string⟩ ∈ guest.properties
      ∧ guestCities.projection = some ["ZipCode", "addressCity"]
      ∧ ["ZipCode", "addressCity"].length ≤ maxProjectionFields ∧ '_' ∉ "addressCity".toList
      ∧ projectedField guestCities guest "ZipCode" = .ok "zip_code"
      ∧
    ∃ paths, resolveProjection guestCities guest = .ok (some paths)
      ∧ List.Forall₂ (fun field path => field = "addressCity" → path = "addressCity")
        ["ZipCode", "addressCity"] paths := by
  have hapart : guest.HasApartNames := by
    decide +kernel
  have hmem : ⟨"addressCity", .scalar .string⟩ ∈ guest.properties := List.mem_cons_self
  have hname : '_' ∉ "addressCity".toList := by
    decide +kernel
  have hzip : projectedField guestCities guest "ZipCode" = .ok "zip_code" := by
    have hfound : Resolution.of guest "ZipCode".toList
        = .found ⟨["zip_code"], .scalar .string⟩ := by
      decide +kernel
    rw [projectedField_of_dotFree (by decide +kernel), PropertyPath.resolve_eq_ok_iff.mpr hfound]
    rfl
  have hlength : ["ZipCode", "addressCity"].length ≤ maxProjectionFields := by
    decide
  refine ⟨hapart, hmem, rfl, hlength, hname, hzip, ?_⟩
  apply ((resolveProjection_declared hapart hmem rfl hlength).1 hname).2
  intro field hfield hne
  rcases List.mem_cons.mp hfield with rfl | hfield
  · exact ⟨_, hzip⟩
  · exact absurd (List.mem_singleton.mp hfield) hne

def row : EntitySchema :=
  ⟨"Row", [⟨"zip_code", .scalar .string⟩]⟩

def rowCodes : Signature :=
  { name := "findByZipCode", params := [.value], projection := some ["zip_code"] }

/--
A declared name with an underscore is refused, although the schema has no other chain at all.
-/
theorem resolveProjection_row_ne :
    row.HasApartNames
      ∧ (∀ chain, IsChain (some row) chain → chain ≠ [] →
        chain = [⟨"zip_code", .scalar .string⟩])
      ∧ rowCodes.projection = some ["zip_code"]
      ∧
    resolveProjection rowCodes row
      = .error (.unresolvedProperty "findByZipCode" "Row" "zip_code") := by
  refine ⟨by decide +kernel, ?_, rfl, ?_⟩
  · intro chain hchain hne
    cases hchain with
    | nil => contradiction
    | cons hmem hrest =>
      cases List.mem_singleton.mp hmem
      cases hrest
      rfl
  · have hmissing : Resolution.of row "zip_code".toList = .missing := by
      decide +kernel
    have hfield : projectedField rowCodes row "zip_code"
        = .error (.unresolvedProperty "findByZipCode" "Row" "zip_code") := by
      rw [projectedField_of_dotFree (by decide +kernel),
        PropertyPath.resolve_eq_unresolved_iff.mpr hmissing, String.ofList_toList]
      rfl
    change (do return some (← ["zip_code"].mapM (projectedField rowCodes row))) = _
    rw [List.mapM_cons, hfield]
    rfl

end CompiledQuery
end DerivedQuery
