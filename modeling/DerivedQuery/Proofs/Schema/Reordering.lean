import DerivedQuery.Proofs.Schema.Dotted
import DerivedQuery.Proofs.Traversal

/-!
This module contains when a path with dots means the same in whatever order the properties of a
schema are declared: when no segment of it can mean properties of different names.
-/

namespace DerivedQuery

/-! ### Orders of declaration -/

mutual

inductive PropertyKind.Reordered : PropertyKind → PropertyKind → Prop where
  | same (kind : PropertyKind) : PropertyKind.Reordered kind kind
  | embedded {s t : EntitySchema} (schema : EntitySchema.Reordered s t) :
      PropertyKind.Reordered (.embedded s) (.embedded t)
  | collection {a b : PropertyKind} (element : PropertyKind.Reordered a b) :
      PropertyKind.Reordered (.collection a) (.collection b)

inductive Property.Reordered : Property → Property → Prop where
  | intro {name : String} {a b : PropertyKind} (kind : PropertyKind.Reordered a b) :
      Property.Reordered ⟨name, a⟩ ⟨name, b⟩

/--
The schemas declare the same properties, at each level in an order of its own.
-/
inductive EntitySchema.Reordered : EntitySchema → EntitySchema → Prop where
  | intro {name : String} {declared listed properties : List Property}
      (perm : declared.Perm listed) (each : List.Forall₂ Property.Reordered listed properties) :
      EntitySchema.Reordered ⟨name, declared⟩ ⟨name, properties⟩

end

theorem Property.Reordered.refl (p : Property) : p.Reordered p := by
  obtain ⟨name, kind⟩ := p
  exact .intro (.same kind)

theorem Property.Reordered.name_eq {p q : Property} (h : p.Reordered q) : p.name = q.name := by
  cases h
  rfl

theorem Property.Reordered.kind {p q : Property} (h : p.Reordered q) :
    p.kind.Reordered q.kind := by
  cases h with
  | intro hkind => exact hkind

theorem map_name_of_reordered {chain other : List Property}
    (h : List.Forall₂ Property.Reordered chain other) :
    chain.map Property.name = other.map Property.name := by
  induction h with
  | nil => rfl
  | cons hhead _ ih => rw [List.map_cons, List.map_cons, hhead.name_eq, ih]

theorem EntitySchema.Reordered.of_perm {name : String} {declared properties : List Property}
    (h : declared.Perm properties) :
    EntitySchema.Reordered ⟨name, declared⟩ ⟨name, properties⟩ :=
  .intro h (List.forall₂_same.mpr fun p _ => .refl p)

theorem EntitySchema.Reordered.refl (s : EntitySchema) : s.Reordered s := by
  obtain ⟨name, properties⟩ := s
  exact .of_perm (.refl properties)

namespace PropertyKind

theorem Reordered.nested? {a b : PropertyKind} (h : a.Reordered b) :
    Option.Rel EntitySchema.Reordered a.nested? b.nested? := by
  match a, h with
  | a, .same _ =>
    cases a.nested? with
    | none => exact .none
    | some s => exact .some (.refl s)
  | .embedded _, .embedded h => exact .some h
  | .collection _, .collection h => exact h.nested?

theorem Reordered.isGeo_eq {a b : PropertyKind} (h : a.Reordered b) : a.isGeo = b.isGeo := by
  match a, h with
  | _, .same _ => rfl
  | .embedded _, .embedded _ => rfl
  | .collection _, .collection h => exact h.isGeo_eq

theorem Reordered.leaf_eq {a b : PropertyKind} (h : a.Reordered b) :
    Leaf.ofKind a = Leaf.ofKind b := by
  cases h with
  | same => rfl
  | embedded => rfl
  | collection h => rw [Leaf.ofKind, Leaf.ofKind, h.isGeo_eq]

theorem exists_reordered {kind : PropertyKind} {inner inner' : EntitySchema}
    (h : kind.nested? = some inner) (hinner : inner.Reordered inner') :
    ∃ kind', kind.Reordered kind' ∧ kind'.nested? = some inner' := by
  match kind with
  | .embedded _ =>
    rw [PropertyKind.nested?, Option.some.injEq] at h
    rw [h]
    exact ⟨_, .embedded hinner, rfl⟩
  | .collection _ =>
    rw [PropertyKind.nested?] at h
    obtain ⟨element, helement, hnested⟩ := exists_reordered h hinner
    exact ⟨_, .collection helement, hnested⟩

end PropertyKind

namespace EntitySchema

variable {s t : EntitySchema} {name : String} {names : List String} {p q : Property}

theorem Reordered.name_eq (h : s.Reordered t) : s.name = t.name := by
  cases h
  rfl

theorem Reordered.names_perm (h : s.Reordered t) :
    (s.properties.map Property.name).Perm (t.properties.map Property.name) := by
  cases h with
  | intro hperm heach => exact (hperm.map _).trans (.of_eq (map_name_of_reordered heach))

theorem Reordered.exists_left (h : s.Reordered t) (hq : q ∈ t.properties) :
    ∃ p ∈ s.properties, p.Reordered q := by
  cases h with
  | intro hperm heach =>
    obtain ⟨p, hp, hreordered⟩ := exists_left_of_mem heach hq
    exact ⟨p, hperm.mem_iff.mpr hp, hreordered⟩

theorem Reordered.exists_right (h : s.Reordered t) (hp : p ∈ s.properties) :
    ∃ q ∈ t.properties, p.Reordered q := by
  cases h with
  | intro hperm heach => exact exists_right_of_mem heach (hperm.mem_iff.mp hp)

theorem Reordered.mem_meant_iff (h : s.Reordered t) (hpq : p.Reordered q) (hp : p ∈ s.properties)
    (hq : q ∈ t.properties) : p ∈ s.meant name ↔ q ∈ t.meant name := by
  have hnone : (∀ r ∈ s.properties, r.name ≠ name) ↔ ∀ r ∈ t.properties, r.name ≠ name := by
    have hnames : name ∈ s.properties.map Property.name ↔ name ∈ t.properties.map Property.name :=
      h.names_perm.mem_iff
    rw [List.mem_map, List.mem_map, ← not_iff_not] at hnames
    push Not at hnames
    exact hnames
  rw [mem_meant, mem_meant, hnone, Property.matchesSegment, Property.matchesSegment, hpq.name_eq,
    and_iff_right hp, and_iff_right hq]

theorem Reordered.exists_meant (h : s.Reordered t) (hq : q ∈ t.meant name) :
    ∃ p ∈ s.meant name, p.Reordered q := by
  have hmem := (mem_meant.mp hq).1
  obtain ⟨p, hp, hpq⟩ := h.exists_left hmem
  exact ⟨p, (h.mem_meant_iff hpq hp hmem).mpr hq, hpq⟩

theorem Reordered.meant_ne_nil (h : s.Reordered t) (hp : p ∈ s.meant name) :
    t.meant name ≠ [] := by
  have hmem := (mem_meant.mp hp).1
  obtain ⟨q, hq, hpq⟩ := h.exists_right hmem
  exact List.ne_nil_of_mem ((h.mem_meant_iff hpq hmem hq).mp hp)

theorem Reordered.head?_meant (h : s.Reordered t)
    (hdistinct : (s.properties.map Property.name).Nodup)
    (hsingle : ∀ p ∈ s.meant name, ∀ q ∈ s.meant name, p.name = q.name) :
    Option.Rel Property.Reordered (s.meant name).head? (t.meant name).head? := by
  cases hs : s.meant name with
  | nil =>
    cases ht : t.meant name with
    | nil => exact .none
    | cons q _ =>
      obtain ⟨p, hp, -⟩ := h.exists_meant (ht ▸ List.mem_cons_self : q ∈ t.meant name)
      rw [hs] at hp
      contradiction
  | cons p others =>
    have hp : p ∈ s.meant name := hs ▸ List.mem_cons_self
    cases ht : t.meant name with
    | nil => exact absurd ht (h.meant_ne_nil hp)
    | cons q _ =>
      obtain ⟨p', hp', hreordered⟩ := h.exists_meant (ht ▸ List.mem_cons_self : q ∈ t.meant name)
      have heq : p' = p := eq_of_name_eq hdistinct (mem_meant.mp hp').1 (mem_meant.mp hp).1
        (hsingle p' hp' p hp)
      rw [heq] at hreordered
      exact .some hreordered

/-! ### Ambiguous segments -/

/--
On the way of the names there is a segment that can mean properties of different names: none has
exactly its name, and it spells several.
-/
def IsAmbiguous : EntitySchema → List String → Prop
  | _, [] => False
  | s, name :: names =>
    (∃ p ∈ s.meant name, ∃ q ∈ s.meant name, p.name ≠ q.name)
      ∨ ∃ p ∈ s.meant name, ∃ inner ∈ p.kind.nested?, IsAmbiguous inner names

instance decidableIsAmbiguous :
    (s : EntitySchema) → (names : List String) → Decidable (s.IsAmbiguous names)
  | _, [] => inferInstanceAs (Decidable False)
  | _, _ :: names =>
    have : ∀ inner : EntitySchema, Decidable (inner.IsAmbiguous names) :=
      fun inner => decidableIsAmbiguous inner names
    inferInstanceAs (Decidable (_ ∨ _))

theorem exists_reordered_first (hp : p ∈ s.meant name) :
    ∃ t, s.Reordered t ∧ (t.meant name).head? = some p := by
  obtain ⟨title, properties⟩ := s
  obtain ⟨front, back, hsplit⟩ := List.append_of_mem (mem_meant.mp hp).1
  have hreordered : EntitySchema.Reordered ⟨title, properties⟩ ⟨title, p :: (front ++ back)⟩ := by
    apply Reordered.of_perm
    change properties = _ at hsplit
    rw [hsplit]
    exact List.perm_middle
  refine ⟨_, hreordered, ?_⟩
  have hfirst := (hreordered.mem_meant_iff (.refl p) (mem_meant.mp hp).1 List.mem_cons_self).mp hp
  obtain ⟨test, htest⟩ := exists_filter_eq_meant ⟨title, p :: (front ++ back)⟩ name
  rw [htest, List.mem_filter] at hfirst
  rw [htest, List.filter_cons_of_pos hfirst.2, List.head?_cons]

theorem exists_reordered_below {inner inner' : EntitySchema} (hp : p ∈ s.properties)
    (hinner : p.kind.nested? = some inner) (h : inner.Reordered inner') :
    ∃ t, s.Reordered t ∧ ∃ q ∈ t.properties, q.name = p.name ∧ q.kind.nested? = some inner' := by
  obtain ⟨title, properties⟩ := s
  obtain ⟨front, back, hsplit⟩ := List.append_of_mem hp
  change properties = _ at hsplit
  obtain ⟨name, kind⟩ := p
  obtain ⟨kind', hkind, hnested⟩ := PropertyKind.exists_reordered hinner h
  have hsame : ∀ l : List Property, List.Forall₂ Property.Reordered l l :=
    fun l => List.forall₂_same.mpr fun p _ => .refl p
  refine ⟨⟨title, front ++ ⟨name, kind'⟩ :: back⟩, ?_, ⟨name, kind'⟩, by simp, rfl, hnested⟩
  rw [hsplit]
  exact .intro (.refl _) (List.rel_append (hsame front) (.cons (.intro hkind) (hsame back)))

end EntitySchema

namespace PropertyPath

variable {room : Nat} {s t : EntitySchema} {scope scope' : Option EntitySchema} {name : String}
  {names : List String} {p q : Property} {chain other : List Property}

theorem rel_chainOfNames? (hscope : Option.Rel EntitySchema.Reordered scope scope')
    (hdistinct : ∀ s ∈ scope, s.HasDistinctNames) (h : ∀ s ∈ scope, ¬ s.IsAmbiguous names) :
    Option.Rel (List.Forall₂ Property.Reordered) (chainOfNames? room scope names)
      (chainOfNames? room scope' names) := by
  induction names generalizing room scope scope' with
  | nil =>
    rw [chainOfNames?, chainOfNames?]
    exact .some .nil
  | cons name names ih =>
    cases room with
    | zero => exact .none
    | succ room =>
      cases hscope with
      | none => exact .none
      | @some s t hst =>
        have hs : s.HasDistinctNames := hdistinct s rfl
        have hclear : ¬ s.IsAmbiguous (name :: names) := h s rfl
        rw [EntitySchema.IsAmbiguous, not_or] at hclear
        obtain ⟨hsingle, hbelow⟩ := hclear
        push Not at hsingle hbelow
        have hhead := hst.head?_meant hs.names hsingle
        rw [chainOfNames?_succ, chainOfNames?_succ]
        have hmem : ∀ p ∈ (s.meant name).head?, p ∈ s.meant name :=
          fun p hp => List.mem_of_mem_head? hp
        generalize (s.meant name).head? = found at hhead hmem ⊢
        generalize (t.meant name).head? = found' at hhead ⊢
        cases hhead with
        | none => exact .none
        | @some p q hpq =>
          have hp : p ∈ s.meant name := hmem p rfl
          have hrest : Option.Rel (List.Forall₂ Property.Reordered)
              (chainOfNames? room p.kind.nested? names)
              (chainOfNames? room q.kind.nested? names) := by
            apply ih hpq.kind.nested?
            · intro inner hinner
              exact hs.nested (EntitySchema.mem_meant.mp hp).1 hinner
            · intro inner hinner
              exact hbelow p hp inner hinner
          rw [Option.bind_some, Option.bind_some]
          generalize chainOfNames? room p.kind.nested? names = rest at hrest ⊢
          generalize chainOfNames? room q.kind.nested? names = rest' at hrest ⊢
          cases hrest with
          | none => exact .none
          | some hrest => exact .some (.cons hpq hrest)

theorem map_leaf_of_reordered (h : List.Forall₂ Property.Reordered chain other) :
    chain.map (fun p => Leaf.ofKind p.kind) = other.map fun p => Leaf.ofKind p.kind := by
  induction h with
  | nil => rfl
  | cons hhead _ ih => rw [List.map_cons, List.map_cons, hhead.kind.leaf_eq, ih]

theorem ofChain?_of_reordered (h : List.Forall₂ Property.Reordered chain other) :
    ofChain? chain = ofChain? other := by
  have hlast := congrArg List.getLast? (map_leaf_of_reordered h)
  rw [List.getLast?_map, List.getLast?_map] at hlast
  have hpath := congrArg (Option.map (PropertyPath.mk (other.map Property.name))) hlast
  rw [Option.map_map, Option.map_map] at hpath
  unfold ofChain?
  rw [map_name_of_reordered h]
  exact hpath

theorem resolveDotted_of_reordered {dotted : String} (hst : s.Reordered t)
    (hdistinct : s.HasDistinctNames) (h : ¬ s.IsAmbiguous (Text.split '.' dotted))
    (method : String) : resolveDotted t dotted method = resolveDotted s dotted method := by
  have hchains : Option.Rel (List.Forall₂ Property.Reordered)
      (chainOfNames? maxPathDepth (some s) (Text.split '.' dotted))
      (chainOfNames? maxPathDepth (some t) (Text.split '.' dotted)) := by
    apply rel_chainOfNames? (.some hst)
    · simpa using hdistinct
    · simpa using h
  have hfound : ofDotted? s dotted = ofDotted? t dotted := by
    unfold ofDotted?
    generalize chainOfNames? maxPathDepth (some s) (Text.split '.' dotted) = chain at hchains ⊢
    generalize chainOfNames? maxPathDepth (some t) (Text.split '.' dotted) = other at hchains ⊢
    cases hchains with
    | none => rfl
    | some hchain => exact ofChain?_of_reordered hchain
  rw [resolveDotted, resolveDotted, hfound, hst.name_eq]

theorem exists_reordered_of_ne (hq : q ∈ s.meant name) (hne : q.name ≠ p.name)
    (rest : List Property) :
    ∃ t, s.Reordered t ∧ ∀ other, chainOfNames? room (some t) (name :: names) = some other →
      other.map Property.name ≠ (p :: rest).map Property.name := by
  obtain ⟨t, hst, hfirst⟩ := EntitySchema.exists_reordered_first hq
  refine ⟨t, hst, ?_⟩
  intro other hother
  rw [chainOfNames?_cons_eq_some_iff] at hother
  obtain ⟨_, t', q', _, _, ht, hq', _, rfl⟩ := hother
  cases ht
  rw [hfirst, Option.some.injEq] at hq'
  rw [List.map_cons, List.map_cons, ← hq']
  intro heq
  exact hne (List.cons.inj heq).1

theorem exists_reordered_of_nested {inner inner' : EntitySchema} {rest : List Property}
    (hdistinct : (s.properties.map Property.name).Nodup)
    (hsingle : ∀ a ∈ s.meant name, ∀ b ∈ s.meant name, a.name = b.name)
    (hp : (s.meant name).head? = some p) (hinner : p.kind.nested? = some inner)
    (hreordered : inner.Reordered inner')
    (hrest : ∀ other, chainOfNames? room (some inner') names = some other →
      other.map Property.name ≠ rest.map Property.name) :
    ∃ t, s.Reordered t ∧ ∀ other, chainOfNames? (room + 1) (some t) (name :: names) = some other →
      other.map Property.name ≠ (p :: rest).map Property.name := by
  have hmem := (EntitySchema.mem_meant.mp (List.mem_of_head? hp)).1
  obtain ⟨t, hst, q, hq, hname, hnested⟩ :=
    EntitySchema.exists_reordered_below hmem hinner hreordered
  refine ⟨t, hst, ?_⟩
  intro other hother
  rw [chainOfNames?_cons_eq_some_iff] at hother
  obtain ⟨_, t', q', rest', hroom, ht, hq', hrest', rfl⟩ := hother
  cases hroom
  cases ht
  have hhead := hst.head?_meant hdistinct hsingle
  rw [hp, hq'] at hhead
  cases hhead with
  | some hpq =>
    have heq : q' = q := by
      apply EntitySchema.eq_of_name_eq (hst.names_perm.nodup_iff.mp hdistinct) _ hq
      · rw [hname, hpq.name_eq]
      · exact (EntitySchema.mem_meant.mp (List.mem_of_head? hq')).1
    rw [heq, hnested] at hrest'
    rw [List.map_cons, List.map_cons]
    intro heq
    exact hrest rest' hrest' (List.cons.inj heq).2

/--
Where a segment is ambiguous, some order of declaration leads to other names, or nowhere.
-/
theorem exists_reordered_of_isAmbiguous (hdistinct : s.HasDistinctNames)
    (h : s.IsAmbiguous names) (hchain : chainOfNames? room (some s) names = some chain) :
    ∃ t, s.Reordered t ∧ ∀ other, chainOfNames? room (some t) names = some other →
      other.map Property.name ≠ chain.map Property.name := by
  induction names generalizing room s chain with
  | nil => contradiction
  | cons name names ih =>
    rw [chainOfNames?_cons_eq_some_iff] at hchain
    obtain ⟨left, s, p, rest, rfl, hs, hp, hrest, rfl⟩ := hchain
    cases hs
    by_cases hhere : ∃ q ∈ s.meant name, q.name ≠ p.name
    · obtain ⟨q, hq, hne⟩ := hhere
      exact exists_reordered_of_ne hq hne rest
    · -- this segment means the same in every order, so that a later one is ambiguous
      push Not at hhere
      have hsingle : ∀ a ∈ s.meant name, ∀ b ∈ s.meant name, a.name = b.name := by
        intro a ha b hb
        rw [hhere a ha, hhere b hb]
      rcases h with ⟨a, ha, b, hb, hne⟩ | ⟨q, hq, inner, hinner, hbelow⟩
      · exact absurd (hsingle a ha b hb) hne
      · have hmem := (EntitySchema.mem_meant.mp (List.mem_of_head? hp)).1
        have heq : q = p := EntitySchema.eq_of_name_eq hdistinct.names
          (EntitySchema.mem_meant.mp hq).1 hmem (hhere q hq)
        rw [heq] at hinner
        rw [hinner] at hrest
        obtain ⟨inner', hreordered, hother⟩ := ih (hdistinct.nested hmem hinner) hbelow hrest
        exact exists_reordered_of_nested hdistinct.names hsingle hp hinner hreordered hother

/--
Where the names of a schema are distinct at each level, a path with dots means the same in every
order of declaration, unless one of its segments is ambiguous. A path that is found all the same is
a guess: it is not found in some order.
-/
theorem resolveDotted_reordered (hdistinct : s.HasDistinctNames) (dotted method : String) :
    (¬ s.IsAmbiguous (Text.split '.' dotted) →
      ∀ t, s.Reordered t → resolveDotted t dotted method = resolveDotted s dotted method)
      ∧
    ∀ path, resolveDotted s dotted method = .ok path →
      (s.IsAmbiguous (Text.split '.' dotted)
        ↔ ∃ t, s.Reordered t ∧ resolveDotted t dotted method ≠ .ok path) := by
  constructor
  · intro h t hst
    exact resolveDotted_of_reordered hst hdistinct h method
  · intro path hpath
    constructor
    · intro h
      obtain ⟨chain, hchain, hpath⟩ := resolveDotted_eq_ok_iff.mp hpath
      obtain ⟨t, hst, hother⟩ := exists_reordered_of_isAmbiguous hdistinct h hchain
      refine ⟨t, hst, ?_⟩
      intro hsame
      obtain ⟨other, hfound, hpath'⟩ := resolveDotted_eq_ok_iff.mp hsame
      apply hother other hfound
      rw [← segments_of_ofChain? hpath, ← segments_of_ofChain? hpath']
    · rintro ⟨t, hst, hne⟩
      by_contra h
      exact hne ((resolveDotted_of_reordered hst hdistinct h method).trans hpath)

def parcel : EntitySchema :=
  ⟨"Parcel", [⟨"weight", .scalar .number⟩, ⟨"address", .embedded ⟨"Address",
    [⟨"city", .scalar .string⟩, ⟨"zipCode", .scalar .string⟩, ⟨"zip_code", .scalar .number⟩]⟩⟩]⟩

def turnedParcel : EntitySchema :=
  ⟨"Parcel", [⟨"address", .embedded ⟨"Address",
    [⟨"zip_code", .scalar .number⟩, ⟨"zipCode", .scalar .string⟩, ⟨"city", .scalar .string⟩]⟩⟩,
    ⟨"weight", .scalar .number⟩]⟩

theorem reordered_parcel : parcel.Reordered turnedParcel := by
  refine .intro (.swap ..) (.cons (.intro (.embedded (.of_perm ?_))) (.cons (.refl _) .nil))
  exact (List.reverse_perm _).symm

theorem resolveDotted_reordered_parcel :
    parcel.HasDistinctNames
      ∧ ¬ parcel.IsAmbiguous (Text.split '.' "ADDRESS.City") ∧ parcel.Reordered turnedParcel
      ∧
    resolveDotted turnedParcel "ADDRESS.City" "findAll"
      = resolveDotted parcel "ADDRESS.City" "findAll" := by
  have hdistinct : parcel.HasDistinctNames := by
    decide +kernel
  have hclear : ¬ parcel.IsAmbiguous (Text.split '.' "ADDRESS.City") := by
    decide +kernel
  exact ⟨hdistinct, hclear, reordered_parcel,
    (resolveDotted_reordered hdistinct "ADDRESS.City" "findAll").1 hclear _ reordered_parcel⟩

/--
An ambiguous path is resolved to the property that is declared first.
-/
theorem resolveDotted_parcel_isAmbiguous :
    parcel.HasDistinctNames ∧ parcel.IsAmbiguous (Text.split '.' "address.ZipCode")
      ∧ parcel.Reordered turnedParcel
      ∧
    resolveDotted parcel "address.ZipCode" "findAll"
      = .ok ⟨["address", "zipCode"], .scalar .string⟩
      ∧
    resolveDotted turnedParcel "address.ZipCode" "findAll"
      = .ok ⟨["address", "zip_code"], .scalar .number⟩ := by
  have hfirst : ofDotted? parcel "address.ZipCode"
      = some ⟨["address", "zipCode"], .scalar .string⟩ := by
    decide +kernel
  have hturned : ofDotted? turnedParcel "address.ZipCode"
      = some ⟨["address", "zip_code"], .scalar .number⟩ := by
    decide +kernel
  refine ⟨by decide +kernel, by decide +kernel, reordered_parcel, ?_, ?_⟩
  · rw [resolveDotted, hfirst]
  · rw [resolveDotted, hturned]

end PropertyPath
end DerivedQuery
