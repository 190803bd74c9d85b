import DerivedQuery.Proofs.Filter.Projection

/-!
This module contains when a projection keeps all that it lists, in whatever order the fields are
listed: the document has at most one value at each of them, and where one field leads to another, it
does so through documents only. What the document does not have is never in the projection.
-/

namespace DerivedQuery
namespace Document

variable {names others front rest : List String} {d inner target : Document}
  {value found : Value} {path field : String} {fields listed : List String}

/-! ### Ways -/

def walkIn : List String → Value → List Value
  | [], value => [value]
  | name :: names, .document inner => walk (name :: names) inner
  | name :: names, .array items =>
    items.flatMap fun item =>
      match item with
      | .document inner => walk (name :: names) inner
      | _ => []
  | _ :: _, _ => []

theorem walk_empty (names : List String) : walk names [] = [] := by
  cases names with
  | nil => rfl
  | cons name names => cases names <;> rfl

theorem walk_cons (name : String) (names : List String) (d : Document) :
    walk (name :: names) d = (d.get? name).toList.flatMap (walkIn names) := by
  cases names with
  | nil =>
    rw [walk]
    cases d.get? name <;> rfl
  | cons next names =>
    rw [walk]
    cases d.get? name with
    | none => rfl
    | some value =>
      rw [Option.toList_some, List.flatMap_singleton]
      cases value <;> rfl

theorem walk_append (hfront : front ≠ []) (rest : List String) (d : Document) :
    walk (front ++ rest) d = (walk front d).flatMap (walkIn rest) := by
  induction front generalizing d with
  | nil => contradiction
  | cons name front ih =>
    rw [List.cons_append, walk_cons, walk_cons, List.flatMap_assoc]
    congr 1
    funext value
    cases front with
    | nil => rw [List.nil_append, walkIn, List.flatMap_singleton]
    | cons next front =>
      have ih := ih (by simp)
      cases value with
      | document inner => exact ih inner
      | array items =>
        rw [List.cons_append, walkIn, walkIn, List.flatMap_assoc]
        congr 1
        funext item
        cases item with
        | document inner => exact ih inner
        | _ => rfl
      | _ => rfl

/-! ### Missing fields -/

theorem leads_of_walk_insertAt (leads : List String → Prop) (hothers : others ≠ [])
    (htarget : ∀ names, walk names target ≠ [] → leads names)
    (hway : ∀ front, front ≠ [] → front <+: others → leads front)
    (hvalue : ∀ rest, walkIn rest value ≠ [] → leads (others ++ rest))
    (h : walk names (insertAt others value target) ≠ []) : leads names := by
  induction others generalizing leads names target with
  | nil => contradiction
  | cons name others ih =>
    cases names with
    | nil => contradiction
    | cons name' names =>
      by_cases hname : name' = name
      · subst hname
        rw [walk_cons] at h
        cases others with
        | nil =>
          rw [insertAt, get?_insert_self, Option.toList_some, List.flatMap_singleton] at h
          exact hvalue names h
        | cons next others =>
          rw [insertAt_cons name' (by simp), get?_insert_self, Option.toList_some,
            List.flatMap_singleton] at h
          cases names with
          | nil => exact hway [name'] (by simp) (by simp)
          | cons next' names =>
            refine ih (fun names => leads (name' :: names)) (by simp) ?_ ?_ ?_ h
            · intro names hnames
              apply htarget
              rw [walk_cons]
              unfold innerAt at hnames
              split at hnames
              next inner hinner =>
                rw [hinner, Option.toList_some, List.flatMap_singleton]
                cases names with
                | nil => simp [walkIn]
                | cons => exact hnames
              next => exact absurd (walk_empty names) hnames
            · intro front _ hfront
              exact hway (name' :: front) (by simp) (List.cons_prefix_cons.mpr ⟨rfl, hfront⟩)
            · exact hvalue
      · apply htarget
        rw [walk_cons] at h ⊢
        rwa [get?_insertAt_of_ne hname] at h

theorem head?_mem_walk (h : (d.lookup field).head? = some value) :
    value ∈ walk (Text.split '.' field) d := by
  have hmem : value ∈ d.lookup field := List.mem_of_mem_head? h
  rwa [lookup_eq_walk (List.ne_nil_of_mem hmem) d] at hmem

theorem walk_ne_nil_of_copyPath (htarget : ∀ names, walk names target ≠ [] → walk names d ≠ [])
    (h : walk names (d.copyPath target field) ≠ []) : walk names d ≠ [] := by
  unfold copyPath at h
  split at h
  next => exact htarget names h
  next value hvalue =>
    have hmem := head?_mem_walk hvalue
    refine leads_of_walk_insertAt (fun names => walk names d ≠ []) (split_ne_nil field)
      htarget ?_ ?_ h
    · intro front hfront hprefix hnil
      obtain ⟨rest, hrest⟩ := hprefix
      rw [← hrest, walk_append hfront, hnil] at hmem
      contradiction
    · intro rest hrest hnil
      rw [walk_append (split_ne_nil field), List.flatMap_eq_nil_iff] at hnil
      exact hrest (hnil value hmem)

theorem walk_ne_nil_of_foldl_copyPath
    (htarget : ∀ names, walk names target ≠ [] → walk names d ≠ [])
    (h : walk names (fields.foldl (copyPath d) target) ≠ []) : walk names d ≠ [] := by
  induction fields generalizing target with
  | nil => exact htarget names h
  | cons field fields ih => exact ih (fun _ => walk_ne_nil_of_copyPath htarget) h

theorem walk_ne_nil_of_project (h : walk names (d.project fields) ≠ []) : walk names d ≠ [] := by
  unfold project at h
  refine walk_ne_nil_of_foldl_copyPath (fun names hnames => ?_) h
  cases names with
  | nil => contradiction
  | cons name names =>
    rw [walk_cons] at hnames ⊢
    split at hnames
    next id hid =>
      rw [get?] at hnames
      split at hnames
      next heq => rwa [← heq, hid]
      next => contradiction
    next => contradiction

theorem lookup_project_of_missing (h : d.lookup path = []) : (d.project fields).lookup path = [] := by
  cases hfound : (d.project fields).lookup path with
  | nil => rfl
  | cons value values =>
    have hne : (d.project fields).lookup path ≠ [] := by simp [hfound]
    have hproject := lookup_eq_walk hne (d.project fields)
    rw [lookup_eq_walk hne d] at h
    rw [hproject] at hne
    exact absurd h (walk_ne_nil_of_project hne)

/-! ### Paths behind each other -/

/--
The document has one value at each of the paths, and where the one is the beginning of the other, the
way on leads through documents only.
-/
def LeadsOn (d : Document) (path longer : String) : Prop :=
  ∀ rest, rest ≠ [] → Text.split '.' longer = Text.split '.' path ++ rest →
    ∃ inner value, d.lookup path = [.document inner] ∧ d.lookup longer = [value]
      ∧ reach? rest inner = some value

/--
The document has at most one value at the path, and the fields do not get into its way, nor it into
theirs.
-/
structure Undisturbed (d : Document) (fields : List String) (path : String) : Prop where
  single : (d.lookup path).length ≤ 1
  leadsOn : ∀ field ∈ fields, d.lookup path ≠ [] → d.lookup field ≠ [] →
    d.LeadsOn field path ∧ d.LeadsOn path field

theorem insertAt_of_reach? (h : reach? names d = some value) : insertAt names value d = d := by
  induction names generalizing d with
  | nil => rfl
  | cons name names ih =>
    have hsame : ∀ {value}, d.get? name = some value → d.insert name value = d := by
      intro value hvalue
      obtain ⟨front, back, hd, hinsert⟩ := exists_insert_eq hvalue
      rw [hinsert, ← hd]
    cases names with
    | nil => exact hsame h
    | cons next names =>
      rw [reach?] at h
      split at h
      next inner hinner =>
        rw [insertAt_cons name (by simp), innerAt, hinner, ih h]
        exact hsame hinner
      next => contradiction

/--
What is inserted behind a value goes into it, if it is a document, and replaces it otherwise.
-/
theorem reach?_insertAt_behind (hfront : front ≠ []) (hrest : rest ≠ [])
    (h : reach? front target = some found) :
    reach? front (insertAt (front ++ rest) value target)
      =
    some (.document (insertAt rest value (found.document?.getD []))) := by
  induction front generalizing target with
  | nil => contradiction
  | cons name front ih =>
    cases front with
    | nil =>
      rw [reach?] at h
      rw [List.singleton_append, insertAt_cons name hrest, reach?, get?_insert_self, innerAt, h]
      cases found <;> rfl
    | cons next front =>
      rw [reach?] at h
      split at h
      next inner hinner =>
        rw [List.cons_append, insertAt_cons name (by simp), reach?, get?_insert_self, innerAt,
          hinner]
        exact ih (by simp) h
      next => contradiction

/-! ### Listed fields -/

theorem copyPath_of_lookup {values : List Value} (h : d.lookup field = value :: values)
    (target : Document) :
    d.copyPath target field = insertAt (Text.split '.' field) value target := by
  unfold copyPath
  rw [h]
  rfl

theorem reach?_copyPath_of_leadsOn (hvalue : d.lookup path = [value])
    (hleads : d.lookup field ≠ [] → d.LeadsOn field path ∧ d.LeadsOn path field)
    (h : reach? (Text.split '.' path) target = some value) :
    reach? (Text.split '.' path) (d.copyPath target field) = some value := by
  cases hfield : d.lookup field with
  | nil =>
    unfold copyPath
    rwa [hfield]
  | cons first values =>
    have hfound : d.lookup field ≠ [] := by simp [hfield]
    obtain ⟨hbefore, hbehind⟩ := hleads hfound
    rw [copyPath_of_lookup hfield]
    by_cases hfront : Leads field path
    · obtain ⟨rest, hrest⟩ := hfront
      by_cases hnil : rest = []
      · -- the field has the same names as the path
        rw [hnil, List.append_nil] at hrest
        have hwalk : d.lookup path = walk (Text.split '.' path) d :=
          lookup_eq_walk (d := d) (by simp [hvalue]) d
        rw [lookup_eq_walk hfound, hrest, ← hwalk, hvalue, List.cons.injEq] at hfield
        rw [hrest, ← hfield.1]
        exact reach?_insertAt_self (split_ne_nil path)
      · obtain ⟨inner, value', hinner, hvalue', hreach⟩ := hbefore rest hnil hrest.symm
        rw [hinner, List.cons.injEq] at hfield
        rw [hvalue', List.cons.injEq] at hvalue
        rw [← hfield.1, ← hrest, ← hvalue.1]
        exact (reach?_insertAt_of_leading (split_ne_nil field) hnil).trans hreach
    · by_cases hback : Leads path field
      · obtain ⟨rest, hrest⟩ := hback
        have hnil : rest ≠ [] := by
          intro hnil
          rw [hnil, List.append_nil] at hrest
          exact hfront ⟨[], by rw [List.append_nil, hrest]⟩
        obtain ⟨inner, value', hinner, hvalue', hreach⟩ := hbehind rest hnil hrest.symm
        rw [hinner, List.cons.injEq] at hvalue
        rw [hvalue', List.cons.injEq] at hfield
        rw [← hvalue.1] at h ⊢
        rw [← hfield.1, ← hrest, reach?_insertAt_behind (split_ne_nil path) hnil h,
          Value.document?, Option.getD_some, insertAt_of_reach? hreach]
      · exact reach?_insertAt_of_apart hfront hback h

theorem exists_lookup_eq_singleton (hsingle : (d.lookup path).length ≤ 1)
    (hfound : d.lookup path ≠ []) : ∃ value, d.lookup path = [value] :=
  List.length_eq_one_iff.mp (Nat.le_antisymm hsingle (List.length_pos_iff.mpr hfound))

theorem lookup_of_reach? (hsource : d.lookup path ≠ [])
    (h : reach? (Text.split '.' path) target = some value) : target.lookup path = [value] := by
  rw [lookup_eq_walk hsource]
  exact walk_of_reach? h

theorem lookup_project_of_undisturbed (hlength : fields.length ≤ maxProjectionFields)
    (hmem : path ∈ fields) (h : d.Undisturbed fields path) :
    (d.project fields).lookup path = d.lookup path := by
  cases hfound : d.lookup path with
  | nil => exact lookup_project_of_missing hfound
  | cons value values =>
    have hsource : d.lookup path ≠ [] := by simp [hfound]
    obtain ⟨value, hvalue⟩ := exists_lookup_eq_singleton h.single hsource
    obtain ⟨before, behind, hsplit⟩ := List.append_of_mem hmem
    rw [← hfound, hvalue]
    have hfields : fields.take maxProjectionFields = before ++ path :: behind := by
      rw [List.take_of_length_le hlength, hsplit]
    apply lookup_project_of_keeps hvalue hfields
    intro field hfield target htarget
    have hfield : field ∈ fields := by
      rw [hsplit]
      exact List.mem_append_right _ (List.mem_cons_of_mem _ hfield)
    exact reach?_copyPath_of_leadsOn hvalue (h.leadsOn field hfield hsource) htarget

/-! ### Every order -/

theorem project_append_singleton (h : (listed ++ [path]).length ≤ maxProjectionFields)
    (d : Document) : d.project (listed ++ [path]) = d.copyPath (d.project listed) path := by
  have hlisted : listed.length ≤ maxProjectionFields := by
    rw [List.length_append] at h
    exact Nat.le_trans (Nat.le_add_right _ _) h
  unfold project
  rw [List.take_of_length_le h, List.take_of_length_le hlisted, List.foldl_append]
  rfl

theorem reach?_project_last (h : (listed ++ [path]).length ≤ maxProjectionFields)
    {values : List Value} (hfound : d.lookup path = value :: values) :
    reach? (Text.split '.' path) (d.project (listed ++ [path])) = some value := by
  rw [project_append_singleton h, copyPath_of_lookup hfound]
  exact reach?_insertAt_self (split_ne_nil path)

theorem perm_erase_append_singleton (h : path ∈ fields) :
    (fields.erase path ++ [path]).Perm fields :=
  (List.perm_append_singleton path _).trans (List.perm_cons_erase h).symm

/--
The projection keeps what it lists, in whatever order it is listed.
-/
def KeepsListed (d : Document) (fields : List String) : Prop :=
  ∀ listed, listed.Perm fields → ∀ path ∈ fields, (d.project listed).lookup path = d.lookup path

theorem KeepsListed.single (hlength : fields.length ≤ maxProjectionFields)
    (h : d.KeepsListed fields) (hpath : path ∈ fields) : (d.lookup path).length ≤ 1 := by
  cases hfound : d.lookup path with
  | nil => exact Nat.zero_le 1
  | cons value values =>
    have hsource : d.lookup path ≠ [] := by simp [hfound]
    have hperm := perm_erase_append_singleton hpath
    have hreach := reach?_project_last (hperm.length_eq ▸ hlength) hfound
    have hkept := h _ hperm path hpath
    rw [lookup_of_reach? hsource hreach, hfound, List.cons.injEq] at hkept
    rw [← hkept.2]
    exact Nat.le_refl 1

theorem KeepsListed.leadsOn (hlength : fields.length ≤ maxProjectionFields)
    (h : d.KeepsListed fields) (hfield : field ∈ fields) (hpath : path ∈ fields)
    (hbefore : d.lookup field ≠ []) (hbehind : d.lookup path ≠ []) : d.LeadsOn field path := by
  intro rest hrest hsplit
  have hne : field ≠ path := by
    rintro rfl
    exact hrest (List.self_eq_append_right.mp hsplit)
  obtain ⟨listed, hperm⟩ : ∃ listed, (listed ++ [field] ++ [path]).Perm fields := by
    have hfield := perm_erase_append_singleton ((List.mem_erase_of_ne hne).mpr hfield)
    exact ⟨_, (hfield.append_right [path]).trans (perm_erase_append_singleton hpath)⟩
  have hlisted : (listed ++ [field] ++ [path]).length ≤ maxProjectionFields := by
    rwa [hperm.length_eq]
  obtain ⟨first, hfirst⟩ := exists_lookup_eq_singleton (h.single hlength hfield) hbefore
  obtain ⟨value, hvalue⟩ := exists_lookup_eq_singleton (h.single hlength hpath) hbehind
  have hreach := reach?_project_last
    (Nat.le_trans (List.sublist_append_left _ _).length_le hlisted) hfirst
  have hkept := h _ hperm field hfield
  rw [project_append_singleton hlisted, copyPath_of_lookup hvalue, hsplit,
    lookup_of_reach? hbefore (reach?_insertAt_behind (split_ne_nil field) hrest hreach)] at hkept
  exact ⟨_, value, hkept.symm, hvalue, reach?_insertAt_self hrest⟩

theorem keepsListed_iff (hlength : fields.length ≤ maxProjectionFields) :
    d.KeepsListed fields ↔ ∀ path ∈ fields, d.Undisturbed fields path := by
  constructor
  · intro h path hpath
    refine ⟨h.single hlength hpath, fun field hfield hfound hfound' => ?_⟩
    exact ⟨h.leadsOn hlength hfield hpath hfound' hfound,
      h.leadsOn hlength hpath hfield hfound hfound'⟩
  · intro h listed hperm path hpath
    refine lookup_project_of_undisturbed (hperm.length_eq ▸ hlength) (hperm.mem_iff.mpr hpath) ?_
    exact ⟨(h path hpath).single, fun field hfield => (h path hpath).leadsOn field
      (hperm.mem_iff.mp hfield)⟩

/--
A projection keeps a listed field that the others leave undisturbed, and it has nothing that the
document does not have. It keeps all listed fields in every order of them exactly if all are
undisturbed.
-/
theorem lookup_project_listed (hlength : fields.length ≤ maxProjectionFields) :
    (∀ path ∈ fields, d.Undisturbed fields path → (d.project fields).lookup path = d.lookup path)
      ∧
    (∀ path, d.lookup path = [] → (d.project fields).lookup path = [])
      ∧
    (d.KeepsListed fields ↔ ∀ path ∈ fields, d.Undisturbed fields path) :=
  ⟨fun _ => lookup_project_of_undisturbed hlength, fun _ => lookup_project_of_missing,
    keepsListed_iff hlength⟩

/--
The document does not have the field, or has it behind documents only.
-/
def IsDirect (d : Document) (field : String) : Prop :=
  d.lookup field = [] ∨ (d.reach? (Text.split '.' field)).isSome = true

instance (d : Document) (field : String) : Decidable (d.IsDirect field) :=
  inferInstanceAs (Decidable (_ ∨ _))

theorem leadsOn_of_reach? (hfield : d.lookup field ≠ []) (hpath : d.lookup path ≠ [])
    (hreach : reach? (Text.split '.' path) d = some value) : d.LeadsOn field path := by
  intro rest hrest hsplit
  have hvalue := lookup_of_reach? hpath hreach
  rw [hsplit] at hreach
  obtain ⟨inner, hfront, hrest⟩ := reach?_append hrest hreach (split_ne_nil field)
  exact ⟨inner, value, lookup_of_reach? hfield hfront, hvalue, hrest⟩

theorem undisturbed_of_isDirect (h : ∀ field ∈ fields, d.IsDirect field) (hpath : path ∈ fields) :
    d.Undisturbed fields path := by
  have hreach : ∀ field ∈ fields, d.lookup field ≠ [] →
      ∃ value, reach? (Text.split '.' field) d = some value := by
    intro field hfield hfound
    exact Option.isSome_iff_exists.mp ((h field hfield).resolve_left hfound)
  constructor
  · by_cases hfound : d.lookup path = []
    · rw [hfound]
      exact Nat.zero_le 1
    · obtain ⟨value, hvalue⟩ := hreach path hpath hfound
      rw [lookup_of_reach? hfound hvalue]
      exact Nat.le_refl 1
  · intro field hfield hfound hfound'
    obtain ⟨_, hpathReach⟩ := hreach path hpath hfound
    obtain ⟨_, hfieldReach⟩ := hreach field hfield hfound'
    exact ⟨leadsOn_of_reach? hfound' hfound hpathReach,
      leadsOn_of_reach? hfound hfound' hfieldReach⟩

def customer : Document :=
  [("_id", .string "1"), ("tags", .array [.string "a", .string "b"]),
    ("address", .document [("city", .string "Cork"), ("zip", .string "T12")])]

def customerFields : List String :=
  ["address.city", "address", "tags", "address.zip", "phone"]

theorem lookup_project_listed_customer :
    "address" ∈ customerFields ∧ customer.Undisturbed customerFields "address"
      ∧
    (customer.project customerFields).lookup "address" = customer.lookup "address" := by
  have hdirect : ∀ field ∈ customerFields, customer.IsDirect field := by
    decide +kernel
  have hmem : "address" ∈ customerFields := by decide
  have hundisturbed := undisturbed_of_isDirect hdirect hmem
  exact ⟨hmem, hundisturbed, (lookup_project_listed (by decide)).1 "address" hmem hundisturbed⟩

def basket : Document :=
  [("items", .array [.document [("code", .string "x")], .document [("code", .string "y")]])]

/--
Of the values that a field has in the documents of an array only the first one is kept, and it takes
the place of the array.
-/
theorem lookup_project_basket_ne :
    (basket.project ["items.code"]).lookup "items.code" ≠ basket.lookup "items.code"
      ∧
    (basket.project ["items", "items.code"]).lookup "items" ≠ basket.lookup "items" := by
  constructor
  · intro h
    exact absurd (congrArg List.length h) (by decide +kernel)
  · intro h
    exact absurd (congrArg (List.map Value.isArray) h) (by decide +kernel)

end Document
end DerivedQuery
