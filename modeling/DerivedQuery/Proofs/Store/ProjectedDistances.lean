import DerivedQuery.Proofs.Filter.Projection
import DerivedQuery.Proofs.Store.Nearest

/-!
This module contains when the distances of results do not depend on the projection of a method: each
projected document must keep the location from which its distance is computed.
-/

namespace DerivedQuery

/-! ### Documents -/

namespace Document

/--
The projection has room for the path, the document has one value there, and no field of the projection
gets into its way. A path that is not among the fields is copied last.
-/
structure KeepsLocation (fields : List String) (path : String) (d : Document) : Prop where
  room : path ∈ fields ∨ fields.length < maxProjectionFields
  single : (d.lookup path).length ≤ 1
  spares : path ∈ fields → ∀ field ∈ fields, d.Spares path field

variable {d : Document} {fields : List String} {near : NearQuery} {x : Float}

theorem lookup_project_keepingNear (h : d.KeepsLocation fields near.path)
    (hfields : fields.length ≤ maxProjectionFields) (hvalue : d.lookup near.path ≠ []) :
    (d.project (Execution.keepingNear (some near) fields)).lookup near.path = d.lookup near.path := by
  obtain ⟨value, hvalue⟩ : ∃ value, d.lookup near.path = [value] := by
    have hpos := List.length_pos_iff.mpr hvalue
    exact List.length_eq_one_iff.mp (Nat.le_antisymm h.single hpos)
  rw [hvalue]
  unfold Execution.keepingNear
  dsimp only
  split
  next hmem =>
    obtain ⟨before, behind, hsplit⟩ := List.append_of_mem hmem
    refine lookup_project hvalue ((List.take_of_length_le hfields).trans hsplit) ?_
    intro field hfield
    refine h.spares hmem field ?_
    rw [hsplit]
    exact List.mem_append_right _ (List.mem_cons_of_mem _ hfield)
  next hmem =>
    have hroom := h.room.resolve_left hmem
    have hfits : (fields ++ [near.path]).take maxProjectionFields = fields ++ near.path :: [] := by
      apply List.take_of_length_le
      rw [List.length_append, List.length_singleton]
      exact hroom
    exact lookup_project hvalue hfits (by simp)

end Document

namespace NearQuery

variable {near : NearQuery} {d : Document} {fields : List String}

theorem lookup_ne_nil_of_distance? (h : (near.distance? d).isSome = true) :
    d.lookup near.path ≠ [] := by
  intro hnil
  rw [distance?, Document.nearestDistance?, Document.points, hnil] at h
  contradiction

theorem distance_project (h : d.KeepsLocation fields near.path)
    (hfields : fields.length ≤ maxProjectionFields) (hpoint : (near.distance? d).isSome = true) :
    near.distance (d.project (Execution.keepingNear (some near) fields)) = near.distance d := by
  unfold distance Document.distanceFrom Document.nearestDistance? Document.points
  rw [Document.lookup_project_keepingNear h hfields (lookup_ne_nil_of_distance? hpoint)]

end NearQuery

/-! ### Methods without their projection -/

def Signature.unprojected (sig : Signature) : Signature :=
  { sig with projection := none }

def Specification.unprojected (spec : Specification) : Specification :=
  { spec with projection := none }

namespace CompiledQuery

variable {sig : Signature} {s : EntitySchema} {q : CompiledQuery} {args : List Argument}
  {maxInSet : Nat} {spec : Specification} {fields : List String}

def unprojected (q : CompiledQuery) : CompiledQuery :=
  { q with signature := q.signature.unprojected, projection := none }

theorem compile_unprojected (h : compile sig s = .ok q)
    (hranked : q.shape.isDistanceRanked = true) : compile sig.unprojected s = .ok q.unprojected := by
  have hquery := query_eq_none_of_ranked h hranked
  have hquery' : sig.unprojected.query = none := hquery
  obtain ⟨sort, page, _, shape, t, slots, hsort, hpage, -, hfrom, hpaged, rfl⟩ :=
    (compile_eq_ok_iff_derived hquery).mp h
  rw [compile_eq_ok_iff_derived hquery']
  exact ⟨sort, page, none, shape, t, slots, hsort, hpage, rfl,
    ⟨hfrom.read, hfrom.orderBy, hfrom.shape, hfrom.bind, hfrom.ranking⟩, hpaged, rfl⟩

theorem bind_unprojected (h : q.bind args maxInSet = .ok spec) :
    q.unprojected.bind args maxInSet = .ok spec.unprojected := by
  obtain ⟨hcheck, source, sort, hsource, hsort, hlength, rfl⟩ := bind_ok_iff.mp h
  exact bind_ok_iff.mpr ⟨hcheck, source, sort, hsource, hsort, hlength, rfl⟩

theorem length_le_of_resolveProjection (h : resolveProjection sig s = .ok (some fields)) :
    fields.length ≤ maxProjectionFields := by
  unfold resolveProjection at h
  split at h
  next => cases h
  next =>
    split at h
    next => contradiction
    next hlength =>
      rw [bind_eq_ok_iff] at h
      obtain ⟨resolved, hresolved, heq⟩ := h
      cases heq
      rw [← (mapM_eq_ok_iff.mp hresolved).length_eq]
      exact not_lt.mp hlength

theorem length_fields_le (h : compile sig s = .ok q) (hranked : q.shape.isDistanceRanked = true)
    (hbind : q.bind args maxInSet = .ok spec) (hfields : spec.projection = some fields) :
    fields.length ≤ maxProjectionFields := by
  obtain ⟨_, _, projection, _, _, _, -, -, hprojection, -, -, rfl⟩ :=
    (compile_eq_ok_iff_derived (query_eq_none_of_ranked h hranked)).mp h
  obtain ⟨-, _, _, -, -, -, rfl⟩ := bind_ok_iff.mp hbind
  change projection = some fields at hfields
  rw [hfields] at hprojection
  exact length_le_of_resolveProjection hprojection

end CompiledQuery

/-! ### Calls -/

namespace Execution

variable {γ δ : Type} {settings : Settings} {read : EntityReader γ} {whole : EntityReader δ}
  {spec : Specification} {c : Collection} {near : NearQuery} {limit : Distance}
  {fields : List String}

def ReturnsRanking (settings : Settings) (read : EntityReader γ) (spec : Specification)
    (c : Collection) (results : List (Ranked γ)) : Prop :=
  ∃ result, Returns settings read spec c result ∧ result.ranking? = some ⟨results⟩

def found (settings : Settings) (spec : Specification) (c : Collection) : List Document :=
  handedBack settings spec (Collection.ordered spec.filter spec.sort (c.matching spec.filter))

theorem exists_projected_results (hranked : spec.shape.isDistanceRanked = true)
    (hnear : spec.near = some near) (hsearches : near.Searches limit spec.filter)
    (hprojection : spec.projection = some fields) (hfields : fields.length ≤ maxProjectionFields)
    (hfailure : c.failure = none)
    (hkeeps : ∀ d ∈ found settings spec c, d.KeepsLocation fields near.path)
    (hread : ∀ d ∈ found settings spec c,
      (read (d.project (keepingNear (some near) fields))).isSome = true) :
    ∃ results,
      ReturnsRanking settings read spec c results
        ∧
      List.Forall₂ (near.Reports fun d => read (d.project (keepingNear (some near) fields)))
        (InsertionSort.sort near.precedes (found settings spec c)) results := by
  have hpoint : ∀ d ∈ found settings spec c, (near.distance? d).isSome = true :=
    fun d hd => hsearches.isSome_distance? (mem_matching_of_mem_handedBack hd)
  obtain ⟨entities, hentities⟩ := NearQuery.exists_reports hread hpoint
  refine ⟨_, ?_, NearQuery.forall₂_ofList hentities⟩
  apply exists_returns_ranking hranked hnear hfailure
  rw [select_eq_projected, hprojection, hnear, Option.map_some, Collection.projected,
    mapM_eq_some_iff, List.forall₂_map_left_iff]
  refine forall₂_of_mem ?_ hentities
  intro d hd r hr
  unfold readRanked
  rw [hr.content, Option.map_some]
  change some (Ranked.mk r.content (near.distance _)) = _
  rw [NearQuery.distance_project (hkeeps d hd) hfields (hpoint d hd),
    NearQuery.distance_of_some hr.distance]

theorem exists_unprojected_results (hranked : spec.shape.isDistanceRanked = true)
    (hnear : spec.near = some near) (hsearches : near.Searches limit spec.filter)
    (hfailure : c.failure = none)
    (hwhole : ∀ d ∈ found settings spec c, (whole d).isSome = true) :
    ∃ results,
      ReturnsRanking settings whole spec.unprojected c results
        ∧
      List.Forall₂ (near.Reports whole)
        (InsertionSort.sort near.precedes (found settings spec c)) results := by
  obtain ⟨entities, hentities⟩ := NearQuery.exists_reports hwhole
    fun d hd => hsearches.isSome_distance? (mem_matching_of_mem_handedBack hd)
  have hselect : (c.select spec.filter (options settings spec.unprojected)).mapM
      (readRanked whole near) = some entities := by
    change (c.select spec.unprojected.filter _).mapM _ = _
    rw [select_eq_handedBack rfl]
    exact NearQuery.mapM_readRanked hentities
  refine ⟨_, ?_, NearQuery.forall₂_ofList hentities⟩
  exact exists_returns_ranking hranked hnear hfailure hselect

/--
The results are at the distances of the stored documents, in the order of which the method without
its projection hands back the same documents at the same distances.
-/
theorem exists_same_distances {sig : Signature} {s : EntitySchema} {q : CompiledQuery}
    {args : List Argument} {maxInSet : Nat} (hcompile : CompiledQuery.compile sig s = .ok q)
    (hranked : q.shape.isDistanceRanked = true) (hbind : q.bind args maxInSet = .ok spec)
    (hprojection : spec.projection = some fields) (hfailure : c.failure = none) :
    ∃ near,
      spec.near = some near
        ∧
      CompiledQuery.compile sig.unprojected s = .ok q.unprojected
        ∧
      q.unprojected.bind args maxInSet = .ok spec.unprojected
        ∧
      ((∀ d ∈ found settings spec c, d.KeepsLocation fields near.path) →
        (∀ d ∈ found settings spec c,
          (read (d.project (keepingNear (some near) fields))).isSome = true) →
        ∃ documents results,
          documents.Perm (found settings spec c)
            ∧
          ReturnsRanking settings read spec c results
            ∧
          List.Forall₂ (near.Reports fun d => read (d.project (keepingNear (some near) fields)))
            documents results
            ∧
          ((∀ d ∈ found settings spec c, (whole d).isSome = true) →
            ∃ others,
              ReturnsRanking settings whole spec.unprojected c others
                ∧
              List.Forall₂ (near.Reports whole) documents others
                ∧
              others.map Ranked.distance = results.map Ranked.distance)) := by
  obtain ⟨near, limit, hnear, hsearches⟩ :=
    CompiledQuery.exists_searches_of_bind hcompile hbind hranked
  have hspec : spec.shape.isDistanceRanked = true := by
    rw [CompiledQuery.shape_of_bind hbind]
    exact hranked
  have hfields := CompiledQuery.length_fields_le hcompile hranked hbind hprojection
  refine ⟨near, hnear, CompiledQuery.compile_unprojected hcompile hranked,
    CompiledQuery.bind_unprojected hbind, ?_⟩
  intro hkeeps hread
  obtain ⟨results, hreturns, hresults⟩ := exists_projected_results hspec hnear hsearches hprojection
    hfields hfailure hkeeps hread
  refine ⟨_, results, InsertionSort.sort_perm near.precedes (found settings spec c), hreturns,
    hresults, ?_⟩
  intro hwhole
  obtain ⟨others, hreturns, hothers⟩ :=
    exists_unprojected_results hspec hnear hsearches hfailure hwhole
  refine ⟨others, hreturns, hothers, ?_⟩
  rw [NearQuery.map_distance_eq hothers, NearQuery.map_distance_eq hresults]

def venueNames : Signature :=
  { venueSearch with projection := some ["name"] }

theorem exists_same_distances_venue :
    ∃ q spec near documents results others,
      CompiledQuery.compile venueNames venueSchema = .ok q
        ∧
      q.bind venueArguments 1000 = .ok spec
        ∧
      spec.projection = some ["name"]
        ∧
      spec.near = some near
        ∧
      documents.Perm (found {} spec venues)
        ∧
      ReturnsRanking {} venueName spec venues results
        ∧
      ReturnsRanking {} some spec.unprojected venues others
        ∧
      List.Forall₂ (near.Reports some) documents others
        ∧
      others.map Ranked.distance = results.map Ranked.distance := by
  have hbinds : CompiledQuery.binds venueNames venueSchema venueArguments 1000
      (fun spec => spec.shape.isDistanceRanked = true ∧ spec.projection = some ["name"]
        ∧ spec.near.map NearQuery.path = some "location") = true := by
    decide +kernel
  obtain ⟨q, spec, hcompile, hbind, hspec⟩ := CompiledQuery.exists_of_binds hbinds
  obtain ⟨hshape, hprojection, hpath⟩ := of_decide_eq_true hspec
  rw [CompiledQuery.shape_of_bind hbind] at hshape
  obtain ⟨near, hnear, -, -, hsame⟩ := @exists_same_distances String Document {} venueName some _
    venues _ _ _ _ _ _ hcompile hshape hbind hprojection rfl
  rw [hnear, Option.map_some, Option.some.injEq] at hpath
  have hmem : ∀ d ∈ found {} spec venues, d ∈ venues.documents :=
    fun d hd => List.mem_of_mem_filter (mem_matching_of_mem_handedBack hd)
  have hsingle : ∀ d ∈ venues.documents, (d.lookup "location").length ≤ 1 := by decide +kernel
  have hkeeps : ∀ d ∈ found {} spec venues, d.KeepsLocation ["name"] near.path := by
    intro d hd
    rw [hpath]
    exact ⟨.inr (by decide), hsingle d (hmem d hd), by simp⟩
  have hread : ∀ d ∈ venues.documents, (venueName (d.project ["name", "location"])).isSome = true := by
    decide +kernel
  have hkept : keepingNear (some near) ["name"] = ["name", "location"] := by
    unfold keepingNear
    dsimp only
    rw [hpath]
    rfl
  obtain ⟨documents, results, hperm, hreturns, -, hothers⟩ := hsame hkeeps fun d hd => by
    rw [hkept]
    exact hread d (hmem d hd)
  obtain ⟨others, hreturns', hreports, hdistances⟩ := hothers fun _ _ => rfl
  exact ⟨q, spec, near, documents, results, others, hcompile, hbind, hprojection, hnear, hperm,
    hreturns, hreturns', hreports, hdistances⟩

/-! ### Distances that are lost -/

def hotelSchema : EntitySchema :=
  ⟨"Hotel", [⟨"name", .scalar .string⟩,
    ⟨"sites", .collection (.embedded ⟨"Site", [⟨"location", .geoPoint⟩]⟩)⟩]⟩

def hotelNames : Signature where
  entity := "Hotel"
  name := "findBySitesLocationNear"
  params := [.point, .distance]
  returns := some .geoResults
  projection := some ["name"]

/--
A hotel with two sites, the second of which is nearer.
-/
def hotels : Collection where
  name := "hotels"
  documents := [[("name", .string "a"), ("sites", .array
    [.document [("location", .array [.double 4.0, .double 0.0])],
     .document [("location", .array [.double 1.0, .double 0.0])]])]]

def venueNamesFull : Signature :=
  { venueSearch with projection := some (List.replicate 64 "name") }

theorem distance?_ne_of_hasDistances {near : NearQuery} {xs ys : List Float} {ranking : Ranking γ}
    (hnear : spec.near = some near) (h : hasDistances spec c xs = true)
    (hranking : ranking.results.map Ranked.distance = ys) (hne : ∀ x ∈ xs, ∀ y ∈ ys, x ≠ y) :
    ∀ d ∈ c.matching spec.filter, ∀ r ∈ ranking.results, near.distance? d ≠ some r.distance := by
  intro d hd r hr heq
  rw [hasDistances, hnear, Option.any_some, decide_eq_true_iff] at h
  have hx := List.mem_map_of_mem (f := near.distance?) hd
  have hy := List.mem_map_of_mem (f := Ranked.distance) hr
  rw [h, heq] at hx
  rw [hranking] at hy
  exact hne r.distance (by simpa using hx) r.distance hy rfl

/--
A call of the method hands back results, none of which is at the distance of a stored document.
-/
def LosesDistances (sig : Signature) (s : EntitySchema) (args : List Argument) (c : Collection) :
    Prop :=
  ∃ q spec near result store' ranking,
    CompiledQuery.compile sig s = .ok q
      ∧
    q.bind args 1000 = .ok spec
      ∧
    spec.near = some near
      ∧
    run {} some spec { collection := c } = .ok result store'
      ∧
    result.ranking? = some ranking
      ∧
    ranking.results ≠ []
      ∧
    ∀ d ∈ c.matching spec.filter, ∀ r ∈ ranking.results, near.distance? d ≠ some r.distance

theorem losesDistances_of_binds {sig : Signature} {s : EntitySchema} {args : List Argument}
    {c : Collection} (xs ys : List Float) (hys : ys ≠ []) (hne : ∀ x ∈ xs, ∀ y ∈ ys, x ≠ y)
    (h : CompiledQuery.binds sig s args 1000 (fun spec => spec.near.isSome
      && hasDistances spec c xs && returnsDistances {} c ys spec) = true) :
    LosesDistances sig s args c := by
  obtain ⟨q, spec, hcompile, hbind, hspec⟩ := CompiledQuery.exists_of_binds h
  rw [Bool.and_eq_true, Bool.and_eq_true] at hspec
  obtain ⟨⟨hnear, hdistances⟩, hreturns⟩ := hspec
  obtain ⟨near, hnear⟩ := Option.isSome_iff_exists.mp hnear
  obtain ⟨result, store', ranking, hrun, hranking, hmap⟩ := exists_of_returnsDistances hreturns
  refine ⟨q, spec, near, result, store', ranking, hcompile, hbind, hnear, hrun, hranking, ?_,
    distance?_ne_of_hasDistances hnear hdistances hmap hne⟩
  intro hnil
  rw [hnil, List.map_nil] at hmap
  exact hys hmap.symm

/--
A projection copies one value of several at the path, and has no room for the path behind as many
fields as it can have.
-/
theorem losesDistances_hotels_and_venues :
    LosesDistances hotelNames hotelSchema venueArguments hotels
      ∧
    LosesDistances venueNamesFull venueSchema venueArguments venues := by
  constructor
  · apply losesDistances_of_binds [1.0] [4.0]
    · simp
    · decide +kernel
    · decide +kernel
  · apply losesDistances_of_binds [2.0, 1.0]
      [Float.ofBits 0x7FF0000000000000, Float.ofBits 0x7FF0000000000000]
    · simp
    · decide +kernel
    · decide +kernel

end Execution
end DerivedQuery
