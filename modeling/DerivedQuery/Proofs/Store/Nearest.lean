import DerivedQuery.Proofs.Order.Ranking
import DerivedQuery.Proofs.Query.Near
import DerivedQuery.Proofs.Store.Agreement

/-!
This module contains what calls answer whose results are ranked by distance: the matches on their
part of the list, the nearest first, each with the distance of the nearest of its points.
-/

namespace DerivedQuery

open Float64 (IsTotalOn)

/-! ### The nearest point -/

namespace Document

theorem exists_smallest?_of_mem {ds : List Float} {y : Float} (h : y ∈ ds) :
    ∃ x, smallest? ds = some x ∧ Float64.rank x ≤ Float64.rank y := by
  induction ds generalizing y with
  | nil => contradiction
  | cons d ds ih =>
    unfold smallest?
    cases hrest : smallest? ds with
    | none =>
      refine ⟨d, rfl, ?_⟩
      rcases List.mem_cons.mp h with rfl | h
      · rfl
      · obtain ⟨x, hx, -⟩ := ih h
        rw [hrest] at hx
        contradiction
    | some e =>
      have hle : y ∈ ds → Float64.rank e ≤ Float64.rank y := by
        intro h
        obtain ⟨x, hx, hle⟩ := ih h
        rw [hrest, Option.some.injEq] at hx
        rwa [hx]
      simp only [Float64.totalCompare, beq_iff_eq, compare_lt_iff_lt]
      split
      next hlt =>
        refine ⟨e, rfl, ?_⟩
        rcases List.mem_cons.mp h with rfl | h
        · exact hlt.le
        · exact hle h
      next hlt =>
        refine ⟨d, rfl, ?_⟩
        rcases List.mem_cons.mp h with rfl | h
        · rfl
        · exact (not_lt.mp hlt).trans (hle h)

theorem exists_nearestDistance?_of_within {d : Document} {path : String} {center : Point}
    {limit : Distance}
    (h : ∃ p ∈ d.points path, Distance.between center p limit.metric ≤ limit.value) :
    ∃ x, d.nearestDistance? path center limit.metric = some x
      ∧ (x.isNaN = false → x ≤ limit.value) := by
  obtain ⟨p, hp, hle⟩ := h
  obtain ⟨x, hx, hrank⟩ := exists_smallest?_of_mem
    (List.mem_map_of_mem (f := fun p => Distance.between center p limit.metric) hp)
  refine ⟨x, hx, ?_⟩
  intro hnumber
  exact Float64.le_trans (Float64.le_of_rank_le hnumber (Float64.le_iff.mp hle).1 hrank) hle

end Document

/-! ### Ranked documents -/

namespace NearQuery

variable {γ : Type} {read : EntityReader γ} {near : NearQuery} {d : Document} {x : Float}
  {documents ranked : List Document}

def metric (near : NearQuery) : Metric :=
  Collection.metricOf near.maxDistance

def distance? (near : NearQuery) (d : Document) : Option Float :=
  d.nearestDistance? near.path near.center near.metric

def distance (near : NearQuery) (d : Document) : Float :=
  d.distanceFrom near.path near.center near.metric

structure Reports (read : EntityReader γ) (near : NearQuery) (d : Document) (r : Ranked γ) :
    Prop where
  content : read d = some r.content
  distance : near.distance? d = some r.distance

theorem distance_of_some (h : near.distance? d = some x) : near.distance d = x := by
  unfold distance Document.distanceFrom
  rw [← distance?, h, Option.getD_some]

theorem readRanked_eq_some {r : Ranked γ} (h : near.Reports read d r) :
    Execution.readRanked read near d = some r := by
  unfold Execution.readRanked
  rw [h.content, Option.map_some, ← metric, ← distance, distance_of_some h.distance]

theorem exists_reports (hread : ∀ d ∈ documents, (read d).isSome = true)
    (hpoint : ∀ d ∈ documents, (near.distance? d).isSome = true) :
    ∃ entities, List.Forall₂ (near.Reports read) documents entities := by
  apply exists_forall₂
  intro d hd
  obtain ⟨content, hcontent⟩ := Option.isSome_iff_exists.mp (hread d hd)
  obtain ⟨x, hx⟩ := Option.isSome_iff_exists.mp (hpoint d hd)
  exact ⟨⟨content, x⟩, hcontent, hx⟩

theorem mapM_readRanked {entities : List (Ranked γ)}
    (h : List.Forall₂ (near.Reports read) documents entities) :
    documents.mapM (Execution.readRanked read near) = some entities :=
  mapM_eq_some_iff.mpr (h.imp fun _ _ => readRanked_eq_some)

theorem map_distance_eq {results : List (Ranked γ)}
    (h : List.Forall₂ (near.Reports read) documents results) :
    results.map Ranked.distance = documents.map near.distance := by
  induction h with
  | nil => rfl
  | cons hhead _ ih => rw [List.map_cons, List.map_cons, ih, distance_of_some hhead.distance]

/-! ### Sorting by distance -/

theorem nearer_iff {y : Float} (hy : y.isNaN = false) : Collection.nearer x y = true ↔ x < y := by
  unfold Collection.nearer
  rw [hy]
  simp

theorem isRanking_sortedFrom (htotal : IsTotalOn (· ∈ documents.map near.distance)) :
    IsRanking near.distance documents
      (Collection.sortedFrom near.path near.center near.metric documents) := by
  apply isRanking_sort htotal
  intro a _ b hb
  exact nearer_iff (htotal.isNaN_eq (List.mem_map_of_mem hb))

def precedes (near : NearQuery) (a b : Document) : Bool :=
  Float64.totalCompare (near.distance a) (near.distance b) == .lt

theorem forall₂_ofList {entities : List (Ranked γ)}
    (h : List.Forall₂ (near.Reports read) documents entities) :
    List.Forall₂ (near.Reports read) (InsertionSort.sort near.precedes documents)
      (Ranking.ofList entities).results := by
  refine InsertionSort.forall₂_sort ?_ h
  intro a r b r' har hbr
  rw [precedes, distance_of_some har.distance, distance_of_some hbr.distance]

theorem exists_isRanking_ofList {entities : List (Ranked γ)}
    (htotal : IsTotalOn (· ∈ documents.map near.distance))
    (h : List.Forall₂ (near.Reports read) documents entities) :
    ∃ ranked,
      IsRanking near.distance documents ranked
        ∧
      List.Forall₂ (near.Reports read) ranked (Ranking.ofList entities).results := by
  refine ⟨_, isRanking_sort htotal ?_, forall₂_ofList h⟩
  intro a ha b hb
  rw [precedes, Float64.totalCompare, beq_iff_eq, compare_lt_iff_lt]
  exact (htotal.lt_iff_rank_lt (List.mem_map_of_mem ha) (List.mem_map_of_mem hb)).symm

theorem forall₂_ofList_of_ascending {entities : List (Ranked γ)}
    (htotal : IsTotalOn (· ∈ documents.map near.distance))
    (hascending : documents.Pairwise fun a b => near.distance a ≤ near.distance b)
    (h : List.Forall₂ (near.Reports read) documents entities) :
    List.Forall₂ (near.Reports read) documents (Ranking.ofList entities).results := by
  obtain ⟨ranked, hranking, hreports⟩ := exists_isRanking_ofList htotal h
  rwa [hranking.unique htotal (isRanking_self hascending)] at hreports

end NearQuery

/-! ### Calls -/

def Outcome.ranking? {γ : Type} : Outcome γ → Option (Ranking γ)
  | .geoResults r => some r
  | .geoPage p => some p.results
  | _ => none

namespace Execution

variable {γ : Type} {settings : Settings} {read : EntityReader γ} {spec : Specification}
  {c : Collection} {near : NearQuery} {entities : List (Ranked γ)}

/--
Wherever the collection is, the query runs to its end with the result, and leaves the collection as
it is. A query that sorts by keys answers as far as sorting does: see `Collection.sortedBy`.
-/
def Returns (settings : Settings) (read : EntityReader γ) (spec : Specification) (c : Collection)
    (result : Outcome γ) : Prop :=
  ∀ store : Store, store.collection = c →
    ∃ store', run settings read spec store = .ok result store' ∧ store'.collection = c

theorem exists_ranked_eq_ok {store : Store} (hnear : spec.near = some near)
    (hfailure : store.collection.failure = none)
    (hread : (store.collection.select spec.filter (options settings spec)).mapM
      (readRanked read near) = some entities) :
    ∃ store', ranked read spec (options settings spec) store = .ok (.ofList entities) store'
      ∧ store'.collection = store.collection := by
  obtain ⟨s₁, hcollect, hleaves⟩ := (allOrNothing_collect hfailure hread).clean
  refine ⟨s₁, ?_, hleaves.collection_eq⟩
  simp only [ranked_eq_collect hnear, run_bind_eq_ok_iff]
  exact ⟨entities, s₁, hcollect, rfl⟩

theorem returns_geoResults (hshape : spec.shape = .geoResults) (hnear : spec.near = some near)
    (hfailure : c.failure = none)
    (hread : (c.select spec.filter (options settings spec)).mapM (readRanked read near)
      = some entities) :
    Returns settings read spec c (.geoResults (.ofList entities)) := by
  rintro store rfl
  obtain ⟨s₁, hranked, hcollection⟩ := exists_ranked_eq_ok hnear hfailure hread
  have houtcome : outcome read spec (options settings spec) store
      = .ok (.geoResults (.ofList entities)) s₁ := by
    unfold outcome
    simp only [hshape, run_bind_eq_ok_iff]
    exact ⟨_, s₁, hranked, rfl⟩
  obtain ⟨s₂, hrun, hfinal⟩ := run_of_outcome houtcome
  exact ⟨s₂, hrun, hfinal.trans hcollection⟩

theorem returns_geoPage (hshape : spec.shape = .geoPage) (hnear : spec.near = some near)
    (hfailure : c.failure = none)
    (hread : (c.select spec.filter (options settings spec)).mapM (readRanked read near)
      = some entities) :
    ∃ info : PageInfo, Returns settings read spec c
      (.geoPage { info with results := .ofList entities }) := by
  refine ⟨pageInfo spec (spec.limit.elim (c.matching spec.filter).length
    (min (c.matching spec.filter).length)), ?_⟩
  rintro store rfl
  obtain ⟨s₁, hranked, hcollection⟩ := exists_ranked_eq_ok hnear hfailure hread
  obtain ⟨s₂, hcount, hleaves⟩ := (allOrNothing_total (s := s₁) spec (by rw [hcollection, hfailure])).clean
  rw [hcollection] at hcount
  have houtcome : outcome read spec (options settings spec) store = .ok (.geoPage
      { pageInfo spec (spec.limit.elim (store.collection.matching spec.filter).length
          (min (store.collection.matching spec.filter).length)) with
        results := .ofList entities }) s₂ := by
    unfold outcome
    simp only [hshape, run_bind_eq_ok_iff]
    exact ⟨_, s₁, hranked, _, s₂, hcount, rfl⟩
  obtain ⟨s₃, hrun, hfinal⟩ := run_of_outcome houtcome
  exact ⟨s₃, hrun, hfinal.trans (hleaves.collection_eq.trans hcollection)⟩

theorem exists_returns_ranking (hranked : spec.shape.isDistanceRanked = true)
    (hnear : spec.near = some near) (hfailure : c.failure = none)
    (hread : (c.select spec.filter (options settings spec)).mapM (readRanked read near)
      = some entities) :
    ∃ result, Returns settings read spec c result ∧ result.ranking? = some (.ofList entities) := by
  cases hshape : spec.shape with
  | geoResults => exact ⟨_, returns_geoResults hshape hnear hfailure hread, rfl⟩
  | geoPage =>
    obtain ⟨info, hreturns⟩ := returns_geoPage hshape hnear hfailure hread
    exact ⟨_, hreturns, rfl⟩
  | list | one | count | exists_ | page => simp [hshape, ResultShape.isDistanceRanked] at hranked

/-! ### The part that is handed back -/

/--
The part of a list that a call hands back: as much as the settings and the subject of the name
allow, and of a list in pages only what lies on the page.
-/
def handedBack {α : Type} (settings : Settings) (spec : Specification) (l : List α) : List α :=
  match spec.page with
  | none => l.take (allowance settings spec.limit)
  | some p => (l.drop p.offset).take (min settings.maxResultLimit (spec.pageSize p))

theorem handedBack_sublist {α : Type} (settings : Settings) (spec : Specification) (l : List α) :
    List.Sublist (handedBack settings spec l) l := by
  unfold handedBack
  split
  · exact List.take_sublist ..
  · exact (List.take_sublist ..).trans (List.drop_sublist ..)

theorem select_eq_projected (settings : Settings) (spec : Specification) (c : Collection) :
    c.select spec.filter (options settings spec)
      =
    Collection.projected (spec.projection.map (keepingNear spec.near))
      (handedBack settings spec
        (Collection.ordered spec.filter spec.sort (c.matching spec.filter))) := by
  unfold Collection.select handedBack
  cases hpage : spec.page with
  | none =>
    rw [skip_options hpage, limit_options hpage, Collection.window, Option.getD_none, List.drop_zero]
    rfl
  | some p =>
    simp only [options, Specification.findOptions, hpage, Option.map_some, Option.elim_some,
      Collection.window, Option.getD_some]

theorem select_eq_handedBack (hprojection : spec.projection = none) (c : Collection) :
    c.select spec.filter (options settings spec)
      =
    handedBack settings spec (Collection.ordered spec.filter spec.sort (c.matching spec.filter)) := by
  rw [select_eq_projected, hprojection]
  rfl

theorem mem_matching_of_mem_handedBack {d : Document} (h : d ∈ handedBack settings spec
    (Collection.ordered spec.filter spec.sort (c.matching spec.filter))) :
    d ∈ c.matching spec.filter := by
  rw [← (Collection.ordered_perm spec.filter spec.sort (c.matching spec.filter)).mem_iff]
  exact (handedBack_sublist settings spec _).subset h

theorem ordered_of_searches {limit : Distance} (h : near.Searches limit spec.filter)
    (hsort : spec.sort = none) (documents : List Document) :
    Collection.ordered spec.filter spec.sort documents
      =
    Collection.sortedFrom near.path near.center near.metric documents := by
  unfold Collection.ordered NearQuery.metric
  rw [hsort, h.nearClause, h.maxDistance]

end Execution

namespace NearQuery

variable {near : NearQuery} {limit : Distance} {filter : Filter} {c : Collection} {d : Document}

theorem Searches.exists_distance? (h : near.Searches limit filter) (hd : d ∈ c.matching filter) :
    ∃ x, near.distance? d = some x ∧ (x.isNaN = false → x ≤ limit.value) := by
  rw [Collection.matching, List.mem_filter] at hd
  have hmetric : near.metric = limit.metric := by
    rw [metric, h.maxDistance]
    rfl
  rw [distance?, hmetric]
  exact Document.exists_nearestDistance?_of_within (h.within d hd.2)

theorem Searches.isSome_distance? (h : near.Searches limit filter) (hd : d ∈ c.matching filter) :
    (near.distance? d).isSome = true := by
  obtain ⟨x, hx, -⟩ := h.exists_distance? hd
  exact Option.isSome_of_eq_some hx

/--
Among the distances of the matches any two are in order.
-/
def HasTotalDistances (near : NearQuery) (documents : List Document) : Prop :=
  IsTotalOn fun x => ∃ d ∈ documents, near.distance? d = some x

theorem Searches.isTotalOn_map (h : near.Searches limit filter)
    (htotal : near.HasTotalDistances (c.matching filter)) {documents : List Document}
    (hmem : ∀ d ∈ documents, d ∈ c.matching filter) :
    IsTotalOn (· ∈ documents.map near.distance) := by
  have hdistance : ∀ x ∈ documents.map near.distance,
      ∃ d ∈ c.matching filter, near.distance? d = some x := by
    intro x hx
    obtain ⟨d, hd, rfl⟩ := List.mem_map.mp hx
    obtain ⟨x, hx, -⟩ := h.exists_distance? (hmem d hd)
    rw [distance_of_some hx]
    exact ⟨d, hmem d hd, hx⟩
  intro x y hx hy
  exact htotal x y (hdistance x hx) (hdistance y hy)

theorem hasTotalDistances_of_map {documents : List Document} {xs : List Float}
    (hmap : documents.map near.distance? = xs.map some)
    (hxs : ∀ x ∈ xs, ∀ y ∈ xs, (x ≤ y ∨ y ≤ x) ∧ (x ≤ y → y ≤ x → x = y)) :
    near.HasTotalDistances documents := by
  have hmem : ∀ x, (∃ d ∈ documents, near.distance? d = some x) → x ∈ xs := by
    rintro x ⟨d, hd, hx⟩
    have hsome := List.mem_map_of_mem (f := near.distance?) hd
    rw [hmap, hx] at hsome
    simpa using hsome
  intro x y hx hy
  exact hxs x (hmem x hx) y (hmem y hy)

end NearQuery

namespace Execution

/--
The results of a call without a sort and without a projection are its part of the ranking, and none
of them is farther than the greatest distance.
-/
theorem exists_isRanking_of_run {γ : Type} {settings : Settings} {read : EntityReader γ}
    {sig : Signature} {s : EntitySchema} {q : CompiledQuery} {args : List Argument} {maxInSet : Nat}
    {spec : Specification} {c : Collection} (hcompile : CompiledQuery.compile sig s = .ok q)
    (hshape : q.shape = .geoResults) (hbind : q.bind args maxInSet = .ok spec)
    (hsort : spec.sort = none) (hprojection : spec.projection = none) (hfailure : c.failure = none) :
    ∃ near limit,
      spec.near = some near
        ∧
      near.maxDistance = some limit
        ∧
      (near.HasTotalDistances (c.matching spec.filter) →
        ∃ ranked,
          IsRanking near.distance (c.matching spec.filter) ranked
            ∧
          ((∀ d ∈ handedBack settings spec ranked, (read d).isSome = true) →
            ∃ results,
              List.Forall₂ (near.Reports read) (handedBack settings spec ranked) results
                ∧
              (∀ r ∈ results, r.distance ≤ limit.value)
                ∧
              Returns settings read spec c (.geoResults ⟨results⟩))) := by
  have hranked : q.shape.isDistanceRanked = true := by
    rw [hshape]
    rfl
  obtain ⟨near, limit, hnear, hsearches⟩ :=
    CompiledQuery.exists_searches_of_bind hcompile hbind hranked
  refine ⟨near, limit, hnear, hsearches.maxDistance, ?_⟩
  intro htotal
  have hranking := NearQuery.isRanking_sortedFrom
    (hsearches.isTotalOn_map htotal fun _ hd => hd)
  refine ⟨_, hranking, ?_⟩
  rw [← ordered_of_searches hsearches hsort] at hranking ⊢
  intro hread
  have hsublist := handedBack_sublist settings spec
    (Collection.ordered spec.filter spec.sort (c.matching spec.filter))
  obtain ⟨entities, hentities⟩ := NearQuery.exists_reports hread
    fun d hd => hsearches.isSome_distance? (mem_matching_of_mem_handedBack hd)
  -- the entities are ranked once more, but they are in the order of the store already
  have hreports := NearQuery.forall₂_ofList_of_ascending
    (hsearches.isTotalOn_map htotal fun d hd => mem_matching_of_mem_handedBack hd)
    (hranking.ascending.sublist hsublist) hentities
  refine ⟨_, hreports, ?_, ?_⟩
  · intro r hr
    obtain ⟨d, hd, hreport⟩ := exists_left_of_mem hreports hr
    have hmatch := mem_matching_of_mem_handedBack hd
    obtain ⟨x, hx, hle⟩ := hsearches.exists_distance? hmatch
    have hnumber := htotal.isNaN_eq ⟨d, hmatch, hx⟩
    rw [hreport.distance, Option.some.injEq] at hx
    rw [hx]
    exact hle hnumber
  · have hspec : spec.shape = .geoResults := (CompiledQuery.shape_of_bind hbind).trans hshape
    apply returns_geoResults hspec hnear hfailure
    rw [select_eq_handedBack hprojection]
    exact NearQuery.mapM_readRanked hentities

def venueSchema : EntitySchema :=
  ⟨"Venue", [⟨"name", .scalar .string⟩, ⟨"location", .geoPoint⟩]⟩

def venueSearch : Signature where
  entity := "Venue"
  name := "findByLocationNear"
  params := [.point, .distance]
  returns := some .geoResults

def venue (name : String) (x : Float) : Document :=
  [("name", .string name), ("location", .array [.double x, .double 0.0])]

def venues : Collection where
  name := "venues"
  documents := [venue "a" 2.0, venue "b" 1.0]

def venueName : EntityReader String := fun d =>
  (d.get? "name").bind Value.string?

def venueArguments : List Argument :=
  [.point ⟨0.0, 0.0⟩, .distance ⟨5.0, .neutral⟩]

def hasDistances (spec : Specification) (c : Collection) (xs : List Float) : Bool :=
  spec.near.any fun near => (c.matching spec.filter).map near.distance? = xs.map some

theorem hasTotalDistances_of_hasDistances {spec : Specification} {c : Collection} {xs : List Float}
    {near : NearQuery} (hnear : spec.near = some near) (h : hasDistances spec c xs = true)
    (hxs : ∀ x ∈ xs, ∀ y ∈ xs, (x ≤ y ∨ y ≤ x) ∧ (x ≤ y → y ≤ x → x = y)) :
    near.HasTotalDistances (c.matching spec.filter) := by
  rw [hasDistances, hnear, Option.any_some, decide_eq_true_iff] at h
  exact NearQuery.hasTotalDistances_of_map h hxs

theorem exists_isRanking_of_run_venue :
    ∃ q spec near,
      CompiledQuery.compile venueSearch venueSchema = .ok q
        ∧
      q.bind venueArguments 1000 = .ok spec
        ∧
      spec.near = some near
        ∧
      ∃ ranked results,
        IsRanking near.distance (venues.matching spec.filter) ranked
          ∧
        List.Forall₂ (near.Reports venueName) (handedBack {} spec ranked) results
          ∧
        Returns {} venueName spec venues (.geoResults ⟨results⟩) := by
  have hbinds : CompiledQuery.binds venueSearch venueSchema venueArguments 1000
      (fun spec => spec.shape = .geoResults ∧ spec.sort = none ∧ spec.projection = none
        ∧ hasDistances spec venues [2.0, 1.0] = true) = true := by
    decide +kernel
  obtain ⟨q, spec, hcompile, hbind, hspec⟩ := CompiledQuery.exists_of_binds hbinds
  obtain ⟨hshape, hsort, hprojection, hdistances⟩ := of_decide_eq_true hspec
  have hq : q.shape = .geoResults := (CompiledQuery.shape_of_bind hbind).symm.trans hshape
  obtain ⟨near, limit, hnear, -, hranked⟩ := @exists_isRanking_of_run String {} venueName _ _ _ _ _ _
    venues hcompile hq hbind hsort hprojection rfl
  obtain ⟨ranked, hranking, hresults⟩ :=
    hranked (hasTotalDistances_of_hasDistances hnear hdistances (by decide +kernel))
  have hread : ∀ d ∈ handedBack {} spec ranked, (venueName d).isSome = true := by
    intro d hd
    have hmatch := hranking.perm.mem_iff.mp ((handedBack_sublist {} spec ranked).subset hd)
    have hall : ∀ d ∈ venues.documents, (venueName d).isSome = true := by decide +kernel
    exact hall d (List.mem_of_mem_filter hmatch)
  obtain ⟨results, hreports, -, hreturns⟩ := hresults hread
  exact ⟨q, spec, near, hcompile, hbind, hnear, ranked, results, hranking, hreports, hreturns⟩

def returnsDistances (settings : Settings) (c : Collection) (xs : List Float)
    (spec : Specification) : Bool :=
  match run settings some spec { collection := c } with
  | .ok result _ => result.ranking?.map (fun r => r.results.map Ranked.distance) = some xs
  | .error .. => false

theorem exists_of_returnsDistances {settings : Settings} {c : Collection} {xs : List Float}
    {spec : Specification} (h : returnsDistances settings c xs spec = true) :
    ∃ result store' ranking,
      run settings some spec { collection := c } = .ok result store'
        ∧
      result.ranking? = some ranking
        ∧
      ranking.results.map Ranked.distance = xs := by
  unfold returnsDistances at h
  split at h
  next result store' hrun =>
    rw [decide_eq_true_iff, Option.map_eq_some_iff] at h
    obtain ⟨ranking, hranking, hxs⟩ := h
    exact ⟨result, store', ranking, hrun, hranking, hxs⟩
  next => contradiction

def venueSearchPaged : Signature :=
  { venueSearch with params := [.point, .distance, .page] }

/--
A call with a page does not hand back the beginning of the ranking.
-/
theorem exists_isRanking_of_run_venue_ne :
    ∃ q spec near result store' ranking,
      CompiledQuery.compile venueSearchPaged venueSchema = .ok q
        ∧
      q.shape = .geoResults
        ∧
      q.bind (venueArguments ++ [.page ⟨1, 1, none, by decide⟩]) 1000 = .ok spec
        ∧
      spec.sort = none
        ∧
      spec.projection = none
        ∧
      spec.near = some near
        ∧
      near.HasTotalDistances (venues.matching spec.filter)
        ∧
      run {} some spec { collection := venues } = .ok result store'
        ∧
      result.ranking? = some ranking
        ∧
      ∀ ranked, IsRanking near.distance (venues.matching spec.filter) ranked →
        ¬ List.Forall₂ (near.Reports some) (ranked.take (allowance {} spec.limit)) ranking.results := by
  have hbinds : CompiledQuery.binds venueSearchPaged venueSchema
      (venueArguments ++ [.page ⟨1, 1, none, by decide⟩]) 1000
      (fun spec => spec.shape = .geoResults ∧ spec.sort = none ∧ spec.projection = none
        ∧ spec.near.isSome = true ∧ spec.limit = none
        ∧ hasDistances spec venues [2.0, 1.0] = true
        ∧ returnsDistances {} venues [2.0] spec = true) = true := by
    decide +kernel
  obtain ⟨q, spec, hcompile, hbind, hspec⟩ := CompiledQuery.exists_of_binds hbinds
  obtain ⟨hshape, hsort, hprojection, hnear, hlimit, hdistances, hreturns⟩ :=
    of_decide_eq_true hspec
  obtain ⟨near, hnear⟩ := Option.isSome_iff_exists.mp hnear
  obtain ⟨result, store', ranking, hrun, hranking, hxs⟩ := exists_of_returnsDistances hreturns
  refine ⟨q, spec, near, result, store', ranking, hcompile,
    (CompiledQuery.shape_of_bind hbind).symm.trans hshape, hbind, hsort, hprojection, hnear,
    hasTotalDistances_of_hasDistances hnear hdistances (by decide +kernel), hrun, hranking, ?_⟩
  intro ranked hranked hreports
  rw [hasDistances, hnear, Option.any_some, decide_eq_true_iff] at hdistances
  have hmatches := congrArg List.length hdistances
  have hresults := congrArg List.length hxs
  have hlength := hreports.length_eq
  rw [List.length_map, List.length_map] at hmatches
  rw [List.length_map] at hresults
  rw [List.length_take, hranked.perm.length_eq, hmatches, hresults, hlimit] at hlength
  revert hlength
  decide

end Execution
end DerivedQuery
