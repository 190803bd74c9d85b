import DerivedQuery.Proofs.Store.Nearest

/-!
This module contains how distances ascend on pages of ranked results. On one page they always do. From
page to page they do if nothing else orders the matches, since the pages are then windows of the
ranking of all matches.
-/

namespace DerivedQuery

variable {γ : Type}

theorem rel_of_mem_windows {α : Type} {R : α → α → Prop} {l : List α} (h : l.Pairwise R)
    {m n i j : Nat} (hij : i + m ≤ j) {a b : α} (ha : a ∈ (l.drop i).take m)
    (hb : b ∈ (l.drop j).take n) : R a b := by
  have hsplit : (l.take (i + m) ++ l.drop (i + m)).Pairwise R := by
    rwa [List.take_append_drop]
  refine (List.pairwise_append.mp hsplit).2.2 a ?_ b ?_
  · rw [List.take_drop] at ha
    exact List.mem_of_mem_drop ha
  · obtain ⟨k, rfl⟩ := Nat.exists_eq_add_of_le hij
    rw [← List.drop_drop] at hb
    exact List.mem_of_mem_drop (List.mem_of_mem_take hb)

namespace NearQuery

variable {read : EntityReader γ} {near : NearQuery} {documents : List Document}
  {results : List (Ranked γ)}

theorem pairwise_distance (h : List.Forall₂ (near.Reports read) documents results)
    (hascending : documents.Pairwise fun a b => near.distance a ≤ near.distance b) :
    results.Pairwise fun a b => a.distance ≤ b.distance := by
  rw [← List.pairwise_map (f := Ranked.distance) (R := (· ≤ ·)), map_distance_eq h,
    List.pairwise_map]
  exact hascending

end NearQuery

def Specification.turnTo (n : Nat) (spec : Specification) : Specification :=
  { spec with page := spec.page.map (PageRequest.turnTo n) }

namespace Execution

variable {settings : Settings} {read : EntityReader γ} {spec : Specification} {c : Collection}

theorem handedBack_turnTo {α : Type} {p : PageRequest} {l : List α} (hpage : spec.page = some p)
    (hlength : l.length ≤ maxCount) (settings : Settings) (n : Nat) :
    handedBack settings (spec.turnTo n) l
      =
    (l.drop (n * p.size)).take (min settings.maxResultLimit (spec.pageSize p)) := by
  unfold handedBack Specification.turnTo
  rw [hpage, Option.map_some]
  dsimp only
  rw [drop_offset hlength]
  rfl

theorem pageSize_le (spec : Specification) (p : PageRequest) : spec.pageSize p ≤ p.size := by
  unfold Specification.pageSize
  split
  · exact le_refl _
  · exact Nat.min_le_right ..

theorem distance_le_of_mem_pages {near : NearQuery} {p : PageRequest} {l : List Document}
    (hpage : spec.page = some p) (hlength : l.length ≤ maxCount)
    (hascending : l.Pairwise fun a b => near.distance a ≤ near.distance b) {k n : Nat} (hkn : k < n)
    {a b : Document} (ha : a ∈ handedBack settings (spec.turnTo k) l)
    (hb : b ∈ handedBack settings (spec.turnTo n) l) : near.distance a ≤ near.distance b := by
  rw [handedBack_turnTo hpage hlength] at ha hb
  have hsize := pageSize_le spec p
  have hnext : (k + 1) * p.size ≤ n * p.size := Nat.mul_le_mul_right p.size hkn
  rw [Nat.succ_mul] at hnext
  refine rel_of_mem_windows hascending ?_ ha hb
  omega

theorem pairwise_distance_ordered {near : NearQuery} {limit : Distance}
    (hsearches : near.Searches limit spec.filter)
    (htotal : near.HasTotalDistances (c.matching spec.filter)) (hsort : spec.sort = none) :
    (Collection.ordered spec.filter spec.sort (c.matching spec.filter)).Pairwise
      fun a b => near.distance a ≤ near.distance b := by
  have hranking :=
    NearQuery.isRanking_sortedFrom (hsearches.isTotalOn_map htotal fun _ hd => hd)
  rw [← ordered_of_searches hsearches hsort] at hranking
  exact hranking.ascending

theorem distance_le_of_mem_results {near : NearQuery} {p : PageRequest}
    {l ranked ranked' : List Document} {results results' : List (Ranked γ)} (hpage : spec.page = some p)
    (hlength : l.length ≤ maxCount)
    (hascending : (Collection.ordered spec.filter spec.sort l).Pairwise
      fun a b => near.distance a ≤ near.distance b)
    {k n : Nat} (hkn : k < n)
    (hranking : IsRanking near.distance (handedBack settings (spec.turnTo k)
      (Collection.ordered spec.filter spec.sort l)) ranked)
    (hreports : List.Forall₂ (near.Reports read) ranked results)
    (hranking' : IsRanking near.distance (handedBack settings (spec.turnTo n)
      (Collection.ordered spec.filter spec.sort l)) ranked')
    (hreports' : List.Forall₂ (near.Reports read) ranked' results') {a b : Ranked γ}
    (ha : a ∈ results) (hb : b ∈ results') : a.distance ≤ b.distance := by
  have hordered : (Collection.ordered spec.filter spec.sort l).length ≤ maxCount := by
    rwa [Collection.length_ordered]
  obtain ⟨d, hd, hda⟩ := exists_left_of_mem hreports ha
  obtain ⟨e, he, heb⟩ := exists_left_of_mem hreports' hb
  rw [← NearQuery.distance_of_some hda.distance, ← NearQuery.distance_of_some heb.distance]
  exact distance_le_of_mem_pages hpage hordered hascending hkn
    (hranking.perm.mem_iff.mp hd) (hranking'.perm.mem_iff.mp he)

theorem exists_geoPage {near : NearQuery} {limit : Distance} {spec : Specification}
    (hshape : spec.shape = .geoPage) (hnear : spec.near = some near)
    (hsearches : near.Searches limit spec.filter) (hprojection : spec.projection = none)
    (hfailure : c.failure = none) (hread : ∀ d ∈ c.matching spec.filter, (read d).isSome = true)
    (htotal : near.HasTotalDistances (c.matching spec.filter)) :
    ∃ (page : GeoPage γ) (ranked : List Document),
      Returns settings read spec c (.geoPage page)
        ∧
      IsRanking near.distance (handedBack settings spec
        (Collection.ordered spec.filter spec.sort (c.matching spec.filter))) ranked
        ∧
      List.Forall₂ (near.Reports read) ranked page.results.results := by
  obtain ⟨entities, hentities⟩ := NearQuery.exists_reports
    (fun d hd => hread d (mem_matching_of_mem_handedBack hd))
    fun d hd => hsearches.isSome_distance? (mem_matching_of_mem_handedBack hd)
  have hselect := NearQuery.mapM_readRanked hentities
  rw [← select_eq_handedBack hprojection] at hselect
  obtain ⟨info, hreturns⟩ := returns_geoPage hshape hnear hfailure hselect
  obtain ⟨ranked, hranking, hreports⟩ :=
    NearQuery.exists_isRanking_ofList
      (hsearches.isTotalOn_map htotal fun d hd => mem_matching_of_mem_handedBack hd) hentities
  exact ⟨_, ranked, hreturns, hranking, hreports⟩

/--
Calls that differ in the number of the page only answer the pages, and leave the collection as it is.
Each call sorts anew, and answers as far as sorting does: see `Collection.sortedBy`.
-/
def AnswersGeoPages (settings : Settings) (read : EntityReader γ) (q : CompiledQuery)
    (args : List Argument) (maxInSet : Nat) (c : Collection) (pages : Nat → GeoPage γ) : Prop :=
  ∀ n, ∃ spec,
    q.bind (args.map (Argument.turnTo n)) maxInSet = .ok spec
      ∧
    Returns settings read spec c (.geoPage (pages n))

/--
The pages of a call are the rankings of the parts of the list, and if nothing else orders the matches,
no result is nearer than one on a page before.
-/
theorem exists_ascending_geoPages {sig : Signature} {s : EntitySchema} {q : CompiledQuery}
    {args : List Argument} {maxInSet : Nat} (hcompile : CompiledQuery.compile sig s = .ok q)
    (hshape : q.shape = .geoPage) (hbind : q.bind args maxInSet = .ok spec)
    (hprojection : spec.projection = none) (hfailure : c.failure = none)
    (hlength : c.documents.length ≤ maxCount)
    (hread : ∀ d ∈ c.matching spec.filter, (read d).isSome = true) :
    ∃ near,
      spec.near = some near
        ∧
      (near.HasTotalDistances (c.matching spec.filter) →
        ∃ pages : Nat → GeoPage γ,
          AnswersGeoPages settings read q args maxInSet c pages
            ∧
          (∀ n, ∃ ranked,
            IsRanking near.distance (handedBack settings (spec.turnTo n)
                (Collection.ordered spec.filter spec.sort (c.matching spec.filter))) ranked
              ∧
            List.Forall₂ (near.Reports read) ranked (pages n).results.results)
            ∧
          (∀ n, (pages n).results.results.Pairwise fun a b => a.distance ≤ b.distance)
            ∧
          (spec.sort = none → ∀ k n, k < n →
            ∀ a ∈ (pages k).results.results, ∀ b ∈ (pages n).results.results,
              a.distance ≤ b.distance)) := by
  have hranked : q.shape.isDistanceRanked = true := by
    rw [hshape]
    rfl
  have hpaged : q.shape.isPaged = true := by
    rw [hshape]
    rfl
  obtain ⟨near, limit, hnear, hsearches⟩ :=
    CompiledQuery.exists_searches_of_bind hcompile hbind hranked
  obtain ⟨p, hpage⟩ := CompiledQuery.exists_page_of_bind hcompile hpaged hbind
  refine ⟨near, hnear, ?_⟩
  intro htotal
  have hspec : spec.shape = .geoPage := (CompiledQuery.shape_of_bind hbind).trans hshape
  have hmatches := (length_matching_le c spec.filter).trans hlength
  have hpages : ∀ n, ∃ (page : GeoPage γ) (ranked : List Document),
      Returns settings read (spec.turnTo n) c (.geoPage page)
        ∧
      IsRanking near.distance (handedBack settings (spec.turnTo n)
        (Collection.ordered spec.filter spec.sort (c.matching spec.filter))) ranked
        ∧
      List.Forall₂ (near.Reports read) ranked page.results.results :=
    fun n => exists_geoPage hspec hnear hsearches hprojection hfailure hread htotal
  choose pages ranked hreturns hranking hreports using hpages
  refine ⟨pages, ?answers, ?windows, ?ascending, ?across⟩
  case answers =>
    intro n
    exact ⟨spec.turnTo n, CompiledQuery.bind_turnTo n hcompile hbind, hreturns n⟩
  case windows =>
    intro n
    exact ⟨ranked n, hranking n, hreports n⟩
  case ascending =>
    intro n
    exact NearQuery.pairwise_distance (hreports n) (hranking n).ascending
  case across =>
    intro hsort k n hkn a ha b hb
    have hordered := pairwise_distance_ordered hsearches htotal hsort
    exact distance_le_of_mem_results hpage hmatches hordered hkn (hranking k) (hreports k)
      (hranking n) (hreports n) ha hb

def venuePages : Signature :=
  { venueSearchPaged with returns := some .geoPage }

def venuePageArguments (page : Nat) : List Argument :=
  venueArguments ++ [.page ⟨page, 1, none, by decide⟩]

theorem exists_ascending_geoPages_venue :
    ∃ q spec near pages,
      CompiledQuery.compile venuePages venueSchema = .ok q
        ∧
      q.bind (venuePageArguments 0) 1000 = .ok spec
        ∧
      spec.near = some near
        ∧
      AnswersGeoPages {} venueName q (venuePageArguments 0) 1000 venues pages
        ∧
      ∀ k n, k < n → ∀ a ∈ (pages k).results.results, ∀ b ∈ (pages n).results.results,
        a.distance ≤ b.distance := by
  have hbinds : CompiledQuery.binds venuePages venueSchema (venuePageArguments 0) 1000
      (fun spec => spec.shape = .geoPage ∧ spec.sort = none ∧ spec.projection = none
        ∧ hasDistances spec venues [2.0, 1.0] = true) = true := by
    decide +kernel
  obtain ⟨q, spec, hcompile, hbind, hspec⟩ := CompiledQuery.exists_of_binds hbinds
  obtain ⟨hshape, hsort, hprojection, hdistances⟩ := of_decide_eq_true hspec
  have hq : q.shape = .geoPage := (CompiledQuery.shape_of_bind hbind).symm.trans hshape
  have hread : ∀ d ∈ venues.matching spec.filter, (venueName d).isSome = true := by
    have hall : ∀ d ∈ venues.documents, (venueName d).isSome = true := by decide +kernel
    exact fun d hd => hall d (List.mem_of_mem_filter hd)
  obtain ⟨near, hnear, hpages⟩ := @exists_ascending_geoPages String {} venueName _ venues _ _ _ _ _
    hcompile hq hbind hprojection rfl (by decide) hread
  obtain ⟨pages, hanswers, -, -, hascending⟩ :=
    hpages (hasTotalDistances_of_hasDistances hnear hdistances (by decide +kernel))
  exact ⟨q, spec, near, pages, hcompile, hbind, hnear, hanswers, hascending hsort⟩

def venuePagesByName : Signature :=
  { venuePages with name := "findByLocationNearOrderByName" }

/--
If the name orders the matches, the result on the second page can be nearer than the one on the first.
-/
theorem exists_ascending_geoPages_venue_ne :
    ∃ q spec₀ spec₁ near result₀ result₁ store₀ store₁ ranking₀ ranking₁,
      CompiledQuery.compile venuePagesByName venueSchema = .ok q
        ∧
      q.shape = .geoPage
        ∧
      q.bind (venuePageArguments 0) 1000 = .ok spec₀
        ∧
      q.bind (venuePageArguments 1) 1000 = .ok spec₁
        ∧
      spec₀.projection = none
        ∧
      spec₀.near = some near
        ∧
      near.HasTotalDistances (venues.matching spec₀.filter)
        ∧
      run {} some spec₀ { collection := venues } = .ok result₀ store₀
        ∧
      run {} some spec₁ { collection := venues } = .ok result₁ store₁
        ∧
      result₀.ranking? = some ranking₀
        ∧
      result₁.ranking? = some ranking₁
        ∧
      ∃ a ∈ ranking₀.results, ∃ b ∈ ranking₁.results, ¬ a.distance ≤ b.distance := by
  have hfirst : CompiledQuery.binds venuePagesByName venueSchema (venuePageArguments 0) 1000
      (fun spec => spec.shape = .geoPage ∧ spec.projection = none ∧ spec.near.isSome = true
        ∧ hasDistances spec venues [2.0, 1.0] = true
        ∧ returnsDistances {} venues [2.0] spec = true) = true := by
    decide +kernel
  have hsecond : CompiledQuery.binds venuePagesByName venueSchema (venuePageArguments 1) 1000
      (returnsDistances {} venues [1.0]) = true := by
    decide +kernel
  obtain ⟨q, spec₀, hcompile, hbind₀, hspec⟩ := CompiledQuery.exists_of_binds hfirst
  obtain ⟨hshape, hprojection, hnear, hdistances, hreturns₀⟩ := of_decide_eq_true hspec
  obtain ⟨near, hnear⟩ := Option.isSome_iff_exists.mp hnear
  obtain ⟨q', spec₁, hcompile', hbind₁, hreturns₁⟩ := CompiledQuery.exists_of_binds hsecond
  rw [hcompile, Except.ok.injEq] at hcompile'
  subst hcompile'
  obtain ⟨result₀, store₀, ranking₀, hrun₀, hranking₀, hxs₀⟩ := exists_of_returnsDistances hreturns₀
  obtain ⟨result₁, store₁, ranking₁, hrun₁, hranking₁, hxs₁⟩ := exists_of_returnsDistances hreturns₁
  refine ⟨q, spec₀, spec₁, near, result₀, result₁, store₀, store₁, ranking₀, ranking₁, hcompile,
    (CompiledQuery.shape_of_bind hbind₀).symm.trans hshape, hbind₀, hbind₁, hprojection, hnear,
    hasTotalDistances_of_hasDistances hnear hdistances (by decide +kernel), hrun₀, hrun₁, hranking₀,
    hranking₁, ?_⟩
  obtain ⟨a, ha, hadistance⟩ : ∃ a ∈ ranking₀.results, a.distance = 2.0 := by
    rw [← List.mem_map, hxs₀]
    exact List.mem_singleton.mpr rfl
  obtain ⟨b, hb, hbdistance⟩ : ∃ b ∈ ranking₁.results, b.distance = 1.0 := by
    rw [← List.mem_map, hxs₁]
    exact List.mem_singleton.mpr rfl
  refine ⟨a, ha, b, hb, ?_⟩
  rw [hadistance, hbdistance]
  decide +kernel

end Execution
end DerivedQuery
