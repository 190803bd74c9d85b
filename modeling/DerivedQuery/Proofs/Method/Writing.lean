import DerivedQuery.Proofs.Method.PartTree

/-!
This module contains that reading inverts writing. A name that is put together from fragments and
order items is read as the clauses of exactly these fragments and the order of exactly these items.
-/

namespace DerivedQuery
namespace PartTree

structure IsFragment (fragment : List Char) : Prop where
  capital : Keyword.startsCapital fragment = true
  noAnd : Keyword.Free Keyword.and_ fragment
  noOr : Keyword.Free Keyword.or_ fragment
  noOrderBy : Keyword.Free Keyword.orderBy fragment

instance (fragment : List Char) : Decidable (IsFragment fragment) :=
  decidable_of_iff
    (Keyword.startsCapital fragment = true ∧ Keyword.Free Keyword.and_ fragment
      ∧ Keyword.Free Keyword.or_ fragment ∧ Keyword.Free Keyword.orderBy fragment)
    ⟨fun ⟨h1, h2, h3, h4⟩ => ⟨h1, h2, h3, h4⟩, fun h => ⟨h.capital, h.noAnd, h.noOr, h.noOrderBy⟩⟩

def writeGroup (group : List (List Char)) : List Char :=
  List.intercalate Keyword.and_ group

def writePredicate (groups : List (List (List Char))) : List Char :=
  List.intercalate Keyword.or_ (groups.map writeGroup)

def writeOrder (items : List (List Char × Direction)) : List Char :=
  if items.isEmpty then [] else Keyword.orderBy ++ OrderItem.write items

def write (groups : List (List (List Char))) (items : List (List Char × Direction)) : String :=
  String.ofList ("findBy".toList ++ (writePredicate groups ++ writeOrder items))

/-! ### The predicate -/

theorem ending_getLast_ne : ∀ sep ∈ [Keyword.or_, Keyword.and_],
    ∀ ending ∈ allIgnoreCaseEndings, ∀ i < ending.toList.length, 0 < i →
    Keyword.startsCapital (ending.toList.drop i) = true →
    (ending.toList.take i).getLast? ≠ sep.getLast? := by
  decide

section

variable {groups : List (List (List Char))} (hgroups : ∀ group ∈ groups, group ≠ [])
  (hfragments : ∀ group ∈ groups, ∀ fragment ∈ group, IsFragment fragment)

include hgroups hfragments

theorem startsCapital_of_mem_map_writeGroup :
    ∀ text ∈ groups.map writeGroup, Keyword.startsCapital text = true := by
  intro text htext
  rw [List.mem_map] at htext
  obtain ⟨group, hgroup, rfl⟩ := htext
  apply Keyword.startsCapital_intercalate _ (hgroups group hgroup)
  intro fragment hfragment
  exact (hfragments group hgroup fragment hfragment).capital

theorem startsCapital_writePredicate (hne : groups ≠ []) :
    Keyword.startsCapital (writePredicate groups) = true := by
  apply Keyword.startsCapital_intercalate
  · simpa using hne
  · exact startsCapital_of_mem_map_writeGroup hgroups hfragments

omit hgroups in
theorem split_and_writeGroup {group : List (List Char)} (hgroup : group ∈ groups)
    (hne : group ≠ []) :
    Keyword.split Keyword.and_ (writeGroup group) = group := by
  apply Keyword.split_intercalate (by decide) Keyword.small_and hne
  · intro fragment hfragment
    exact (hfragments group hgroup fragment hfragment).capital
  · intro fragment hfragment
    exact (hfragments group hgroup fragment hfragment).noAnd

theorem split_or_writePredicate (hne : groups ≠ []) :
    Keyword.split Keyword.or_ (writePredicate groups) = groups.map writeGroup := by
  apply Keyword.split_intercalate (by decide) Keyword.small_or
  · simpa using hne
  · exact startsCapital_of_mem_map_writeGroup hgroups hfragments
  · intro text htext
    rw [List.mem_map] at htext
    obtain ⟨group, hgroup, rfl⟩ := htext
    apply Keyword.free_intercalate (by decide) Keyword.clear_or_and
    · intro fragment hfragment
      exact (hfragments group hgroup fragment hfragment).capital
    · intro fragment hfragment
      exact (hfragments group hgroup fragment hfragment).noOr

theorem free_orderBy_writePredicate :
    Keyword.Free Keyword.orderBy (writePredicate groups) := by
  apply Keyword.free_intercalate (by decide) Keyword.clear_orderBy_or
  · exact startsCapital_of_mem_map_writeGroup hgroups hfragments
  · intro text htext
    rw [List.mem_map] at htext
    obtain ⟨group, hgroup, rfl⟩ := htext
    apply Keyword.free_intercalate (by decide) Keyword.clear_orderBy_and
    · intro fragment hfragment
      exact (hfragments group hgroup fragment hfragment).capital
    · intro fragment hfragment
      exact (hfragments group hgroup fragment hfragment).noOrderBy

theorem dropEnding_writePredicate
    (hlast : ∀ group, groups.getLast? = some group → ∀ fragment, group.getLast? = some fragment →
      ∀ ending ∈ allIgnoreCaseEndings, ¬ ending.toList <:+ fragment) :
    Keyword.dropEnding allIgnoreCaseEndings (writePredicate groups)
      =
    (writePredicate groups, none) := by
  apply Keyword.dropEnding_eq_self
  intro ending hending hsuffix
  by_cases hne : groups = []
  · subst hne
    have hnil : ending.toList = [] := List.suffix_nil.mp hsuffix
    revert ending
    decide
  · have hgroup := List.getLast_mem hne
    have hgroup_ne := hgroups _ hgroup
    have hfragment := List.getLast_mem hgroup_ne
    have hcapital := startsCapital_of_mem_map_writeGroup hgroups hfragments _
      (List.mem_map_of_mem hgroup)
    -- the ending lies in the last group, and there in its last fragment
    have hmap : groups.map writeGroup ≠ [] := by simpa using hne
    have hor := Keyword.suffix_getLast_of_suffix_intercalate hmap (by decide)
      (ending_getLast_ne _ (by simp) ending hending) (by rwa [List.getLast_map]) hsuffix
    rw [List.getLast_map] at hor
    have hand := Keyword.suffix_getLast_of_suffix_intercalate hgroup_ne (by decide)
      (ending_getLast_ne _ (by simp) ending hending) (hfragments _ hgroup _ hfragment).capital hor
    exact hlast _ (List.getLast?_eq_some_getLast hne) _ (List.getLast?_eq_some_getLast hgroup_ne)
      ending hending hand

/-! ### Reading -/

theorem readGroups_writePredicate {s : EntitySchema} {m : String} (method : String) {ordered : Bool}
    (hordered : groups = [] → ordered = true)
    (hread : ∀ group ∈ groups, ∀ fragment ∈ group, ∃ clause,
      Clause.read s m false fragment = .ok clause) :
    ∃ clauses,
      readGroups s method ordered (writePredicate groups) none = .ok clauses
        ∧
      List.Forall₂ (List.Forall₂ fun fragment clause =>
        Clause.read s m false fragment = .ok clause) groups clauses := by
  have hclauses : ∃ clauses, List.Forall₂ (List.Forall₂ fun fragment clause =>
      Clause.read s m false fragment = .ok clause) groups clauses := by
    apply exists_forall₂
    intro group hgroup
    exact exists_forall₂ (hread group hgroup)
  obtain ⟨clauses, hclauses⟩ := hclauses
  refine ⟨clauses, ?_, hclauses⟩
  unfold readGroups
  by_cases hne : groups = []
  · subst hne
    rw [List.forall₂_nil_left_iff.mp hclauses, hordered rfl]
    rfl
  · have hcapital := startsCapital_writePredicate hgroups hfragments hne
    rw [if_neg]
    · rw [split_or_writePredicate hgroups hfragments hne, mapM_eq_ok_iff, List.forall₂_map_left_iff]
      apply forall₂_of_mem _ hclauses
      intro group hgroup clauses hclauses
      unfold readGroup
      rw [split_and_writeGroup hfragments hgroup (hgroups group hgroup), mapM_eq_ok_iff]
      apply forall₂_of_mem _ hclauses
      intro fragment hfragment clause hclause
      have hfragment_capital := (hfragments group hgroup fragment hfragment).capital
      unfold readFragment
      rw [if_neg]
      · exact Clause.read_method m method hclause
      · intro hempty
        rw [List.isEmpty_iff.mp hempty] at hfragment_capital
        contradiction
    · intro hempty
      simp only [Option.isNone_none, Bool.and_true, Bool.and_eq_true] at hempty
      rw [List.isEmpty_iff.mp hempty.1] at hcapital
      contradiction

theorem cutOrder_write {items : List (List Char × Direction)}
    (htokens : ∀ item ∈ items, OrderItem.IsToken item.1) :
    cutOrder (writePredicate groups ++ writeOrder items)
      =
    (writePredicate groups, if items.isEmpty then none else some (OrderItem.write items)) := by
  have hfree := free_orderBy_writePredicate hgroups hfragments
  unfold cutOrder writeOrder
  by_cases hitems : items.isEmpty = true
  · rw [if_pos hitems, if_pos hitems, List.append_nil, Keyword.cut?_eq_none hfree]
  · rw [if_neg hitems, if_neg hitems, Keyword.cut?_append (by decide) hfree]
    · apply Keyword.Apart.of_head
      show ∀ c ∈ Keyword.orderBy.tail, some 'O' ≠ some c
      unfold Keyword.orderBy
      simp
    · exact OrderItem.startsCapital_write htokens

theorem startsCapital_write {items : List (List Char × Direction)}
    (hne : groups ≠ [] ∨ items ≠ []) :
    Keyword.startsCapital (writePredicate groups ++ writeOrder items) = true := by
  by_cases hnil : groups = []
  · subst hnil
    have hitems : ¬ items.isEmpty = true := by simpa using hne
    unfold writeOrder
    rw [if_neg hitems]
    rfl
  · apply Keyword.startsCapital_append
    exact startsCapital_writePredicate hgroups hfragments hnil

end

theorem readOrder_write {s : EntitySchema} {m : String} (method : String)
    {items : List (List Char × Direction)} (htokens : ∀ item ∈ items, OrderItem.IsToken item.1)
    (hresolve : ∀ item ∈ items, ∃ path, PropertyPath.resolve s item.1 m = .ok path) :
    ∃ clauses,
      readOrder s method (if items.isEmpty then none else some (OrderItem.write items))
        =
      .ok clauses
        ∧
      List.Forall₂ (fun item clause =>
          clause.item.direction = item.2 ∧ PropertyPath.resolve s item.1 m = .ok clause.path)
        items clauses := by
  have hclauses : ∃ clauses : List OrderClause, List.Forall₂ (fun item clause =>
      clause.item = ⟨item.1, some item.2⟩ ∧ PropertyPath.resolve s item.1 m = .ok clause.path)
      items clauses := by
    apply exists_forall₂
    intro item hitem
    obtain ⟨path, hpath⟩ := hresolve item hitem
    exact ⟨⟨⟨item.1, some item.2⟩, path⟩, rfl, hpath⟩
  obtain ⟨clauses, hclauses⟩ := hclauses
  refine ⟨clauses, ?_, ?_⟩
  · cases items with
    | nil =>
      rw [List.forall₂_nil_left_iff.mp hclauses]
      rfl
    | cons first items =>
      rw [List.isEmpty_cons, if_neg (by simp), readOrder, if_neg]
      · rw [OrderItem.readAll_write htokens, mapM_eq_ok_iff, List.forall₂_map_left_iff]
        apply hclauses.imp
        intro item clause hclause
        rw [OrderClause.read_eq_ok_iff]
        exact ⟨hclause.1, PropertyPath.resolve_method m method hclause.2⟩
      · intro hempty
        have hcapital := (htokens first (by simp)).capital
        rw [List.isEmpty_iff] at hempty
        simp only [OrderItem.write, List.flatMap_cons, List.append_eq_nil_iff] at hempty
        rw [hempty.1.1] at hcapital
        contradiction
  · apply hclauses.imp
    intro item clause hclause
    rw [hclause.1]
    exact ⟨rfl, hclause.2⟩

/--
What is written down is read again: the clauses of the fragments, group by group, and the paths and
directions of the items.
-/
theorem read_write {s : EntitySchema} {m : String} {groups : List (List (List Char))}
    {items : List (List Char × Direction)} (hne : groups ≠ [] ∨ items ≠ [])
    (hgroups : ∀ group ∈ groups, group ≠ [])
    (hfragments : ∀ group ∈ groups, ∀ fragment ∈ group, IsFragment fragment)
    (hlast : ∀ group, groups.getLast? = some group → ∀ fragment, group.getLast? = some fragment →
      ∀ ending ∈ allIgnoreCaseEndings, ¬ ending.toList <:+ fragment)
    (hread : ∀ group ∈ groups, ∀ fragment ∈ group, ∃ clause,
      Clause.read s m false fragment = .ok clause)
    (htokens : ∀ item ∈ items, OrderItem.IsToken item.1)
    (hresolve : ∀ item ∈ items, ∃ path, PropertyPath.resolve s item.1 m = .ok path) :
    ∃ t,
      read (write groups items) s = .ok t
        ∧
      List.Forall₂ (List.Forall₂ fun fragment clause =>
        Clause.read s m false fragment = .ok clause) groups t.groups
        ∧
      List.Forall₂ (fun item clause =>
          clause.item.direction = item.2 ∧ PropertyPath.resolve s item.1 m = .ok clause.path)
        items t.orderBy := by
  have hcapital := startsCapital_write hgroups hfragments hne
  have hcut := cutOrder_write hgroups hfragments htokens
  have hending := dropEnding_writePredicate hgroups hfragments hlast
  have hname : MethodName.normalizeChars (write groups items).toList
      = "findBy".toList ++ (writePredicate groups ++ writeOrder items) := by
    unfold write
    rw [String.toList_ofList]
    apply MethodName.normalizeChars_of_isUpper
    rfl
  generalize writePredicate groups ++ writeOrder items = tail at hcapital hcut hname
  have hordered : groups = [] →
      (if items.isEmpty then none else some (OrderItem.write items)).isSome = true := by
    intro hnil
    have hitems : ¬ items.isEmpty = true := by simpa [hnil] using hne
    rw [if_neg hitems]
    rfl
  let method := String.ofList ("findBy".toList ++ tail)
  obtain ⟨clauses, hclauses, hforall⟩ :=
    readGroups_writePredicate hgroups hfragments method hordered hread
  obtain ⟨orders, horders, hforders⟩ := readOrder_write method htokens hresolve
  refine ⟨⟨method, .find, none, clauses, orders, none, "findBy"⟩, ?_, hforall, hforders⟩
  rw [read_eq_ok_iff, hname]
  refine ⟨⟨"find", Keyword.by_ ++ tail, [], tail, writePredicate groups, writePredicate groups,
    if items.isEmpty then none else some (OrderItem.write items)⟩, ?_⟩
  constructor
  case verb => rfl
  case subject =>
    -- nothing stands between the verb and the keyword
    apply Keyword.cut?_append (a := []) (by decide) (by decide) _ (.inr hcapital)
    intro front c back _ hfront hsuffix
    exact absurd (List.suffix_nil.mp hsuffix) hfront
  case limit => rfl
  case tail =>
    intro hnil
    change tail = [] at hnil
    rw [hnil] at hcapital
    contradiction
  case order => exact hcut
  case ending => exact hending
  case groups => exact hclauses
  case orderBy => exact horders
  case method => rfl
  case lead => rfl

def personGroups : List (List (List Char)) :=
  [["Brand".toList, "AgeGreaterThan".toList], ["ActiveTrue".toList]]

def personItems : List (List Char × Direction) :=
  [("Lastname".toList, .asc), ("Address_City".toList, .desc)]

theorem read_write_person :
    write personGroups personItems
        = "findByBrandAndAgeGreaterThanOrActiveTrueOrderByLastnameAscAddress_CityDesc"
      ∧
    ∃ t,
      read (write personGroups personItems) person = .ok t
        ∧
      List.Forall₂ (List.Forall₂ fun fragment clause =>
        Clause.read person "" false fragment = .ok clause) personGroups t.groups
        ∧
      List.Forall₂ (fun item clause =>
          clause.item.direction = item.2
            ∧ PropertyPath.resolve person item.1 "" = .ok clause.path)
        personItems t.orderBy := by
  constructor
  · decide +kernel
  · apply read_write
    · decide
    · decide
    · decide
    · decide +kernel
    · have hread : ∀ group ∈ personGroups, ∀ fragment ∈ group,
          (Clause.read person "" false fragment).toOption.isSome = true := by
        decide +kernel
      intro group hgroup fragment hfragment
      exact exists_eq_ok_of_isSome (hread group hgroup fragment hfragment)
    · decide
    · have hresolve : ∀ item ∈ personItems,
          (PropertyPath.resolve person item.1 "").toOption.isSome = true := by
        decide +kernel
      intro item hitem
      exact exists_eq_ok_of_isSome (hresolve item hitem)

end PartTree
end DerivedQuery
