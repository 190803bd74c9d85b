import DerivedQuery.Method.PartTree
import DerivedQuery.Proofs.Method.Clause
import DerivedQuery.Proofs.Method.Name
import DerivedQuery.Proofs.Method.OrderItem

/-!
This module contains what it takes to read a part tree from a method name, and that nothing of the
name is lost: the lead and the source of the tree are the name, and the same tree is read from them.
-/

namespace DerivedQuery
namespace PartTree

structure Pieces where
  verb : String
  rest : List Char
  subject : List Char
  tail : List Char
  predicate : List Char
  body : List Char
  order : Option (List Char)

structure ReadFrom (s : EntitySchema) (name : List Char) (t : PartTree) (p : Pieces) : Prop where
  verb : readVerb name = .ok (p.verb, t.kind, p.rest)
  subject : Keyword.cut? Keyword.by_ p.rest = some (p.subject, p.tail)
  limit : readSubject (String.ofList name) t.kind p.subject = .ok t.limit
  tail : p.tail ≠ []
  order : cutOrder p.tail = (p.predicate, p.order)
  ending : Keyword.dropEnding allIgnoreCaseEndings p.predicate = (p.body, t.allIgnoreCase)
  groups :
    readGroups s (String.ofList name) p.order.isSome p.body t.allIgnoreCase = .ok t.groups
  orderBy : readOrder s (String.ofList name) p.order = .ok t.orderBy
  method : t.method = String.ofList name
  lead : t.lead = p.verb ++ String.ofList p.subject ++ "By"

theorem read_eq_ok_iff {method : String} {s : EntitySchema} {t : PartTree} :
    read method s = .ok t ↔ ∃ p, ReadFrom s (MethodName.normalizeChars method.toList) t p := by
  unfold read
  generalize MethodName.normalizeChars method.toList = name
  rw [bind_eq_ok_iff]
  constructor
  · rintro ⟨⟨verb, kind, rest⟩, hverb, h⟩
    dsimp only at h
    split at h
    next => contradiction
    next subject tail hsubject =>
      rw [bind_eq_ok_iff] at h
      obtain ⟨limit, hlimit, h⟩ := h
      split at h
      next => contradiction
      next htail =>
        rw [bind_eq_ok_iff] at h
        obtain ⟨groups, hgroups, h⟩ := h
        rw [bind_eq_ok_iff] at h
        obtain ⟨orderBy, horder, h⟩ := h
        cases h
        exact ⟨⟨verb, rest, subject, tail, _, _, _⟩, {
          verb := hverb
          subject := hsubject
          limit := hlimit
          tail := by simpa using htail
          order := rfl
          ending := rfl
          groups := hgroups
          orderBy := horder
          method := rfl
          lead := rfl }⟩
  · rintro ⟨p, h⟩
    refine ⟨_, h.verb, ?_⟩
    dsimp only
    rw [h.subject]
    dsimp only
    rw [bind_eq_ok_iff]
    refine ⟨_, h.limit, ?_⟩
    have htail : ¬ p.tail.isEmpty = true := by simpa using h.tail
    rw [if_neg htail, h.order]
    dsimp only
    rw [h.ending, bind_eq_ok_iff]
    refine ⟨_, h.groups, ?_⟩
    rw [bind_eq_ok_iff]
    refine ⟨_, h.orderBy, ?_⟩
    rw [← h.method, ← h.lead]
    rfl

/-! ### Verb and limit -/

theorem afterVerb?_eq_some_iff {verb : String} {name rest : List Char} :
    afterVerb? verb name = some rest
      ↔
    name = verb.toList ++ rest ∧ Keyword.startsCapital rest = true := by
  unfold afterVerb?
  rw [← Text.dropStart?_eq_some_iff]
  cases Text.dropStart? verb.toList name with
  | none => simp
  | some after =>
    simp only [Option.ite_none_right_eq_some, Option.some.injEq]
    constructor
    · rintro ⟨hcapital, rfl⟩
      exact ⟨rfl, hcapital⟩
    · rintro ⟨rfl, hcapital⟩
      exact ⟨hcapital, rfl⟩

theorem verbs_apart : ∀ verb ∈ verbs, ∀ other ∈ verbs,
    verb.1.toList.isPrefixOf other.1.toList = true → verb = other := by
  decide

theorem verb_unique {verb other : String × QueryKind} (hverb : verb ∈ verbs)
    (hother : other ∈ verbs) {rest rest' : List Char}
    (h : verb.1.toList ++ rest = other.1.toList ++ rest') : verb = other := by
  have hprefix : verb.1.toList <+: other.1.toList ++ rest' := ⟨rest, h⟩
  rcases List.prefix_or_prefix_of_prefix hprefix (List.prefix_append _ _) with hle | hle
  · exact verbs_apart verb hverb other hother (List.isPrefixOf_iff_prefix.mpr hle)
  · exact (verbs_apart other hother verb hverb (List.isPrefixOf_iff_prefix.mpr hle)).symm

theorem afterVerb?_of_readVerb_eq_ok {name : List Char} {verb : String} {kind : QueryKind}
    {rest : List Char} (h : readVerb name = .ok (verb, kind, rest)) :
    (verb, kind) ∈ verbs ∧ afterVerb? verb name = some rest := by
  unfold readVerb at h
  split at h
  next => contradiction
  next =>
    split at h
    next result hverb =>
      cases h
      obtain ⟨⟨v, k⟩, hmem, hv⟩ := List.exists_of_findSome?_eq_some hverb
      rw [Option.map_eq_some_iff] at hv
      obtain ⟨after, hafter, heq⟩ := hv
      cases heq
      exact ⟨hmem, hafter⟩
    next => contradiction

theorem eq_of_readVerb_eq_ok {name : List Char} {verb : String} {kind : QueryKind}
    {rest : List Char} (h : readVerb name = .ok (verb, kind, rest)) :
    name = verb.toList ++ rest :=
  (afterVerb?_eq_some_iff.mp (afterVerb?_of_readVerb_eq_ok h).2).1

theorem pos_of_readSubject_eq_ok {name : String} {kind : QueryKind} {subject : List Char}
    {limit : Option Nat} (h : readSubject name kind subject = .ok limit) : ∀ n ∈ limit, 0 < n := by
  unfold readSubject at h
  split at h
  next => contradiction
  next =>
    split at h
    next =>
      cases h
      simp
    next keyword rest _ =>
      dsimp only at h
      generalize (if (rest.takeWhile Char.isDigit).isEmpty then 1
        else Text.natOfDigits (rest.takeWhile Char.isDigit)) = n at h
      split_ifs at h with _ hzero
      cases h
      rintro _ ⟨⟩
      exact Nat.pos_of_ne_zero hzero

theorem limit_pos_of_read {method : String} {s : EntitySchema} {t : PartTree}
    (h : read method s = .ok t) : ∀ n ∈ t.limit, 0 < n := by
  obtain ⟨_, hfrom⟩ := read_eq_ok_iff.mp h
  exact pos_of_readSubject_eq_ok hfrom.limit

/-! ### Clauses and order -/

theorem source_eq_of_readFragment_eq_ok {s : EntitySchema} {method : String} {all : Bool}
    {fragment : List Char} {clause : Clause}
    (h : readFragment s method all fragment = .ok clause) : clause.source = fragment := by
  unfold readFragment at h
  split at h
  next => contradiction
  next =>
    rw [Clause.read_eq_ok_iff] at h
    exact h.2.2.1

theorem source_eq_of_readGroup_eq_ok {s : EntitySchema} {method : String} {all : Bool}
    {text : List Char} {group : List Clause} (h : readGroup s method all text = .ok group) :
    List.intercalate Keyword.and_ (group.map Clause.source) = text := by
  have hsources := map_eq_of_mapM_eq_ok id Clause.source
    (fun _ _ hread => source_eq_of_readFragment_eq_ok hread) h
  rw [hsources, List.map_id, Keyword.intercalate_split (by decide)]

theorem source_eq_of_readGroups_eq_ok {s : EntitySchema} {method : String} {ordered : Bool}
    {predicate : List Char} {ending : Option String} {groups : List (List Clause)}
    (h : readGroups s method ordered predicate ending = .ok groups) :
    List.intercalate Keyword.or_
        (groups.map fun group => List.intercalate Keyword.and_ (group.map Clause.source))
      =
    predicate := by
  unfold readGroups at h
  split at h
  next hempty =>
    cases h
    simp_all
  next =>
    have hsources := map_eq_of_mapM_eq_ok id
      (fun group => List.intercalate Keyword.and_ (group.map Clause.source))
      (fun _ _ hread => source_eq_of_readGroup_eq_ok hread) h
    rw [hsources, List.map_id, Keyword.intercalate_split (by decide)]

theorem source_eq_of_readOrder_eq_ok {s : EntitySchema} {method : String}
    {order : Option (List Char)} {clauses : List OrderClause}
    (h : readOrder s method order = .ok clauses) :
    (if clauses.isEmpty then []
      else Keyword.orderBy ++ clauses.flatMap fun clause => clause.item.source)
      =
    order.elim [] (Keyword.orderBy ++ ·) := by
  cases order with
  | none =>
    cases h
    rfl
  | some text =>
    rw [readOrder] at h
    split at h
    next => contradiction
    next hne =>
      have hitems := map_eq_of_mapM_eq_ok id OrderClause.item
        (fun _ _ hread => (OrderClause.read_eq_ok_iff.mp hread).1) h
      have htext : clauses.flatMap (fun clause => clause.item.source) = text := by
        rw [← List.flatMap_map, hitems, List.map_id, OrderItem.flatMap_source_readAll]
      rw [htext, if_neg]
      · rfl
      · -- a text without items is empty
        intro hnil
        rw [List.isEmpty_iff] at hnil
        rw [hnil] at htext
        simp [← htext] at hne

theorem eq_of_cutOrder_eq {tail predicate : List Char} {order : Option (List Char)}
    (h : cutOrder tail = (predicate, order)) :
    tail = predicate ++ order.elim [] (Keyword.orderBy ++ ·) := by
  unfold cutOrder at h
  split at h
  next hcut =>
    cases h
    exact Keyword.eq_of_cut?_eq_some hcut
  next =>
    cases h
    simp

theorem exists_read_of_mem_clauses {method : String} {s : EntitySchema} {t : PartTree}
    (h : read method s = .ok t) {clause : Clause} (hclause : clause ∈ t.clauses) :
    ∃ name all fragment, Clause.read s name all fragment = .ok clause := by
  rw [read_eq_ok_iff] at h
  obtain ⟨p, hread⟩ := h
  obtain ⟨group, hgroup, hclause⟩ := List.mem_flatten.mp hclause
  have hgroups := hread.groups
  unfold readGroups at hgroups
  split at hgroups
  next =>
    rw [Except.ok.injEq] at hgroups
    rw [← hgroups] at hgroup
    contradiction
  next =>
    obtain ⟨text, -, hgroup⟩ := exists_of_mem_mapM hgroups hgroup
    obtain ⟨fragment, -, hfragment⟩ := exists_of_mem_mapM hgroup hclause
    unfold readFragment at hfragment
    split at hfragment
    next => contradiction
    next => exact ⟨_, _, fragment, hfragment⟩

/-! ### The name from the tree -/

theorem ReadFrom.sourceChars {s : EntitySchema} {name : List Char} {t : PartTree} {p : Pieces}
    (h : ReadFrom s name t p) : t.sourceChars = p.tail := by
  unfold PartTree.sourceChars
  rw [source_eq_of_readGroups_eq_ok h.groups, source_eq_of_readOrder_eq_ok h.orderBy,
    eq_of_cutOrder_eq h.order, Keyword.eq_of_dropEnding_eq h.ending]
  cases t.allIgnoreCase <;> rfl

theorem ReadFrom.lead_append_source {s : EntitySchema} {name : List Char} {t : PartTree}
    {p : Pieces} (h : ReadFrom s name t p) : t.lead ++ t.source = String.ofList name := by
  rw [← String.toList_inj, String.toList_ofList, String.toList_append, source, h.sourceChars,
    h.lead, eq_of_readVerb_eq_ok h.verb, Keyword.eq_of_cut?_eq_some h.subject]
  simp [Keyword.by_]

/--
The lead and the source are the name in its one form, and the same tree is read from them.
-/
theorem read_lead_append_source {method : String} {s : EntitySchema} {t : PartTree}
    (h : read method s = .ok t) :
    t.lead ++ t.source = MethodName.normalize method
      ∧
    t.method = MethodName.normalize method
      ∧
    read (t.lead ++ t.source) s = .ok t := by
  rw [read_eq_ok_iff] at h
  obtain ⟨p, h⟩ := h
  refine ⟨h.lead_append_source, h.method, ?_⟩
  rw [h.lead_append_source, read_eq_ok_iff, String.toList_ofList,
    MethodName.normalizeChars_normalizeChars]
  exact ⟨p, h⟩

def person : EntitySchema :=
  ⟨"Person", [
    ⟨"lastname", .scalar .string⟩,
    ⟨"age", .scalar .number⟩,
    ⟨"active", .scalar .boolean⟩,
    ⟨"brand", .scalar .string⟩,
    ⟨"address", .embedded ⟨"Address", [⟨"zipCode", .scalar .string⟩, ⟨"city", .scalar .string⟩]⟩⟩]⟩

def personMethod : String :=
  "findTop2ByBrandAndAgeGreaterThanOrActiveTrueAllIgnoreCaseOrderByAddress_CityDescAge"

theorem read_lead_append_source_person :
    ∃ t,
      read personMethod person = .ok t
        ∧
      t.lead ++ t.source = MethodName.normalize personMethod
        ∧
      t.method = MethodName.normalize personMethod
        ∧
      read (t.lead ++ t.source) person = .ok t := by
  have hread : (read personMethod person).toOption.isSome = true := by
    decide +kernel
  obtain ⟨t, h⟩ := exists_eq_ok_of_isSome hread
  exact ⟨t, h, read_lead_append_source h⟩

end PartTree
end DerivedQuery
