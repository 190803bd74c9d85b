import DerivedQuery.Proofs.Query.Rearrangement

/-!
This module contains which declarations of parameters fit the clauses of a method name. Each
operator takes one of a few runs of kinds, and a declaration fits if it can be cut into such runs,
one for each clause. That a distance goes to the search in front of it never spoils a cut.
-/

namespace DerivedQuery

/-! ### The grammar -/

def Operator.blocks : Operator → List (List ParameterKind)
  | .isNull | .isNotNull | .exists_ | .true_ | .false_ => [[]]
  | .equals | .notEquals => [[.value], [.sequence]]
  | .between => [[.value, .value]]
  | .in_ | .notIn => [[.sequence], [.value]]
  | .near => [[.point], [.point, .distance]]
  | .within => [[.circle], [.box], [.polygon]]
  | .lessThan | .lessThanEqual | .greaterThan | .greaterThanEqual | .before | .after | .like
  | .notLike | .startingWith | .endingWith | .containing | .notContaining | .regex => [[.value]]

def Signature.valueKinds (sig : Signature) : List ParameterKind :=
  sig.params.filter fun kind => !kind.isSpecial

namespace Slots

/--
The kinds can be cut into runs, one for each clause.
-/
def Fit (clauses : List Clause) (kinds : List ParameterKind) : Prop :=
  ∃ blocks : List (List ParameterKind),
    List.Forall₂ (fun clause block => block ∈ clause.operator.blocks) clauses blocks
      ∧
    blocks.flatten = kinds

variable {clause : Clause} {clauses : List Clause} {given left : List Numbered} {slot : List Nat}
  {slots : List (List Nat)} {kinds : List ParameterKind}

theorem fit_cons_iff :
    Fit (clause :: clauses) kinds
      ↔
    ∃ block ∈ clause.operator.blocks, ∃ rest, Fit clauses rest ∧ block ++ rest = kinds := by
  unfold Fit
  simp only [List.forall₂_cons_left_iff]
  constructor
  · rintro ⟨_, ⟨block, blocks, hblock, hblocks, rfl⟩, rfl⟩
    exact ⟨block, hblock, blocks.flatten, ⟨blocks, hblocks, rfl⟩, rfl⟩
  · rintro ⟨block, hblock, _, ⟨blocks, hblocks, rfl⟩, rfl⟩
    exact ⟨block :: blocks, ⟨block, blocks, hblock, hblocks, rfl⟩, rfl⟩

theorem distance_cons_not_mem_blocks (op : Operator) (kinds : List ParameterKind) :
    .distance :: kinds ∉ op.blocks := by
  cases op <;> simp [Operator.blocks]

theorem not_fit_distance_cons (clauses : List Clause) (kinds : List ParameterKind) :
    ¬ Fit clauses (.distance :: kinds) := by
  induction clauses with
  | nil =>
    rintro ⟨blocks, hblocks, hflatten⟩
    cases hblocks
    contradiction
  | cons clause clauses ih =>
    rw [fit_cons_iff]
    rintro ⟨block, hblock, rest, hrest, happend⟩
    cases block with
    | nil =>
      rw [List.nil_append] at happend
      rw [happend] at hrest
      exact ih hrest
    | cons kind block =>
      rw [List.cons_append, List.cons.injEq] at happend
      rw [happend.1] at hblock
      exact distance_cons_not_mem_blocks _ _ hblock

def Wanted.accepted : Wanted → List ParameterKind
  | .value => [.value]
  | .valueOrSequence | .sequence => [.value, .sequence]
  | .point => [.point]
  | .area => [.circle, .box, .polygon]

theorem Wanted.accepts_iff {w : Wanted} {kind : ParameterKind} :
    w.accepts kind = true ↔ kind ∈ w.accepted := by
  cases w <;> cases kind <;> decide

theorem mem_blocks_iff {op : Operator} :
    kinds ∈ op.blocks
      ↔
    List.Forall₂ (fun w kind => w.accepts kind = true) (wanted op) kinds
      ∨
    op.operand = .point ∧ kinds = [.point, .distance] := by
  cases op <;>
    simp [Operator.blocks, wanted, Operator.operand, Wanted.accepts_iff, Wanted.accepted,
      List.forall₂_cons_left_iff] <;>
    grind

theorem operand_of_point_mem_blocks {op : Operator} (h : [.point] ∈ op.blocks) :
    op.operand = .point := by
  cases op <;> simp_all [Operator.blocks, Operator.operand]

/-! ### One clause -/

def Meets (ws : List Wanted) (block : List Numbered) : Prop :=
  List.Forall₂ (fun w p => w.accepts p.2 = true) ws block

theorem exists_block_of_take {ws : List Wanted} {taken : List Nat}
    (h : take clause ws given = .ok (taken, left)) :
    ∃ block, block ++ left = given ∧ block.map Prod.fst = taken ∧ Meets ws block := by
  induction ws generalizing given taken with
  | nil =>
    cases h
    exact ⟨[], rfl, rfl, .nil⟩
  | cons w ws ih =>
    cases given with
    | nil => contradiction
    | cons p given =>
      rw [take] at h
      split at h
      next haccepts =>
        rw [bind_eq_ok_iff] at h
        obtain ⟨⟨taken', left'⟩, htake, heq⟩ := h
        cases heq
        obtain ⟨block, rfl, rfl, hblock⟩ := ih htake
        exact ⟨p :: block, rfl, rfl, .cons haccepts hblock⟩
      next => contradiction

theorem take_append {ws : List Wanted} {block : List Numbered} (h : Meets ws block)
    (left : List Numbered) : take clause ws (block ++ left) = .ok (block.map Prod.fst, left) := by
  induction h with
  | nil => rfl
  | cons haccepts _ ih =>
    rw [List.cons_append, take, if_pos haccepts, ih]
    rfl

def StartsWithDistance (given : List Numbered) : Prop :=
  ∃ i left, given = (i, .distance) :: left

theorem takeDistance_of_not {op : Operator} (h : op.operand = .point → ¬ StartsWithDistance given) :
    takeDistance op given = ([], given) := by
  unfold takeDistance
  split
  next i left =>
    split
    next hpoint => exact absurd ⟨i, left, rfl⟩ (h (beq_iff_eq.mp hpoint))
    next => rfl
  next => rfl

theorem takeDistance_cons {op : Operator} (hpoint : op.operand = .point) (i : Nat) :
    takeDistance op ((i, .distance) :: left) = ([i], left) := by
  rw [takeDistance, if_pos (beq_iff_eq.mpr hpoint)]

theorem Meets.eq_point {op : Operator} {block : List Numbered} (hpoint : op.operand = .point)
    (h : Meets (wanted op) block) : block.map Prod.snd = [.point] := by
  unfold wanted at h
  rw [hpoint] at h
  simp only [Meets, List.forall₂_cons_left_iff, List.forall₂_nil_left_iff] at h
  obtain ⟨p, _, hkind, rfl, rfl⟩ := h
  exact congrArg (fun kind => [kind]) (beq_iff_eq.mp hkind)

theorem map_snd_append_distance {block : List Numbered} (h : block.map Prod.snd = [.point])
    (i : Nat) : (block ++ [(i, ParameterKind.distance)]).map Prod.snd = [.point, .distance] := by
  rw [List.map_append, h]
  rfl

theorem takeClause_of_take {taken more : List Nat} {rest : List Numbered}
    (htake : take clause (wanted clause.operator) given = .ok (taken, rest))
    (hdistance : takeDistance clause.operator rest = (more, left)) :
    takeClause clause given = .ok (taken ++ more, left) := by
  unfold takeClause
  rw [htake]
  change Except.ok (taken ++ (takeDistance clause.operator rest).1,
    (takeDistance clause.operator rest).2) = _
  rw [hdistance]

theorem exists_take_of_takeClause (h : takeClause clause given = .ok (slot, left)) :
    ∃ taken rest more,
      take clause (wanted clause.operator) given = .ok (taken, rest)
        ∧ takeDistance clause.operator rest = (more, left) ∧ taken ++ more = slot := by
  unfold takeClause at h
  rw [bind_eq_ok_iff] at h
  obtain ⟨⟨taken, rest⟩, htake, heq⟩ := h
  cases heq
  exact ⟨taken, rest, _, htake, rfl, rfl⟩

theorem takeClause_eq_ok_iff :
    takeClause clause given = .ok (slot, left)
      ↔
    ∃ block : List Numbered,
      block ++ left = given ∧ block.map Prod.fst = slot
        ∧ block.map Prod.snd ∈ clause.operator.blocks
        ∧ (block.map Prod.snd = [.point] → ¬ StartsWithDistance left) := by
  constructor
  · intro h
    obtain ⟨taken, rest, more, htake, hmore, rfl⟩ := exists_take_of_takeClause h
    obtain ⟨block, rfl, rfl, hblock⟩ := exists_block_of_take htake
    by_cases hdistance : clause.operator.operand = .point ∧ StartsWithDistance rest
    · obtain ⟨hpoint, i, rest, rfl⟩ := hdistance
      rw [takeDistance_cons hpoint] at hmore
      cases hmore
      have hkinds := map_snd_append_distance (hblock.eq_point hpoint) i
      have hmem := mem_blocks_iff.mpr (.inr ⟨hpoint, hkinds⟩)
      refine ⟨block ++ [(i, .distance)], ?_, ?_, hmem, ?_⟩
      · rw [List.append_assoc, List.singleton_append]
      · rw [List.map_append, List.map_singleton]
      · rw [hkinds]
        simp
    · rw [takeDistance_of_not (not_and.mp hdistance)] at hmore
      cases hmore
      have hmem : block.map Prod.snd ∈ clause.operator.blocks :=
        mem_blocks_iff.mpr (.inl (List.forall₂_map_right_iff.mpr hblock))
      refine ⟨block, rfl, (List.append_nil _).symm, hmem, ?_⟩
      intro hkinds hrest
      apply hdistance
      refine ⟨?_, hrest⟩
      rw [hkinds] at hmem
      exact operand_of_point_mem_blocks hmem
  · rintro ⟨block, rfl, rfl, hmem, hdistance⟩
    rcases mem_blocks_iff.mp hmem with hblock | ⟨hpoint, hkinds⟩
    · rw [List.forall₂_map_right_iff] at hblock
      rw [← List.append_nil (block.map Prod.fst)]
      apply takeClause_of_take (take_append hblock left)
      apply takeDistance_of_not
      intro hpoint
      exact hdistance (Meets.eq_point hpoint hblock)
    · obtain ⟨⟨i, _⟩, _, rfl, rfl, hrest⟩ := List.map_eq_cons_iff.mp hkinds
      obtain ⟨⟨j, _⟩, _, rfl, rfl, hnil⟩ := List.map_eq_cons_iff.mp hrest
      rw [List.map_eq_nil_iff] at hnil
      rw [hnil]
      have hblock : Meets (wanted clause.operator) [(i, .point)] := by
        unfold wanted
        rw [hpoint]
        exact .cons rfl .nil
      exact takeClause_of_take (take_append hblock _) (takeDistance_cons hpoint j)

/-! ### All clauses -/

theorem takeAll_cons_eq_ok_iff :
    takeAll (clause :: clauses) given = .ok (slots, left)
      ↔
    ∃ slot rest slots',
      takeClause clause given = .ok (slot, rest) ∧ takeAll clauses rest = .ok (slots', left)
        ∧ slot :: slots' = slots := by
  rw [takeAll, bind_eq_ok_iff]
  simp only [bind_eq_ok_iff]
  constructor
  · rintro ⟨⟨slot, rest⟩, hclause, ⟨slots', left'⟩, hclauses, heq⟩
    cases heq
    exact ⟨slot, rest, slots', hclause, hclauses, rfl⟩
  · rintro ⟨slot, rest, slots', hclause, hclauses, rfl⟩
    exact ⟨(slot, rest), hclause, (slots', left), hclauses, rfl⟩

theorem exists_blocks_of_takeAll (h : takeAll clauses given = .ok (slots, left)) :
    ∃ blocks : List (List Numbered),
      blocks.flatten ++ left = given ∧ blocks.map (List.map Prod.fst) = slots
        ∧
      List.Forall₂ (fun clause block => block.map Prod.snd ∈ clause.operator.blocks) clauses
        blocks := by
  induction clauses generalizing given slots with
  | nil =>
    cases h
    exact ⟨[], rfl, rfl, .nil⟩
  | cons clause clauses ih =>
    obtain ⟨slot, rest, slots', hclause, hclauses, rfl⟩ := takeAll_cons_eq_ok_iff.mp h
    obtain ⟨block, rfl, rfl, hblock, -⟩ := takeClause_eq_ok_iff.mp hclause
    obtain ⟨blocks, rfl, rfl, hblocks⟩ := ih hclauses
    exact ⟨block :: blocks, by simp, rfl, .cons hblock hblocks⟩

/--
A cut is found. A point takes the distance behind it, since nothing else can.
-/
theorem exists_takeAll_of_fit (h : Fit clauses (given.map Prod.snd)) :
    ∃ slots, takeAll clauses given = .ok (slots, []) := by
  induction clauses generalizing given with
  | nil =>
    obtain ⟨blocks, hblocks, hflatten⟩ := h
    cases hblocks
    rw [List.map_eq_nil_iff.mp hflatten.symm]
    exact ⟨[], rfl⟩
  | cons clause clauses ih =>
    obtain ⟨kinds, hkinds, rest, hrest, happend⟩ := fit_cons_iff.mp h
    obtain ⟨block, left, rfl, rfl, rfl⟩ := List.map_eq_append_iff.mp happend.symm
    obtain ⟨slots, hslots⟩ := ih hrest
    have hdistance : ¬ StartsWithDistance left := by
      rintro ⟨i, left, rfl⟩
      exact not_fit_distance_cons clauses _ hrest
    have hclause : takeClause clause (block ++ left) = .ok (block.map Prod.fst, left) :=
      takeClause_eq_ok_iff.mpr ⟨block, rfl, rfl, hkinds, fun _ => hdistance⟩
    exact ⟨_, takeAll_cons_eq_ok_iff.mpr ⟨_, left, slots, hclause, hslots, rfl⟩⟩

/-! ### More parameters -/

theorem exists_takeClause_append (h : takeClause clause given = .ok (slot, left))
    (more : List Numbered) :
    ∃ slot' more', takeClause clause (given ++ more) = .ok (slot', left ++ more') := by
  obtain ⟨block, rfl, rfl, hblock, hdistance⟩ := takeClause_eq_ok_iff.mp h
  by_cases hmore : block.map Prod.snd = [.point] ∧ StartsWithDistance (left ++ more)
  · obtain ⟨hpoint, i, rest, hrest⟩ := hmore
    cases left with
    | cons p left =>
      cases hrest
      exact absurd ⟨i, left, rfl⟩ (hdistance hpoint)
    | nil =>
      cases hrest
      have hkinds := map_snd_append_distance hpoint i
      rw [hpoint] at hblock
      refine ⟨_, rest, takeClause_eq_ok_iff.mpr ⟨block ++ [(i, .distance)], ?_, rfl, ?_, ?_⟩⟩
      · rw [List.append_nil, List.append_assoc]
        rfl
      · exact mem_blocks_iff.mpr (.inr ⟨operand_of_point_mem_blocks hblock, hkinds⟩)
      · rw [hkinds]
        simp
  · have happend : block ++ (left ++ more) = block ++ left ++ more := (List.append_assoc ..).symm
    exact ⟨_, more, takeClause_eq_ok_iff.mpr ⟨block, happend, rfl, hblock, not_and.mp hmore⟩⟩

/--
More parameters do not turn success into failure, and none of those left over before is taken.
-/
theorem exists_takeAll_append (h : takeAll clauses given = .ok (slots, left))
    (more : List Numbered) :
    ∃ slots' more', takeAll clauses (given ++ more) = .ok (slots', left ++ more') := by
  induction clauses generalizing given slots more with
  | nil =>
    cases h
    exact ⟨[], more, rfl⟩
  | cons clause clauses ih =>
    obtain ⟨slot, rest, slots, hclause, hclauses, rfl⟩ := takeAll_cons_eq_ok_iff.mp h
    obtain ⟨slot', more', hclause'⟩ := exists_takeClause_append hclause more
    obtain ⟨slots', more'', hclauses'⟩ := ih hclauses more'
    exact ⟨_, more'', takeAll_cons_eq_ok_iff.mpr ⟨slot', _, slots', hclause', hclauses', rfl⟩⟩

/-! ### Fewer parameters -/

/--
No parameter is of a wrong kind; the only failure is that one is missing.
-/
abbrev OnlyMissing {α : Type} (x : Except Failure α) : Prop :=
  Raises (fun failure => failure = .missing) x

theorem onlyMissing_take {ws : List Wanted} {more : List Numbered} {taken : List Nat}
    (h : take clause ws (given ++ more) = .ok (taken, left)) :
    OnlyMissing (take clause ws given) := by
  induction ws generalizing given taken with
  | nil => exact raises_ok _
  | cons w ws ih =>
    cases given with
    | nil => exact raises_error rfl
    | cons p given =>
      rw [List.cons_append, take] at h
      rw [take]
      split at h
      next haccepts =>
        rw [bind_eq_ok_iff] at h
        obtain ⟨⟨taken', left'⟩, htake, heq⟩ := h
        cases heq
        rw [if_pos haccepts]
        exact (ih htake).bind fun _ => raises_ok _
      next => contradiction

theorem onlyMissing_takeClause {more : List Numbered}
    (h : takeClause clause (given ++ more) = .ok (slot, left)) :
    OnlyMissing (takeClause clause given) := by
  obtain ⟨taken, rest, _, htake, -⟩ := exists_take_of_takeClause h
  exact (onlyMissing_take htake).bind fun _ => raises_ok _

/--
If the clauses can be given their parameters with more parameters behind, then without these none is
of a wrong kind.
-/
theorem onlyMissing_takeAll {more : List Numbered}
    (h : takeAll clauses (given ++ more) = .ok (slots, left)) :
    OnlyMissing (takeAll clauses given) := by
  induction clauses generalizing given slots more with
  | nil => exact raises_ok _
  | cons clause clauses ih =>
    obtain ⟨slot, rest, slots, hclause, hclauses, rfl⟩ := takeAll_cons_eq_ok_iff.mp h
    rw [takeAll]
    cases hbefore : takeClause clause given with
    | error failure => exact raises_error (onlyMissing_takeClause hclause failure hbefore)
    | ok taken =>
      obtain ⟨slot', rest'⟩ := taken
      obtain ⟨slot'', more', hafter⟩ := exists_takeClause_append hbefore more
      rw [hclause] at hafter
      cases hafter
      exact (ih hclauses).bind fun _ => raises_ok _

/-! ### Signatures -/

theorem map_snd_numberedFrom (start : Nat) (kinds : List ParameterKind) :
    (numberedFrom start kinds).map Prod.snd = kinds.filter fun kind => !kind.isSpecial := by
  induction kinds generalizing start with
  | nil => rfl
  | cons kind kinds ih =>
    rw [numberedFrom, List.filter_cons]
    cases kind.isSpecial with
    | true => exact ih (start + 1)
    | false => exact congrArg (kind :: ·) (ih (start + 1))

theorem getElem?_of_mem_numbered {sig : Signature} {p : Numbered} (h : p ∈ numbered sig) :
    sig.params[p.1]? = some p.2 := by
  rw [numbered, numberedFrom_eq, List.mem_filterMap] at h
  obtain ⟨i, -, hp⟩ := h
  rw [Nat.sub_zero, Option.map_eq_some_iff] at hp
  obtain ⟨kind, hkind, rfl⟩ := hp
  exact hkind

theorem length_valueIndices (sig : Signature) :
    sig.valueIndices.length = sig.valueKinds.length := by
  rw [Signature.valueIndices, ← map_fst_numberedFrom, Signature.valueKinds,
    ← map_snd_numberedFrom 0, List.length_map, List.length_map]

/--
Every parameter that can bind is used once, in the order of the declaration, and each clause has the
positions of a run of its operator.
-/
structure Assigns (sig : Signature) (t : PartTree) (slots : List (List Nat)) : Prop where
  runs : List.Forall₂
    (fun clause slot => ∃ block ∈ clause.operator.blocks,
      slot.map (sig.params[·]?) = block.map some)
    t.clauses slots
  ascending : slots.flatten.Pairwise (· < ·)
  used : ∀ i, i ∈ slots.flatten ↔ ∃ kind, sig.params[i]? = some kind ∧ kind.isSpecial = false

variable {sig : Signature} {t : PartTree}

theorem bind_eq_ok_iff_takeAll :
    bind sig t = .ok slots ↔ takeAll t.clauses (numbered sig) = .ok (slots, []) := by
  unfold bind
  split <;> simp_all

theorem exists_bind_iff_fit : (∃ slots, bind sig t = .ok slots) ↔ Fit t.clauses sig.valueKinds := by
  simp only [bind_eq_ok_iff_takeAll]
  rw [Signature.valueKinds, ← map_snd_numberedFrom 0]
  constructor
  · rintro ⟨slots, h⟩
    obtain ⟨blocks, hflatten, -, hblocks⟩ := exists_blocks_of_takeAll h
    rw [List.append_nil] at hflatten
    refine ⟨blocks.map (List.map Prod.snd), List.forall₂_map_right_iff.mpr hblocks, ?_⟩
    rw [← List.map_flatten, hflatten]
    rfl
  · exact exists_takeAll_of_fit

theorem assigns_of_bind (h : bind sig t = .ok slots) : Assigns sig t slots := by
  have hpositions := (bind_eq_ok h).2
  refine ⟨?runs, ?ascending, ?used⟩
  case runs =>
    obtain ⟨blocks, hflatten, rfl, hblocks⟩ :=
      exists_blocks_of_takeAll (bind_eq_ok_iff_takeAll.mp h)
    rw [List.append_nil] at hflatten
    rw [List.forall₂_map_right_iff]
    have hnumbered : ∀ block ∈ blocks, ∀ p ∈ block, sig.params[p.1]? = some p.2 := by
      intro block hblock p hp
      apply getElem?_of_mem_numbered
      rw [← hflatten]
      exact List.mem_flatten_of_mem hblock hp
    refine (forall₂_of_mem ?_ hblocks.flip).flip
    intro block hblock clause hmem
    refine ⟨block.map Prod.snd, hmem, ?_⟩
    rw [List.map_map, List.map_map]
    exact List.map_congr_left (hnumbered block hblock)
  case ascending =>
    rw [hpositions]
    exact Signature.pairwise_valueIndicesFrom 0 sig.params
  case used =>
    intro i
    rw [hpositions]
    exact Signature.mem_valueIndices

theorem bind_eq_error_of_append (hreject : ¬ Fit t.clauses sig.valueKinds)
    {more : List ParameterKind} (h : Fit t.clauses (sig.valueKinds ++ more)) :
    ∃ expected,
      bind sig t = .error (.parameterCount sig.name expected sig.valueKinds.length)
        ∧
      sig.valueKinds.length < expected := by
  -- the positions of the additional parameters do not matter
  obtain ⟨extra, rfl⟩ : ∃ extra : List Numbered, extra.map Prod.snd = more :=
    ⟨more.map fun kind => (0, kind), by simp⟩
  rw [Signature.valueKinds, ← map_snd_numberedFrom 0, ← List.map_append] at h
  obtain ⟨slots, hlonger⟩ := exists_takeAll_of_fit h
  rw [← exists_bind_iff_fit, not_exists] at hreject
  cases htake : takeAll t.clauses (numbered sig) with
  | ok taken =>
    obtain ⟨slots', left⟩ := taken
    obtain ⟨slots'', more', hmore⟩ := exists_takeAll_append htake extra
    rw [numbered] at hmore
    rw [hlonger, Except.ok.injEq, Prod.mk.injEq] at hmore
    rw [(List.append_eq_nil_iff.mp hmore.2.symm).1] at htake
    exact absurd (bind_eq_ok_iff_takeAll.mpr htake) (hreject slots')
  | error failure =>
    cases onlyMissing_takeAll hlonger failure htake
    refine ⟨max (required t.clauses) (sig.valueKinds.length + 1), ?_, by omega⟩
    unfold bind
    rw [htake]
    dsimp only [error]
    rw [length_valueIndices]

theorem bind_eq_error_of_extends (hreject : ¬ Fit t.clauses sig.valueKinds)
    {accepted more : List ParameterKind} (happend : accepted ++ more = sig.valueKinds)
    (h : Fit t.clauses accepted) :
    ∃ expected,
      bind sig t = .error (.parameterCount sig.name expected sig.valueKinds.length)
        ∧
      expected < sig.valueKinds.length := by
  rw [← exists_bind_iff_fit, not_exists] at hreject
  rw [Signature.valueKinds, ← map_snd_numberedFrom 0] at happend
  obtain ⟨given, extra, hnumbered, rfl, rfl⟩ := List.map_eq_append_iff.mp happend.symm
  obtain ⟨slots, hshorter⟩ := exists_takeAll_of_fit h
  obtain ⟨slots', left, htake⟩ := exists_takeAll_append hshorter extra
  rw [List.nil_append, ← hnumbered] at htake
  have hpositive : left.length ≠ 0 := by
    intro hzero
    rw [List.eq_nil_of_length_eq_zero hzero] at htake
    exact hreject slots' (bind_eq_ok_iff_takeAll.mpr htake)
  have hbound : left.length ≤ sig.valueKinds.length := by
    obtain ⟨blocks, hflatten, -, -⟩ := exists_blocks_of_takeAll htake
    rw [Signature.valueKinds, ← map_snd_numberedFrom 0, ← hflatten, List.length_map,
      List.length_append]
    omega
  refine ⟨sig.valueKinds.length - left.length, ?_, by omega⟩
  unfold bind
  rw [numbered, htake, ← length_valueIndices]
  cases left with
  | nil => contradiction
  | cons p left => rfl

/--
A declaration is accepted exactly if the kinds of its parameters can be cut into runs of the
operators. The answer assigns every parameter that can bind. A declaration that can be completed, or
that only goes on for too long, is rejected by the number of its parameters.
-/
theorem bind_decides_fit (sig : Signature) (t : PartTree) :
    ((∃ slots, bind sig t = .ok slots) ↔ Fit t.clauses sig.valueKinds)
      ∧
    (∀ slots, bind sig t = .ok slots → Assigns sig t slots)
      ∧
    (¬ Fit t.clauses sig.valueKinds →
      (∀ more, Fit t.clauses (sig.valueKinds ++ more) →
        ∃ expected,
          bind sig t = .error (.parameterCount sig.name expected sig.valueKinds.length)
            ∧ sig.valueKinds.length < expected)
      ∧
      (∀ accepted more, accepted ++ more = sig.valueKinds → Fit t.clauses accepted →
        ∃ expected,
          bind sig t = .error (.parameterCount sig.name expected sig.valueKinds.length)
            ∧ expected < sig.valueKinds.length)) := by
  refine ⟨exists_bind_iff_fit, fun _ => assigns_of_bind, ?_⟩
  intro hreject
  constructor
  · intro more h
    exact bind_eq_error_of_append hreject h
  · intro accepted more happend h
    exact bind_eq_error_of_extends hreject happend h

def nearTree : PartTree where
  method := "findByLocationNear"
  kind := .find
  limit := none
  groups := [[⟨"LocationNear".toList, ⟨["location"], .geoPoint⟩, .near, false⟩]]
  orderBy := []
  allIgnoreCase := none
  lead := "findBy"

def nearSignature (params : List ParameterKind) : Signature where
  name := "findByLocationNear"
  params := params

theorem bind_decides_fit_near :
    Assigns (nearSignature [.sort, .point, .page, .distance]) nearTree [[1, 3]]
      ∧
    (∃ expected,
      bind (nearSignature [.sort]) nearTree
        = .error (.parameterCount "findByLocationNear" expected 0) ∧ 0 < expected)
      ∧
    ∃ expected,
      bind (nearSignature [.point, .distance, .sort, .value]) nearTree
        = .error (.parameterCount "findByLocationNear" expected 3) ∧ expected < 3 := by
  have hpoint : Fit nearTree.clauses [.point] := ⟨[[.point]], .cons (by decide) .nil, rfl⟩
  have hnone : ¬ Fit nearTree.clauses (nearSignature [.sort]).valueKinds := by
    rw [← exists_bind_iff_fit]
    rintro ⟨slots, h⟩
    cases h
  have hmany : ¬ Fit nearTree.clauses
      (nearSignature [.point, .distance, .sort, .value]).valueKinds := by
    rw [← exists_bind_iff_fit]
    rintro ⟨slots, h⟩
    cases h
  refine ⟨(bind_decides_fit _ nearTree).2.1 [[1, 3]] rfl, ?_, ?_⟩
  · exact ((bind_decides_fit _ nearTree).2.2 hnone).1 [.point] hpoint
  · exact ((bind_decides_fit _ nearTree).2.2 hmany).2 [.point] [.distance, .value] rfl hpoint

end Slots
end DerivedQuery
