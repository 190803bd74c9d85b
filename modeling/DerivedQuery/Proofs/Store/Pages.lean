import DerivedQuery.Proofs.Query.Paging
import DerivedQuery.Proofs.Store.Failures

/-!
This module contains how the pages of a result lie in it: one after the other, without anything
between them, as far as neither the settings nor the subject of the name cut them.
-/

namespace DerivedQuery

variable {γ : Type}

/-! ### Page numbers -/

namespace PageInfo

theorem totalPages_le_iff (p : PageInfo) (n : Nat) :
    p.totalPages ≤ n ↔ p.total ≤ n * max p.size 1 := by
  unfold totalPages
  have hpos : 0 < max p.size 1 := by omega
  dsimp only
  generalize max p.size 1 = size at hpos ⊢
  rw [Nat.div_le_iff_le_mul_add_pred hpos, Nat.mul_comm size n]
  omega

theorem hasNext_iff (p : PageInfo) (htotal : p.total ≤ maxCount) :
    p.hasNext = true ↔ (p.page + 1) * max p.size 1 < p.total := by
  have hpages : p.totalPages ≤ maxCount := by
    rw [totalPages_le_iff]
    exact htotal.trans (Nat.le_mul_of_pos_right _ (by omega))
  rw [← not_le, ← totalPages_le_iff, hasNext, decide_eq_true_iff]
  omega

/--
The number of entries that a page has in its place, if no more than `cap` are handed back.
-/
def room (p : PageInfo) (cap : Nat) : Nat :=
  min (min p.size cap) (p.total - min p.total (p.page * p.size))

theorem room_of_totalPages_le {p : PageInfo} (h : p.totalPages ≤ p.page) (cap : Nat) :
    p.room cap = 0 := by
  rw [totalPages_le_iff] at h
  unfold room
  by_cases hsize : p.size = 0
  · omega
  · rw [Nat.max_eq_left (by omega)] at h
    omega

theorem room_of_lt_totalPages {p : PageInfo} (h : p.page + 1 < p.totalPages) (cap : Nat) :
    p.room cap = min p.size cap := by
  rw [← not_le, totalPages_le_iff, Nat.succ_mul] at h
  unfold room
  by_cases hsize : p.size = 0
  · omega
  · rw [Nat.max_eq_left (by omega)] at h
    omega

end PageInfo

theorem flatMap_range_window (size k : Nat) (l : List γ) :
    (List.range k).flatMap (fun n => (l.drop (n * size)).take size) = l.take (k * size) := by
  induction k with
  | zero => simp
  | succ k ih =>
    rw [List.range_succ, List.flatMap_append, ih, List.flatMap_singleton, Nat.succ_mul,
      List.take_add]

/--
The pages of a list, one for each number.
-/
structure IsPaging (whole : List γ) (size : Nat) (pages : Nat → Page γ) : Prop where
  content_eq : (List.range (pages 0).totalPages).flatMap (fun n => (pages n).content) = whole
  info_eq : ∀ n, (pages n).toPageInfo = ⟨whole.length, n, size⟩
  past : ∀ n, (pages n).totalPages ≤ n → (pages n).content = []
  hasNext_iff : ∀ n, (pages n).hasNext = true ↔ whole.drop ((n + 1) * size) ≠ []

theorem isPaging {whole : List γ} {size : Nat} (hsize : 0 < size)
    (hlength : whole.length ≤ maxCount) :
    IsPaging whole size fun n =>
      { total := whole.length, page := n, size, content := (whole.drop (n * size)).take size } := by
  have hmax : max size 1 = size := by omega
  constructor
  case content_eq =>
    rw [flatMap_range_window]
    apply List.take_of_length_le
    have hpages := (PageInfo.totalPages_le_iff ⟨whole.length, 0, size⟩ _).mp (le_refl _)
    simpa only [hmax] using hpages
  case info_eq =>
    intro n
    rfl
  case past =>
    intro n hn
    rw [PageInfo.totalPages_le_iff] at hn
    simp only [hmax] at hn
    simp [List.drop_eq_nil_of_le hn]
  case hasNext_iff =>
    intro n
    rw [PageInfo.hasNext_iff _ hlength]
    simp only [hmax, ne_eq, List.drop_eq_nil_iff, not_le]

/-! ### Selections -/

namespace Execution

variable {settings : Settings} {spec : Specification} {p : PageRequest} {c : Collection}

/--
What the query asks the collection for, without its page and its limit.
-/
def everything (settings : Settings) (spec : Specification) : FindOptions :=
  { options settings spec with skip := none, limit := none }

theorem select_options (hpage : spec.page = some p) (c : Collection) :
    c.select spec.filter (options settings spec)
      =
    Collection.window (some p.offset) (some (min settings.maxResultLimit (spec.pageSize p)))
      (c.select spec.filter (everything settings spec)) := by
  unfold Collection.select
  rw [← Collection.projected_window]
  simp [everything, options, Specification.findOptions, hpage, Collection.window]

theorem length_select_everything (settings : Settings) (spec : Specification) (c : Collection) :
    (c.select spec.filter (everything settings spec)).length
      =
    (c.matching spec.filter).length := by
  rw [Collection.select, Collection.length_projected]
  exact Collection.length_ordered ..

theorem length_matching_le (c : Collection) (filter : Filter) :
    (c.matching filter).length ≤ c.documents.length :=
  List.length_filter_le ..

theorem drop_offset {α : Type} {l : List α} (h : l.length ≤ maxCount) (p : PageRequest) :
    l.drop p.offset = l.drop (p.page * p.size) := by
  unfold PageRequest.offset
  by_cases hoffset : p.page * p.size ≤ maxCount
  · rw [Nat.min_eq_left hoffset]
  · rw [Nat.min_eq_right (by omega), List.drop_eq_nil_of_le h, List.drop_eq_nil_of_le (by omega)]

/-! ### Pages of a call -/

variable {read : EntityReader γ} {store store' : Store} {whole : List γ}

theorem run_page (spec : Specification) (p : PageRequest) (hshape : spec.shape = .page)
    (hpage : spec.page = some p) (hlimit : spec.limit = none)
    (hsize : p.size ≤ settings.maxResultLimit) (hfailure : store.collection.failure = none)
    (hlength : store.collection.documents.length ≤ maxCount)
    (hwhole : (store.collection.select spec.filter (everything settings spec)).mapM read
      = some whole) :
    ∃ store',
      run settings read spec store = .ok
          (.page { total := whole.length
                   page := p.page
                   size := p.size
                   content := (whole.drop (p.page * p.size)).take p.size }) store'
        ∧
      store'.collection = store.collection := by
  have htotal : whole.length = (store.collection.matching spec.filter).length := by
    rw [← length_select_everything settings, (mapM_eq_some_iff.mp hwhole).length_eq]
  have hbound : whole.length ≤ maxCount := by
    rw [htotal]
    exact (length_matching_le _ _).trans hlength
  have hpageSize : spec.pageSize p = p.size := by
    rw [Specification.pageSize, hlimit]
  have hcontent : (store.collection.select spec.filter (options settings spec)).mapM read
      = some ((whole.drop (p.page * p.size)).take p.size) := by
    rw [select_options hpage, hpageSize, Nat.min_eq_right hsize, Collection.mapM_window hwhole]
    rw [Collection.window, Option.getD_some, drop_offset hbound]
  obtain ⟨s₁, hcollect, hleaves₁⟩ := (allOrNothing_collect hfailure hcontent).clean
  have hfailure₁ : s₁.collection.failure = none := by
    rw [hleaves₁.collection_eq, hfailure]
  obtain ⟨s₂, hcount, hleaves₂⟩ := (allOrNothing_total spec hfailure₁).clean
  rw [hlimit, hleaves₁.collection_eq, Option.elim_none, ← htotal] at hcount
  have hinfo : pageInfo spec whole.length = ⟨whole.length, p.page, p.size⟩ := by
    simp only [pageInfo, hpage, hpageSize]
  have houtcome : outcome read spec (options settings spec) store = .ok
      (.page { pageInfo spec whole.length with
        content := (whole.drop (p.page * p.size)).take p.size }) s₂ := by
    unfold outcome
    simp only [hshape, run_bind_eq_ok_iff]
    exact ⟨_, s₁, hcollect, whole.length, s₂, hcount, rfl⟩
  rw [hinfo] at houtcome
  obtain ⟨s₃, hrun, hfinal⟩ := run_of_outcome houtcome
  exact ⟨s₃, hrun, hfinal.trans (hleaves₁.trans hleaves₂).collection_eq⟩

/--
Calls that differ in the number of the page only answer the pages, and leave the collection as it
is. Each call sorts anew, and answers as far as sorting does: see `Collection.sortedBy`.
-/
def AnswersPages (settings : Settings) (read : EntityReader γ) (q : CompiledQuery)
    (args : List Argument) (maxInSet : Nat) (c : Collection) (pages : Nat → Page γ) : Prop :=
  ∀ n, ∃ spec,
    q.bind (args.map (Argument.turnTo n)) maxInSet = .ok spec
      ∧
    ∀ store, store.collection = c →
      ∃ store', run settings read spec store = .ok (.page (pages n)) store'
        ∧ store'.collection = c

/--
The pages of a call are those of everything that it selects, in an order that has to be lawful for
sorting to answer.
-/
theorem exists_isPaging {sig : Signature} {s : EntitySchema} {q : CompiledQuery}
    {args : List Argument} {maxInSet : Nat} (hcompile : CompiledQuery.compile sig s = .ok q)
    (hshape : q.shape = .page) (hbind : q.bind args maxInSet = .ok spec)
    (hlimit : spec.limit = none)
    (hsize : ∀ p, spec.page = some p → p.size ≤ settings.maxResultLimit)
    (hfailure : c.failure = none) (hlength : c.documents.length ≤ maxCount)
    (hwhole : (c.select spec.filter (everything settings spec)).mapM read = some whole) :
    whole.length = (c.matching spec.filter).length
      ∧
    ∃ p pages,
      spec.page = some p
        ∧
      IsPaging whole p.size pages
        ∧
      AnswersPages settings read q args maxInSet c pages := by
  have htotal : whole.length = (c.matching spec.filter).length := by
    rw [← length_select_everything settings, (mapM_eq_some_iff.mp hwhole).length_eq]
  have hpaged : q.shape.isPaged = true := by
    rw [hshape]
    rfl
  obtain ⟨p, hpage⟩ := CompiledQuery.exists_page_of_bind hcompile hpaged hbind
  have hspec : spec.shape = .page := (CompiledQuery.shape_of_bind hbind).trans hshape
  refine ⟨htotal, p, _, hpage, isPaging p.size_pos ?_, ?_⟩
  · rw [htotal]
    exact (length_matching_le c spec.filter).trans hlength
  · intro n
    refine ⟨{ spec with page := some (p.turnTo n) }, ?_, ?_⟩
    · rw [CompiledQuery.bind_turnTo n hcompile hbind, hpage, Option.map_some]
    · rintro store rfl
      exact run_page { spec with page := some (p.turnTo n) } (p.turnTo n) hspec rfl hlimit
        (hsize p hpage) hfailure hlength hwhole

def badgeSchema : EntitySchema :=
  ⟨"Badge", [⟨"mark", .scalar .any⟩]⟩

def badgePages : Signature where
  entity := "Badge"
  name := "findByMarkIsNotNullOrderByMarkDesc"
  params := [.page]
  returns := some .page

def badges : Collection where
  name := "badges"
  documents := [[("mark", .string "a")], [], [("mark", .string "c")], [("mark", .string "b")]]

def badgeMark : EntityReader String := fun d =>
  (d.get? "mark").bind Value.string?

def badgeArguments (page size : Nat) (h : 0 < size) : List Argument :=
  [.page ⟨page, size, none, h⟩]

theorem exists_isPaging_badge :
    ∃ q spec,
      CompiledQuery.compile badgePages badgeSchema = .ok q
        ∧
      q.bind (badgeArguments 0 2 (by decide)) 1000 = .ok spec
        ∧
      (badges.select spec.filter (everything {} spec)).mapM badgeMark = some ["c", "b", "a"]
        ∧
      ∃ p pages,
        spec.page = some p
          ∧
        IsPaging ["c", "b", "a"] p.size pages
          ∧
        AnswersPages {} badgeMark q (badgeArguments 0 2 (by decide)) 1000 badges pages := by
  have hbinds : CompiledQuery.binds badgePages badgeSchema (badgeArguments 0 2 (by decide)) 1000
      (fun spec => spec.shape = .page ∧ spec.limit = none
        ∧ (∀ p ∈ spec.page, p.size ≤ ({} : Settings).maxResultLimit)
        ∧ (badges.select spec.filter (everything {} spec)).mapM badgeMark = some ["c", "b", "a"])
        = true := by
    decide +kernel
  obtain ⟨q, spec, hcompile, hbind, hspec⟩ := CompiledQuery.exists_of_binds hbinds
  obtain ⟨hshape, hlimit, hsize, hwhole⟩ := of_decide_eq_true hspec
  have hq : q.shape = .page := (CompiledQuery.shape_of_bind hbind).symm.trans hshape
  refine ⟨q, spec, hcompile, hbind, hwhole, ?_⟩
  exact (exists_isPaging hcompile hq hbind hlimit hsize rfl (by decide) hwhole).2

/-! ### One page -/

theorem length_window_select (hpage : spec.page = some p)
    (hlength : c.documents.length ≤ maxCount) :
    (c.select spec.filter (options settings spec)).length
      =
    min (min settings.maxResultLimit (spec.pageSize p))
      ((c.matching spec.filter).length - p.page * p.size) := by
  have hwhole := length_select_everything settings spec c
  have hbound : (c.select spec.filter (everything settings spec)).length ≤ maxCount := by
    rw [hwhole]
    exact (length_matching_le c spec.filter).trans hlength
  rw [select_options hpage, Collection.window, Option.getD_some, drop_offset hbound,
    List.length_take, List.length_drop, hwhole]

/--
No match behind those that the subject of the name allows lies on the page.
-/
def StaysWithinSubject (settings : Settings) (spec : Specification) (p : PageRequest)
    (matchCount : Nat) : Prop :=
  ∀ limit, spec.limit = some limit → ∀ i, limit ≤ i → i < matchCount →
    p.page * p.size ≤ i → p.page * p.size + min settings.maxResultLimit (spec.pageSize p) ≤ i

theorem size_of_staysWithinSubject {matchCount : Nat}
    (h : StaysWithinSubject settings spec p matchCount) :
    min (min settings.maxResultLimit (spec.pageSize p)) (matchCount - p.page * p.size)
      =
    PageInfo.room ⟨spec.limit.elim matchCount (min matchCount), p.page, spec.pageSize p⟩
      settings.maxResultLimit := by
  unfold PageInfo.room
  cases hlimit : spec.limit with
  | none =>
    simp only [Specification.pageSize, hlimit, Option.elim_none]
    omega
  | some limit =>
    have hbeyond := h limit hlimit (max limit (p.page * p.size)) (Nat.le_max_left ..)
    simp only [Specification.pageSize, hlimit, Option.elim_some] at hbeyond ⊢
    by_cases hsize : p.size ≤ limit
    · have hmin : min limit p.size = p.size := Nat.min_eq_right hsize
      rw [hmin] at hbeyond ⊢
      omega
    · -- the pages after the first start behind the limit
      have hmin : min limit p.size = limit := Nat.min_eq_left (by omega)
      rw [hmin] at hbeyond ⊢
      by_cases hpage : p.page = 0
      · simp only [hpage, Nat.zero_mul]
        omega
      · have hrequested : p.size ≤ p.page * p.size := Nat.le_mul_of_pos_left _ (by omega)
        have hallowed : limit ≤ p.page * limit := Nat.le_mul_of_pos_left _ (by omega)
        omega

/--
The size of a page fits its place among the pages, as long as the subject of the name does not cut
it. The settings cut every page.
-/
theorem size_of_run {sig : Signature} {s : EntitySchema} {q : CompiledQuery}
    {args : List Argument} {maxInSet : Nat} {result : Outcome γ}
    (hcompile : CompiledQuery.compile sig s = .ok q) (hpaged : q.shape.isPaged = true)
    (hbind : q.bind args maxInSet = .ok spec)
    (hlength : store.collection.documents.length ≤ maxCount)
    (hsubject : ∀ p, spec.page = some p →
      StaysWithinSubject settings spec p (store.collection.matching spec.filter).length)
    (hrun : run settings read spec store = .ok result store') :
    ∃ info,
      result.pageInfo? = some info
        ∧
      result.size = min (min info.size settings.maxResultLimit)
        (info.total - min info.total (info.page * info.size))
        ∧
      (info.totalPages ≤ info.page → result.size = 0)
        ∧
      (info.page + 1 < info.totalPages → result.size = min info.size settings.maxResultLimit) := by
  obtain ⟨p, hpage⟩ := CompiledQuery.exists_page_of_bind hcompile hpaged hbind
  obtain ⟨s₁, houtcome, -⟩ := run_eq_ok hrun
  rw [← CompiledQuery.shape_of_bind hbind] at hpaged
  obtain ⟨hinfo, hsize⟩ := paged_eq_ok hpaged houtcome
  rw [length_window_select hpage hlength,
    size_of_staysWithinSubject (hsubject p hpage)] at hsize
  simp only [pageInfo, hpage] at hinfo
  refine ⟨_, hinfo, hsize, ?_, ?_⟩
  · intro hpast
    rw [hsize, PageInfo.room_of_totalPages_le hpast]
  · intro hbefore
    rw [hsize, PageInfo.room_of_lt_totalPages hbefore]

def returnsPage (settings : Settings) (c : Collection) (info : PageInfo) (size : Nat)
    (spec : Specification) : Bool :=
  match run settings some spec { collection := c } with
  | .ok result _ => spec.shape.isPaged && result.pageInfo? == some info && result.size == size
  | .error .. => false

theorem exists_of_returnsPage {info : PageInfo} {size : Nat}
    (h : returnsPage settings c info size spec = true) :
    ∃ result store',
      run settings some spec { collection := c } = .ok result store'
        ∧ spec.shape.isPaged = true ∧ result.pageInfo? = some info ∧ result.size = size := by
  unfold returnsPage at h
  split at h
  next result store' hrun =>
    simp only [Bool.and_eq_true, beq_iff_eq] at h
    exact ⟨result, store', hrun, h.1.1, h.1.2, h.2⟩
  next => contradiction

def badgeTopPages : Signature :=
  { badgePages with name := "findTop2ByMarkIsNotNull" }

theorem size_of_run_badge :
    ∃ q spec p,
      CompiledQuery.compile badgeTopPages badgeSchema = .ok q
        ∧
      q.bind (badgeArguments 1 1 (by decide)) 1000 = .ok spec
        ∧
      spec.page = some p
        ∧
      StaysWithinSubject {} spec p (badges.matching spec.filter).length
        ∧
      ∃ result store' info,
        run {} some spec { collection := badges } = .ok result store'
          ∧
        result.pageInfo? = some info
          ∧
        result.size = min (min info.size ({} : Settings).maxResultLimit)
          (info.total - min info.total (info.page * info.size)) := by
  have hbinds : CompiledQuery.binds badgeTopPages badgeSchema (badgeArguments 1 1 (by decide)) 1000
      (fun spec => decide (spec.limit = some 2 ∧ spec.page = some ⟨1, 1, none, by decide⟩)
        && returnsPage {} badges ⟨2, 1, 1⟩ 1 spec)
        = true := by
    decide +kernel
  obtain ⟨q, spec, hcompile, hbind, hspec⟩ := CompiledQuery.exists_of_binds hbinds
  rw [Bool.and_eq_true, decide_eq_true_iff] at hspec
  obtain ⟨⟨hlimit, hpage⟩, hreturns⟩ := hspec
  obtain ⟨result, store', hrun, hpaged, -, -⟩ := exists_of_returnsPage hreturns
  rw [CompiledQuery.shape_of_bind hbind] at hpaged
  have hsubject : StaysWithinSubject {} spec ⟨1, 1, none, by decide⟩
      (badges.matching spec.filter).length := by
    intro limit heq i hi _ _
    rw [hlimit, Option.some.injEq] at heq
    simp only [Specification.pageSize, hlimit]
    omega
  refine ⟨q, spec, _, hcompile, hbind, hpage, hsubject, result, store', ?_⟩
  obtain ⟨info, hinfo, hsize, -, -⟩ := size_of_run hcompile hpaged hbind
    (by decide : badges.documents.length ≤ maxCount)
    (fun p hp => by
      rw [hpage, Option.some.injEq] at hp
      exact hp ▸ hsubject) hrun
  exact ⟨info, hrun, hinfo, hsize⟩

/--
The calls answer a page that does not have as many entries as its place says: one that the settings
cut, though others follow it, and one behind what the subject of the name allows.
-/
theorem size_of_run_badge_ne :
    ({ maxResultLimit := 1 } : Settings).validate = .ok { maxResultLimit := 1 }
      ∧
    (∃ q spec result store' info,
      CompiledQuery.compile badgePages badgeSchema = .ok q
        ∧
      q.bind (badgeArguments 0 2 (by decide)) 1000 = .ok spec
        ∧
      run { maxResultLimit := 1 } some spec { collection := badges } = .ok result store'
        ∧
      result.pageInfo? = some info
        ∧
      result.size ≠ min info.size (info.total - min info.total (info.page * info.size)))
      ∧
    ({} : Settings).validate = .ok {}
      ∧
    ∃ q spec result store' info,
      CompiledQuery.compile badgeTopPages badgeSchema = .ok q
        ∧
      q.bind (badgeArguments 2 1 (by decide)) 1000 = .ok spec
        ∧
      run {} some spec { collection := badges } = .ok result store'
        ∧
      result.pageInfo? = some info
        ∧
      result.size ≠ min info.size (info.total - min info.total (info.page * info.size)) := by
  have hcut : CompiledQuery.binds badgePages badgeSchema (badgeArguments 0 2 (by decide)) 1000
      (returnsPage { maxResultLimit := 1 } badges ⟨3, 0, 2⟩ 1) = true := by
    decide +kernel
  have hbehind : CompiledQuery.binds badgeTopPages badgeSchema (badgeArguments 2 1 (by decide)) 1000
      (returnsPage {} badges ⟨2, 2, 1⟩ 1) = true := by
    decide +kernel
  refine ⟨rfl, ?_, rfl, ?_⟩
  · obtain ⟨q, spec, hcompile, hbind, hreturns⟩ := CompiledQuery.exists_of_binds hcut
    obtain ⟨result, store', hrun, -, hinfo, hsize⟩ := exists_of_returnsPage hreturns
    refine ⟨q, spec, result, store', _, hcompile, hbind, hrun, hinfo, ?_⟩
    rw [hsize]
    decide
  · obtain ⟨q, spec, hcompile, hbind, hreturns⟩ := CompiledQuery.exists_of_binds hbehind
    obtain ⟨result, store', hrun, -, hinfo, hsize⟩ := exists_of_returnsPage hreturns
    refine ⟨q, spec, result, store', _, hcompile, hbind, hrun, hinfo, ?_⟩
    rw [hsize]
    decide

end Execution

end DerivedQuery
