import DerivedQuery.Proofs.Json.Nesting
import DerivedQuery.Proofs.Json.Quotes
import DerivedQuery.Proofs.Query.Rendering
import DerivedQuery.Proofs.Query.Substitution
import DerivedQuery.Proofs.Value.Rereading

/-!
This module contains when a method whose name asks for equality, and one whose query text does, find
the same documents.
-/

namespace DerivedQuery

/-! ### Values in query texts -/

namespace Value

/--
JSON says enough of the value to search for it. As a number it is found in any width.
-/
def KeptAsOperand (v : Value) : Prop :=
  v.Kept ∨ ∃ i, v = .int64 i

end Value

namespace Filter

theorem equalsAt_congr {v w : Value} (hequal : ∀ x : Value, x.equal v = x.equal w)
    (hnull : v.isNull = w.isNull) (d : Document) (path : String) :
    equalsAt d path v = equalsAt d path w := by
  unfold equalsAt
  rw [hnull]
  simp only [hequal]

theorem ofDocument_singleton {path : String} {v : Value} (hpath : isOperatorName path = false)
    (hv : v.statesOperators = false) : ofDocument [(path, v)] = .ok (.compare path .eq v) := by
  have hfield : ofField path v = .ok (.compare path .eq v) := by
    cases v with
    | document d =>
      rw [ofField, if_neg]
      rw [Value.statesOperators, Value.document?, Option.any_some] at hv
      rw [hv]
      simp
    | _ => rfl
  rw [ofDocument_entry, ofEntry_of_plain v hpath, hfield]

end Filter

namespace ExtendedJson

theorem exists_reread_narrow {i : Int64} (h : Value.IsNarrow i.toInt) :
    ∃ w, ofJson? (toJson (.int64 i)) = some w
      ∧ (∀ x : Value, x.equal (.int64 i) = x.equal w) ∧ w.isNull = false
      ∧ w.statesOperators = false := by
  refine ⟨.int32 (Int32.ofInt i.toInt), ?_, ?_, rfl, rfl⟩
  · have hhigh := i.toInt_lt
    rw [toJson, ofJson?, if_pos, Value.ofInt, if_pos]
    · exact h
    · norm_num
      omega
  · intro x
    have hvalue : (Int32.ofInt i.toInt).toInt = i.toInt := Int32.toInt_ofInt_of_le h.1 h.2
    have hnumber : (Value.int32 (Int32.ofInt i.toInt)).number? = (Value.int64 i).number? := by
      rw [Value.number?, Value.number?, hvalue]
    unfold Value.equal
    rw [hnumber]
    cases x <;> rfl

theorem exists_reread_operand {v : Value} (hvalid : v.Valid) (hkept : v.KeptAsOperand) :
    (toJson v).IsStable
      ∧
    ∃ w, ofJson? (toJson v) = some w
      ∧ (∀ x : Value, x.equal v = x.equal w) ∧ v.isNull = w.isNull
      ∧ v.statesOperators = w.statesOperators := by
  by_cases hall : v.Kept
  · obtain ⟨hstable, w, hw, halike⟩ := exists_reread hvalid hall
    exact ⟨hstable, w, hw, halike.equal, halike.isNull, halike.operators⟩
  · obtain ⟨i, rfl⟩ := hkept.resolve_left hall
    have hnarrow : Value.IsNarrow i.toInt := by
      by_contra hwide
      exact hall hwide
    obtain ⟨w, hw, hequal, hnull, hoperators⟩ := exists_reread_narrow hnarrow
    exact ⟨isStable_int64 i, w, hw, hequal, hnull.symm, hoperators.symm⟩

end ExtendedJson

/-! ### Query texts that compare one property -/

def IsNameChar (c : Char) : Prop :=
  c.isAlphanum = true ∨ c = '_' ∨ c = '.'

instance (c : Char) : Decidable (IsNameChar c) :=
  inferInstanceAs (Decidable (c.isAlphanum = true ∨ c = '_' ∨ c = '.'))

theorem IsNameChar.ne {c mark : Char} (h : IsNameChar c) (hmark : ¬ IsNameChar mark) :
    c ≠ mark := by
  rintro rfl
  exact hmark h

theorem IsNameChar.le_toNat {c : Char} (h : IsNameChar c) : 32 ≤ c.toNat := by
  by_contra hlt
  have hcontrol : ∀ n : Nat, n < 32 → ¬ IsNameChar (Char.ofNat n) := by decide
  rw [← Char.ofNat_toNat c] at h
  exact hcontrol c.toNat (by omega) h

theorem isOutside_of_isNameChar {cs : List Char} (h : ∀ c ∈ cs, IsNameChar c) : IsOutside cs := by
  intro c hc
  have hname := h c hc
  exact ⟨hname.ne (by decide), hname.ne (by decide), hname.ne (by decide)⟩

theorem TemplatePart.scan_append {cs : List Char} (h : ∀ c ∈ cs, IsNameChar c)
    (rest : List Char) : scan 0 (cs ++ rest) = JsonTree.plain cs ++ scan 0 rest := by
  induction cs with
  | nil => rfl
  | cons c cs ih =>
    have hc := h c List.mem_cons_self
    rw [List.cons_append, scan, if_neg, ih fun d hd => h d (List.mem_cons_of_mem c hd)]
    · rfl
    · exact fun hplace => hc.ne (by decide) hplace.1

namespace Template

def equalityText (name : String) : String :=
  "\x7b '" ++ name ++ "': ?0 \x7d"

theorem parts_normalize_equalityText {name : String} (h : ∀ c ∈ name.toList, IsNameChar c) :
    parts (Quotes.normalize (equalityText name)) = equalityParts name := by
  have hnormal : (Quotes.normalize (equalityText name)).toList
      = ['\x7b', ' ', '"'] ++ (name.toList ++ ['"', ':', ' ', '?', '0', ' ', '\x7d']) := by
    rw [Quotes.normalize, String.toList_ofList, equalityText, String.toList_append,
      String.toList_append, List.append_assoc, Quotes.normalizeChars]
    have hopen : "\x7b '".toList = ['\x7b', ' ', '\x27'] := rfl
    rw [hopen]
    change '\x7b' :: ' ' :: '"' :: Quotes.go false false (name.toList ++ _) = _
    rw [Quotes.go_outside (isOutside_of_isNameChar h)]
    rfl
  rw [parts, hnormal]
  change .char '\x7b' :: .char ' ' :: .char '"' :: TemplatePart.scan 0 (name.toList ++ _) = _
  rw [TemplatePart.scan_append h]
  have hplace : TemplatePart.scan 0 ['"', ':', ' ', '?', '0', ' ', '\x7d']
      = JsonTree.plain ['"', ':', ' '] ++ .place ['0'] :: JsonTree.plain [' ', '\x7d'] := by
    decide
  rw [hplace]
  simp [equalityParts, JsonTree.plain]

theorem render_equalityText {t : Template} {method name : String} {v : Value} {filter : Filter}
    (hname : ∀ c ∈ name.toList, IsNameChar c)
    (hquery : t.query = Quotes.normalize (equalityText name))
    (hstable : (ExtendedJson.toJson v).IsStable) {args : List Argument}
    (hargs : args = [] ∨ args = [.value v]) (h : t.render method args = .ok filter) :
    Filter.documentOfJson (.object [(name, ExtendedJson.toJson v)]) >>= Filter.ofDocument
      = .ok filter := by
  have hparts : parts t.query = equalityParts name := by
    rw [hquery, parts_normalize_equalityText hname]
  have hindices : indices t.query = [0] := by
    have hplain : ∀ cs : List Char, (JsonTree.plain cs).filterMap TemplatePart.index? = [] := by
      intro cs
      rw [JsonTree.plain, List.filterMap_map, List.filterMap_eq_nil_iff]
      intro c _
      rfl
    rw [indices, hparts, equalityParts, List.filterMap_append, List.filterMap_cons, hplain, hplain]
    rfl
  unfold render at h
  rw [hindices] at h
  rcases hargs with rfl | rfl
  · contradiction
  have hnone : ([0].filterMap (fault? [.value v])).getLast? = none := rfl
  rw [hnone] at h
  dsimp only at h
  rw [mapError_eq_ok_iff] at h
  obtain ⟨d, hd, -⟩ := bind_eq_ok_iff.mp h
  obtain ⟨j, hj⟩ := Filter.exists_parse_of_documentOfText hd
  rw [Filter.ofText_of_parse hj, mapError_eq_ok_iff] at h
  rw [Json.parse_eq_ok_iff, toList_fill, hparts] at hj
  have hreads : JsonTree.Reads (argumentTree [.value v]) (argumentChars [.value v]) := by
    apply reads_argumentTree
    intro arg harg j hj
    rw [List.mem_singleton.mp harg] at hj
    rw [← Option.some.inj hj]
    exact hstable.numbersRead
  have htree : (equalityTree name).IsSyntaxOf (equalityParts name) :=
    isSyntaxOf_equalityParts fun c hc =>
      ⟨(hname c hc).ne (by decide), (hname c hc).ne (by decide), (hname c hc).le_toNat⟩
  have hjson := JsonTree.eq_toJson_of_document hreads htree hj
  have hfill : ((equalityTree name).fill (argumentTree [.value v])).toJson
      = .object [(name, ExtendedJson.toJson v)] := by
    have hargument : argumentTree [.value v] ['0'] = JsonTree.ofJson (ExtendedJson.toJson v) := rfl
    simp only [equalityTree, JsonTree.fill, JsonTree.fillFields, hargument, JsonTree.toJson,
      JsonTree.toJsonFields, hstable.toJson_ofJson]
    rfl
  rw [← h, hjson, hfill]

end Template

/-! ### Names that compare one property -/

/--
The name has one clause, which asks for equality with a property, case included.
-/
def PartTree.IsEquality (t : PartTree) (path : String) : Prop :=
  ∃ clause ∈ t.clauses, t.groups = [[clause]] ∧ clause.path.dotted = path
    ∧ clause.operator = .equals ∧ clause.ignoreCase = false

instance (t : PartTree) (path : String) : Decidable (t.IsEquality path) :=
  inferInstanceAs (Decidable (∃ clause ∈ t.clauses, t.groups = [[clause]]
    ∧ clause.path.dotted = path ∧ clause.operator = .equals ∧ clause.ignoreCase = false))

theorem Signature.valueIndices_of_length {sig : Signature} (h : sig.params.length = 1) :
    sig.valueIndices = [] ∨ sig.valueIndices = [0] := by
  obtain ⟨kind, hkind⟩ := List.length_eq_one_iff.mp h
  rw [valueIndices, hkind, valueIndicesFrom]
  split
  · exact .inl rfl
  · exact .inr rfl

namespace CompiledQuery

theorem valueIndices_of_bind {q : CompiledQuery} {arg : Argument} {maxInSet : Nat}
    {spec : Specification} (h : q.bind [arg] maxInSet = .ok spec) :
    q.signature.valueIndices = [] ∨ q.signature.valueIndices = [0] := by
  obtain ⟨hcheck, -⟩ := bind_eq_ok h
  apply Signature.valueIndices_of_length
  unfold checkArguments at hcheck
  dsimp only at hcheck
  split at hcheck
  next => contradiction
  next hlength => exact (not_not.mp hlength).symm

variable {sig sig' : Signature} {s : EntitySchema} {q q' : CompiledQuery} {t : PartTree}
  {slots : List (List Nat)} {name : String} {v : Value} {maxInSet : Nat}
  {spec spec' : Specification}

theorem filter_of_isEquality (hcompile : compile sig s = .ok q)
    (hsource : q.source = .derived t slots) (hequality : t.IsEquality name)
    (hbind : q.bind [.value v] maxInSet = .ok spec) : spec.filter = .compare name .eq v := by
  obtain ⟨clause, -, hgroups, hpath, hoperator, hcase⟩ := hequality
  obtain ⟨hread, hslots⟩ := derived_of_compile_eq_ok hcompile hsource
  obtain ⟨hbuild, hfilter⟩ := bind_derived_eq_ok hsource hbind
  obtain ⟨placed, hclauses, hgiven, hpredicate, -⟩ := Predicate.build_eq_ok hbuild
  have hplaced := isPlaced_of_bind hslots hclauses hgiven
  rw [hgroups] at hclauses
  obtain ⟨slot, rfl⟩ : ∃ slot, placed = [[(clause, slot)]] := by
    obtain ⟨group, hgroup, hmap⟩ := List.map_eq_singleton_iff.mp hclauses
    obtain ⟨c, hc, hfst⟩ := List.map_eq_singleton_iff.mp hmap
    exact ⟨c.2, by rw [hgroup, hc, ← hfst]⟩
  have hslot : slot = [0] := by
    have harity := hplaced.arity (clause, slot) (by simp)
    rw [hoperator] at harity
    have hpositions : slot = sig.valueIndices := by
      rw [← hplaced.positions, ← hplaced.slotsInOrder]
      simp
    have hindices := valueIndices_of_bind hbind
    rw [(compile_eq_ok hcompile).1, ← hpositions] at hindices
    rcases hindices with rfl | h
    · exact absurd harity.1 (Nat.not_succ_le_zero 0)
    · exact h
  have hcriterion : spec.filter = (Criterion.ofClause clause slot [.value v]).toFilter := by
    rw [hfilter, hpredicate]
    rfl
  rw [hcriterion, hslot, Criterion.toFilter, Criterion.toFilterWith]
  dsimp only [Criterion.ofClause]
  rw [hoperator, hcase, hpath]
  dsimp only
  split
  next heq => cases heq
  next => rfl

theorem filter_of_equalityText (hcompile : compile sig s = .ok q)
    (hquery : sig.query = some (Template.equalityText name))
    (hname : ∀ c ∈ name.toList, IsNameChar c) (hstable : (ExtendedJson.toJson v).IsStable)
    (hbind : q.bind [.value v] maxInSet = .ok spec) :
    Filter.documentOfJson (.object [(name, ExtendedJson.toJson v)]) >>= Filter.ofDocument
      = .ok spec.filter := by
  obtain ⟨-, -, hfrom⟩ := compile_eq_ok hcompile
  cases hfrom with
  | derived t slots hnone =>
    rw [hquery] at hnone
    contradiction
  | explicit text template hsome htemplate hsource =>
    rw [hquery, Option.some.injEq] at hsome
    rw [← hsome] at htemplate
    have hrender := bind_explicit_eq_ok hsource hbind
    apply Template.render_equalityText hname (Template.compile_eq_ok htemplate).1 hstable _ hrender
    rw [valueArguments]
    rcases valueIndices_of_bind hbind with h | h
    · rw [h]
      exact .inl rfl
    · rw [h]
      exact .inr rfl

/--
A method whose name asks for equality with a property, and one whose query text does, find the same
documents, if the value is no document of operators and JSON keeps it.
-/
theorem eval_filter_eq (hname : ∀ c ∈ name.toList, IsNameChar c)
    (hcompile : compile sig s = .ok q) (hsource : q.source = .derived t slots)
    (hequality : t.IsEquality name) (hbind : q.bind [.value v] maxInSet = .ok spec)
    (hcompile' : compile sig' s = .ok q')
    (hquery : sig'.query = some (Template.equalityText name))
    (hbind' : q'.bind [.value v] maxInSet = .ok spec') (hvalid : v.Valid)
    (hkept : v.KeptAsOperand) (hplain : v.statesOperators = false) :
    ∀ d, spec.filter.eval d = spec'.filter.eval d := by
  intro d
  obtain ⟨hstable, w, hw, hequal, hnull, hoperators⟩ :=
    ExtendedJson.exists_reread_operand hvalid hkept
  have hread := filter_of_equalityText hcompile' hquery hname hstable hbind'
  have hdocument : Filter.documentOfJson (.object [(name, ExtendedJson.toJson v)])
      = .ok [(name, w)] := by
    rw [Filter.documentOfJson, ExtendedJson.ofFields?, hw]
    rfl
  have hpath : isOperatorName name = false := by
    unfold isOperatorName
    cases hchars : name.toList with
    | nil => rfl
    | cons c cs =>
      have hc := hname c (hchars ▸ List.mem_cons_self)
      exact beq_eq_false_iff_ne.mpr fun heq => hc.ne (by decide) (Option.some.inj heq)
  rw [hdocument] at hread
  have hfilter : spec'.filter = .compare name .eq w := by
    rw [hoperators] at hplain
    have hw := Filter.ofDocument_singleton hpath hplain
    exact Except.ok.inj (hread.symm.trans hw)
  rw [filter_of_isEquality hcompile hsource hequality hbind, hfilter, Filter.eval, Filter.eval]
  exact Filter.equalsAt_congr hequal hnull d name

def noteTextSignature : Signature where
  entity := "Memo"
  name := "findNote"
  params := [.value]
  query := some (Template.equalityText "note")

theorem isEquality_note (hcompile : compile noteSignature noteSchema = .ok q)
    (hsource : q.source = .derived t slots) : t.IsEquality "note" := by
  have hequality : (PartTree.read noteSignature.name noteSchema).toOption.all
      (fun t => decide (t.IsEquality "note")) = true := by
    decide +kernel
  rw [(derived_of_compile_eq_ok hcompile hsource).1] at hequality
  exact of_decide_eq_true hequality

/--
A document with a date, a wide number, a fraction, and a text that looks like a place.
-/
def mixedNote : Value :=
  .document
    [("when", .date 1330560000000),
      ("parts", .array [.int64 1099511627776, .double 1.5, .string "\", ?0"])]

theorem valid_mixedNote : mixedNote.Valid := by
  simp [mixedNote, Value.Valid, Value.ValidFields, Value.ValidItems, Document.Distinct,
    Document.keys]

theorem kept_mixedNote : mixedNote.Kept := by
  have hdouble : (Value.double 1.5).Kept := by
    have hnan : (1.5 : Float).isNaN = false := by decide +kernel
    have hinf : (1.5 : Float).isInf = false := by decide +kernel
    have hjson : ExtendedJson.toJson (.double 1.5) = .float 1.5 := by
      rw [ExtendedJson.toJson, hnan, hinf]
      rfl
    have htext : Float64.jsonText 1.5 = "1.5" := by decide +kernel
    rw [Value.Kept, hjson, Json.IsStable, htext]
    exact ⟨rfl, rfl⟩
  have hwide : (Value.int64 1099511627776).Kept := by
    rw [Value.Kept, Value.IsNarrow]
    decide
  have hparts : (Value.array [.int64 1099511627776, .double 1.5, .string "\", ?0"]).Kept :=
    ⟨hwide, hdouble, trivial, trivial⟩
  exact ⟨by decide, trivial, hparts, trivial⟩

theorem eval_filter_eq_mixedNote :
    ∃ q t slots spec q' spec',
      compile noteSignature noteSchema = .ok q
        ∧
      q.source = .derived t slots
        ∧
      t.IsEquality "note"
        ∧
      q.bind [.value mixedNote] 1000 = .ok spec
        ∧
      compile noteTextSignature noteSchema = .ok q'
        ∧
      q'.bind [.value mixedNote] 1000 = .ok spec'
        ∧
      ∀ d, spec.filter.eval d = spec'.filter.eval d := by
  have hbinds : binds noteSignature noteSchema [.value mixedNote] 1000 (fun _ => true) = true := by
    decide +kernel
  have hbinds' : binds noteTextSignature noteSchema [.value mixedNote] 1000 (fun _ => true)
      = true := by
    decide +kernel
  obtain ⟨q, spec, hcompile, hbind, -⟩ := exists_of_binds hbinds
  obtain ⟨q', spec', hcompile', hbind', -⟩ := exists_of_binds hbinds'
  obtain ⟨t, slots, hsource⟩ := exists_derived_of_compile_eq_ok hcompile rfl
  have ht := isEquality_note hcompile hsource
  exact ⟨q, t, slots, spec, q', spec', hcompile, hsource, ht, hbind, hcompile', hbind',
    eval_filter_eq (by simp [IsNameChar]) hcompile hsource ht hbind hcompile' rfl hbind'
      valid_mixedNote (.inl kept_mixedNote) (by decide)⟩

def narrowNote : Value :=
  .document [("a", .int64 5)]

/--
The memo that holds the document is found by the name of the method. The query text asks for a
number of 32 bits in the document, so it is not found by the text.
-/
theorem eval_filter_ne_narrowNote :
    ∃ q t slots spec q' spec',
      compile noteSignature noteSchema = .ok q
        ∧
      q.source = .derived t slots
        ∧
      t.IsEquality "note"
        ∧
      q.bind [.value narrowNote] 1000 = .ok spec
        ∧
      compile noteTextSignature noteSchema = .ok q'
        ∧
      q'.bind [.value narrowNote] 1000 = .ok spec'
        ∧
      spec.filter.eval [("note", narrowNote)] = true
        ∧
      spec'.filter.eval [("note", narrowNote)] = false := by
  have hbinds : binds noteSignature noteSchema [.value narrowNote] 1000
      (fun spec => spec.filter.eval [("note", narrowNote)]) = true := by
    decide +kernel
  have hbinds' : binds noteTextSignature noteSchema [.value narrowNote] 1000
      (fun spec => !spec.filter.eval [("note", narrowNote)]) = true := by
    decide +kernel
  obtain ⟨q, spec, hcompile, hbind, hfound⟩ := exists_of_binds hbinds
  obtain ⟨q', spec', hcompile', hbind', hmissed⟩ := exists_of_binds hbinds'
  obtain ⟨t, slots, hsource⟩ := exists_derived_of_compile_eq_ok hcompile rfl
  have ht := isEquality_note hcompile hsource
  rw [Bool.not_eq_true'] at hmissed
  exact ⟨q, t, slots, spec, q', spec', hcompile, hsource, ht, hbind, hcompile', hbind', hfound,
    hmissed⟩

end CompiledQuery
end DerivedQuery
