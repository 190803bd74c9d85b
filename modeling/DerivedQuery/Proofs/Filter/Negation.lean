import DerivedQuery.Proofs.Filter.Reading

/-!
This module contains that `$nor` negates `$or`: the same lists of query documents can be read below
both, and on every document one of the two filters holds and the other one does not, unless the list
is empty.
-/

namespace DerivedQuery
namespace Filter

/-! ### Disjunctions -/

theorem eval_disjoin (d : Document) {fs : List Filter} (h : fs ≠ []) :
    eval d (disjoin fs) = evalAny d fs := by
  unfold disjoin
  split
  next => contradiction
  next f => rw [evalAny, evalAny, Bool.or_false]
  next => rw [eval]

/-! ### Branches -/

theorem toOption_ofBranchList (key other : String) (branches : List Value) :
    (ofBranchList key branches).toOption = (ofBranchList other branches).toOption := by
  induction branches with
  | nil => rfl
  | cons branch branches ih =>
    cases branch with
    | document q =>
      rw [ofBranchList, ofBranchList]
      simp only [toOption_bind, ih]
    | _ => rfl

theorem length_ofBranchList {key : String} {branches : List Value} {fs : List Filter}
    (h : ofBranchList key branches = .ok fs) : fs.length = branches.length := by
  induction branches generalizing fs with
  | nil =>
    cases h
    rfl
  | cons branch branches ih =>
    cases branch with
    | document q =>
      rw [ofBranchList] at h
      simp only [bind_eq_ok_iff] at h
      obtain ⟨_, _, rest, hrest, heq⟩ := h
      cases heq
      rw [List.length_cons, List.length_cons, ih hrest]
    | _ => contradiction

theorem ofDocument_or_eq_ok_iff {branches : List Value} {f : Filter} :
    ofDocument [("$or", .array branches)] = .ok f
      ↔
    ∃ fs, ofBranchList "$or" branches = .ok fs ∧ f = .or fs := by
  rw [ofDocument_entry, ofEntry_or, bind_eq_ok_iff]
  simp only [Except.ok.injEq, eq_comm]

theorem ofDocument_nor_eq_ok_iff {branches : List Value} {f : Filter} :
    ofDocument [("$nor", .array branches)] = .ok f
      ↔
    ∃ fs, ofBranchList "$or" branches = .ok fs ∧ f = .not (disjoin fs) := by
  have hbranches (fs : List Filter) :
      ofBranchList "$nor" branches = .ok fs ↔ ofBranchList "$or" branches = .ok fs := by
    rw [← toOption_eq_some_iff, ← toOption_eq_some_iff, toOption_ofBranchList "$nor" "$or"]
  rw [ofDocument_entry, ofEntry_nor, bind_eq_ok_iff]
  simp only [hbranches, Except.ok.injEq, eq_comm]

/-! ### Negation -/

/--
`$nor` and `$or` read the same lists. If there is a query document in the list, a document meets the
filter of `$nor` exactly if it does not meet the filter of `$or`.
-/
theorem eval_nor_eq_not_eval_or (branches : List Value) :
    ((∃ g, ofDocument [("$nor", .array branches)] = .ok g)
        ↔
      ∃ f, ofDocument [("$or", .array branches)] = .ok f)
      ∧
    ∀ f g, ofDocument [("$or", .array branches)] = .ok f →
      ofDocument [("$nor", .array branches)] = .ok g →
      branches ≠ [] → ∀ d, eval d g = !eval d f := by
  simp only [ofDocument_or_eq_ok_iff, ofDocument_nor_eq_ok_iff]
  constructor
  · constructor
    · rintro ⟨_, fs, hfs, -⟩
      exact ⟨_, fs, hfs, rfl⟩
    · rintro ⟨_, fs, hfs, -⟩
      exact ⟨_, fs, hfs, rfl⟩
  · rintro _ _ ⟨fs, hfs, rfl⟩ ⟨gs, hgs, rfl⟩ hbranches d
    -- Both are read from one list, which is the place where `disjoin` and `or` part if it is empty.
    have heq : fs = gs := Except.ok.inj (hfs.symm.trans hgs)
    have hne : fs ≠ [] := by
      rw [← List.length_pos_iff, length_ofBranchList hfs, List.length_pos_iff]
      exact hbranches
    rw [← heq, eval, eval, eval_disjoin d hne]

def adultBranches : List Value :=
  [.document [("age", .document [("$gt", .int32 17)]), ("name", .string "Dave")],
    .document [("$nor", .array [.document [("name", .document [("$exists", .bool true)])]])]]

theorem eval_nor_eq_not_eval_or_adults :
    adultBranches ≠ []
      ∧
    ∃ f g, ofDocument [("$or", .array adultBranches)] = .ok f
      ∧ ofDocument [("$nor", .array adultBranches)] = .ok g
      ∧ ∀ d, eval d g = !eval d f := by
  have hne : adultBranches ≠ [] := by simp [adultBranches]
  obtain ⟨f, hf⟩ : ∃ f, ofDocument [("$or", .array adultBranches)] = .ok f := ⟨_, rfl⟩
  obtain ⟨g, hg⟩ := (eval_nor_eq_not_eval_or adultBranches).1.mpr ⟨f, hf⟩
  exact ⟨hne, f, g, hf, hg, (eval_nor_eq_not_eval_or adultBranches).2 f g hf hg hne⟩

/--
Of an empty list, no document meets the filter of `$or`, and none meets that of `$nor` either.
-/
theorem eval_nor_empty_ne_not_eval_or_empty :
    ∃ f g, ofDocument [("$or", .array [])] = .ok f ∧ ofDocument [("$nor", .array [])] = .ok g
      ∧ ∀ d, eval d g ≠ !eval d f := by
  refine ⟨.or [], .not .all, rfl, rfl, ?_⟩
  intro d
  rw [eval, eval, eval, evalAny]
  decide

end Filter
end DerivedQuery
