import DerivedQuery.Method.Clause
import DerivedQuery.Proofs.Method.Keyword

/-!
This module contains what the reader of order items does with a text. The items are the text again,
and items that were written down one after the other are found again.
-/

namespace DerivedQuery
namespace OrderItem

theorem isAt_of_directionAt?_eq_some {s : List Char} {d : Direction}
    (h : directionAt? s = some d) : Keyword.isAt d.name.toList s = true := by
  unfold directionAt? at h
  split at h
  next hat =>
    simp only [Option.some.injEq] at h
    rw [← h]
    exact hat
  next =>
    split at h
    next hat =>
      simp only [Option.some.injEq] at h
      rw [← h]
      exact hat
    next => contradiction

theorem drop_name {c : Char} {cs rest : List Char} {d : Direction}
    (h : c :: cs = d.name.toList ++ rest) : cs.drop (d.name.length - 1) = rest := by
  have hlength : d.name.length - 1 = d.name.toList.tail.length := by
    cases d <;> rfl
  cases hname : d.name.toList with
  | nil => cases d <;> contradiction
  | cons k ks =>
    rw [hname] at h hlength
    rw [List.cons_append, List.cons.injEq] at h
    rw [hlength, h.2]
    simp

theorem readFrom_of_direction {token cs : List Char} {c : Char} {d : Direction} (hne : token ≠ [])
    (h : directionAt? (c :: cs) = some d) :
    readFrom 0 token (c :: cs) = ⟨token.reverse, some d⟩ :: readFrom (d.name.length - 1) [] cs := by
  cases token with
  | nil => contradiction
  | cons => simp [readFrom, h]

theorem readFrom_of_none {token cs : List Char} {c : Char}
    (h : token = [] ∨ directionAt? (c :: cs) = none) :
    readFrom 0 token (c :: cs) = readFrom 0 (c :: token) cs := by
  rcases h with rfl | h
  · simp [readFrom]
  · cases token <;> simp [readFrom, h]

theorem flatMap_source_readFrom (skipped : Nat) (token s : List Char) :
    (readFrom skipped token s).flatMap source = token.reverse ++ s.drop skipped := by
  induction s generalizing skipped token with
  | nil => cases token <;> simp [readFrom, source]
  | cons c cs ih =>
    cases skipped with
    | succ skipped =>
      rw [readFrom, ih, List.drop_succ_cons]
    | zero =>
      by_cases hnone : token = [] ∨ directionAt? (c :: cs) = none
      · rw [readFrom_of_none hnone, ih]
        simp
      · rw [not_or] at hnone
        obtain ⟨d, hd⟩ := Option.ne_none_iff_exists'.mp hnone.2
        have hat := isAt_of_directionAt?_eq_some hd
        rw [Keyword.isAt_eq_true_iff] at hat
        obtain ⟨rest, hs, -⟩ := hat
        rw [readFrom_of_direction hnone.1 hd, List.flatMap_cons, ih, drop_name hs, hs]
        simp [source]

theorem flatMap_source_readAll (s : List Char) : (readAll s).flatMap source = s := by
  unfold readAll
  rw [flatMap_source_readFrom]
  simp

/-! ### Finding what was written down -/

theorem directionAt?_eq_none {s : List Char}
    (h : ∀ d : Direction, Keyword.isAt d.name.toList s = false) :
    directionAt? s = none := by
  unfold directionAt?
  rw [h .desc, h .asc]
  rfl

theorem directionAt?_name_append (d : Direction) {s : List Char}
    (hs : s = [] ∨ Keyword.startsCapital s = true) :
    directionAt? (d.name.toList ++ s) = some d := by
  have hat := Keyword.isAt_append_self d.name.toList hs
  cases d with
  | desc =>
    unfold directionAt?
    rw [hat]
    rfl
  | asc =>
    unfold directionAt?
    rw [hat, if_neg]
    · rfl
    · -- the two names begin with different letters
      simp [Keyword.isAt, Text.dropStart?, Direction.name]

theorem small_name (d : Direction) : ∀ c ∈ d.name.toList.tail, c.isUpper = false := by
  unfold Direction.name
  cases d <;> simp

theorem startsCapital_name (d : Direction) : Keyword.startsCapital d.name.toList = true := by
  cases d <;> decide

theorem readFrom_length_append (front s : List Char) :
    readFrom front.length [] (front ++ s) = readFrom 0 [] s := by
  induction front with
  | nil => rfl
  | cons c front ih =>
    rw [List.cons_append, List.length_cons, readFrom]
    exact ih

theorem readFrom_append (d : Direction) {token a s : List Char} (htoken : token ≠ [])
    (hfree : ∀ d : Direction, Keyword.Free d.name.toList a)
    (hs : s = [] ∨ Keyword.startsCapital s = true) :
    readFrom 0 token (a ++ (d.name.toList ++ s))
      =
    ⟨token.reverse ++ a, some d⟩ :: readFrom 0 [] s := by
  induction a generalizing token with
  | nil =>
    have hdirection := directionAt?_name_append d hs
    cases hname : d.name.toList with
    | nil => cases d <;> contradiction
    | cons k ks =>
      have hlength : d.name.length - 1 = ks.length := by
        rw [← String.length_toList, hname]
        simp
      rw [hname, List.cons_append] at hdirection
      rw [List.nil_append, List.cons_append, readFrom_of_direction htoken hdirection, hlength,
        readFrom_length_append]
      simp
  | cons c a ih =>
    have hnone : directionAt? (c :: (a ++ (d.name.toList ++ s))) = none := by
      apply directionAt?_eq_none
      intro e
      apply Keyword.isAt_append_eq_false (List.cons_ne_nil c a) (hfree e)
      apply Keyword.Apart.of_capital (small_name e)
      exact Keyword.startsCapital_append s (startsCapital_name d)
    rw [List.cons_append, readFrom_of_none (.inr hnone), ih]
    · simp
    · simp
    · intro e
      exact (hfree e).of_suffix (List.suffix_cons c a)

structure IsToken (token : List Char) : Prop where
  capital : Keyword.startsCapital token = true
  free : ∀ d : Direction, Keyword.FreeInside d.name.toList token

instance (token : List Char) : Decidable (IsToken token) :=
  decidable_of_iff
    (Keyword.startsCapital token = true ∧ Keyword.FreeInside Direction.desc.name.toList token
      ∧ Keyword.FreeInside Direction.asc.name.toList token)
    ⟨fun ⟨h1, h2, h3⟩ => ⟨h1, fun d => by cases d <;> assumption⟩,
      fun h => ⟨h.capital, h.free .desc, h.free .asc⟩⟩

def write (items : List (List Char × Direction)) : List Char :=
  items.flatMap fun item => item.1 ++ item.2.name.toList

theorem startsCapital_write {items : List (List Char × Direction)}
    (h : ∀ item ∈ items, IsToken item.1) :
    write items = [] ∨ Keyword.startsCapital (write items) = true := by
  cases items with
  | nil => exact .inl rfl
  | cons item items =>
    right
    unfold write
    rw [List.flatMap_cons, List.append_assoc]
    exact Keyword.startsCapital_append _ (h item (by simp)).capital

theorem readAll_write {items : List (List Char × Direction)} (h : ∀ item ∈ items, IsToken item.1) :
    readAll (write items) = items.map fun item => ⟨item.1, some item.2⟩ := by
  unfold readAll
  induction items with
  | nil => rfl
  | cons item items ih =>
    obtain ⟨token, d⟩ := item
    have hitems : ∀ item ∈ items, IsToken item.1 := by
      intro item hmem
      exact h item (by simp [hmem])
    have htoken := h (token, d) (by simp)
    cases token with
    | nil => exact absurd htoken.capital (by simp [Keyword.startsCapital])
    | cons c token =>
      -- no direction is looked for at the first letter
      have hwrite : write ((c :: token, d) :: items)
          = c :: (token ++ (d.name.toList ++ write items)) := by
        simp [write]
      rw [hwrite, readFrom_of_none (.inl rfl), readFrom_append d (by simp), ih hitems]
      · simp
      · intro e
        exact Keyword.freeInside_cons_iff.mp (htoken.free e)
      · exact startsCapital_write hitems

end OrderItem
end DerivedQuery
