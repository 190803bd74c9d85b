import Mathlib.Data.List.Forall2

/-!
This module contains when a sequence of steps that can fail succeeds, and how it can fail.
-/

namespace DerivedQuery

variable {ε α β : Type}

theorem bind_eq_ok_iff {x : Except ε α} {f : α → Except ε β} {b : β} :
    x >>= f = .ok b ↔ ∃ a, x = .ok a ∧ f a = .ok b := by
  cases x with
  | error e => simp [bind, Except.bind]
  | ok a => simp [bind, Except.bind]

theorem ite_eq_ok_iff {p : Prop} [Decidable p] {e : ε} {a b : α} :
    (if p then .error e else .ok a : Except ε α) = .ok b ↔ ¬ p ∧ a = b := by
  split <;> simp_all

theorem exists_eq_ok_of_isSome {x : Except ε α} (h : x.toOption.isSome = true) :
    ∃ a, x = .ok a := by
  cases x with
  | error e => contradiction
  | ok a => exact ⟨a, rfl⟩

theorem toOption_eq_some_iff {x : Except ε α} {a : α} : x.toOption = some a ↔ x = .ok a := by
  cases x with
  | error e => simp [Except.toOption]
  | ok b => simp [Except.toOption]

theorem mapM_eq_ok_iff {f : α → Except ε β} {as : List α} {bs : List β} :
    as.mapM f = .ok bs ↔ List.Forall₂ (fun a b => f a = .ok b) as bs := by
  induction as generalizing bs with
  | nil =>
    rw [List.mapM_nil, List.forall₂_nil_left_iff]
    constructor
    · intro h
      cases h
      rfl
    · intro h
      rw [h]
      rfl
  | cons a as ih =>
    rw [List.mapM_cons, bind_eq_ok_iff, List.forall₂_cons_left_iff]
    constructor
    · rintro ⟨b, hb, h⟩
      rw [bind_eq_ok_iff] at h
      obtain ⟨bs', hbs, h⟩ := h
      cases h
      exact ⟨b, bs', hb, ih.mp hbs, rfl⟩
    · rintro ⟨b, bs', hb, hbs, rfl⟩
      refine ⟨b, hb, ?_⟩
      rw [bind_eq_ok_iff]
      exact ⟨bs', ih.mpr hbs, rfl⟩

theorem exists_of_mem_mapM {f : α → Except ε β} {as : List α} {bs : List β} {b : β}
    (h : as.mapM f = .ok bs) (hb : b ∈ bs) : ∃ a ∈ as, f a = .ok b := by
  rw [mapM_eq_ok_iff] at h
  induction h with
  | nil => contradiction
  | @cons a _ as _ hhead _ ih =>
    cases hb with
    | head => exact ⟨a, List.mem_cons_self, hhead⟩
    | tail _ hb =>
      obtain ⟨a', ha', hstep⟩ := ih hb
      exact ⟨a', List.mem_cons_of_mem a ha', hstep⟩

theorem mapM_eq_some_iff {f : α → Option β} {as : List α} {bs : List β} :
    as.mapM f = some bs ↔ List.Forall₂ (fun a b => f a = some b) as bs := by
  induction as generalizing bs with
  | nil => simp [List.forall₂_nil_left_iff, eq_comm]
  | cons a as ih =>
    simp only [List.mapM_cons, List.forall₂_cons_left_iff, Option.bind_eq_bind,
      Option.bind_eq_some_iff, ← ih]
    constructor
    · rintro ⟨b, hb, bs', hbs, heq⟩
      cases heq
      exact ⟨b, bs', hb, hbs, rfl⟩
    · rintro ⟨b, bs', hb, hbs, rfl⟩
      exact ⟨b, hb, bs', hbs, rfl⟩

theorem exists_forall₂ {R : α → β → Prop} {as : List α} (h : ∀ a ∈ as, ∃ b, R a b) :
    ∃ bs, List.Forall₂ R as bs := by
  induction as with
  | nil => exact ⟨[], .nil⟩
  | cons a as ih =>
    obtain ⟨b, hb⟩ := h a (by simp)
    obtain ⟨bs, hbs⟩ := ih (fun a' ha' => h a' (by simp [ha']))
    exact ⟨b :: bs, .cons hb hbs⟩

theorem forall₂_of_mem {R S : α → β → Prop} {as : List α} {bs : List β}
    (hstep : ∀ a ∈ as, ∀ b, R a b → S a b) (h : List.Forall₂ R as bs) : List.Forall₂ S as bs := by
  induction h with
  | nil => exact .nil
  | cons hhead _ ih =>
    constructor
    · exact hstep _ (by simp) _ hhead
    · apply ih
      intro a ha
      exact hstep a (by simp [ha])

theorem exists_right_of_mem {R : α → β → Prop} {as : List α} {bs : List β}
    (h : List.Forall₂ R as bs) {a : α} (ha : a ∈ as) : ∃ b ∈ bs, R a b := by
  induction h with
  | nil => contradiction
  | @cons a' b as bs hhead _ ih =>
    cases ha with
    | head => exact ⟨b, by simp, hhead⟩
    | tail _ ha =>
      obtain ⟨b', hb', hstep⟩ := ih ha
      exact ⟨b', by simp [hb'], hstep⟩

theorem exists_left_of_mem {R : α → β → Prop} {as : List α} {bs : List β}
    (h : List.Forall₂ R as bs) {b : β} (hb : b ∈ bs) : ∃ a ∈ as, R a b :=
  exists_right_of_mem h.flip hb

theorem rel_find? {R : α → β → Prop} {as : List α} {bs : List β} {p : α → Bool} {q : β → Bool}
    (hstep : ∀ a b, R a b → p a = q b) (h : List.Forall₂ R as bs) :
    Option.Rel R (as.find? p) (bs.find? q) := by
  induction h with
  | nil => exact .none
  | @cons a b as bs hhead _ ih =>
    rw [List.find?_cons, List.find?_cons, hstep a b hhead]
    cases q b with
    | true => exact .some hhead
    | false => exact ih

theorem map_eq_of_mapM_eq_ok {γ : Type} {f : α → Except ε β} {as : List α} {bs : List β}
    (before : α → γ) (after : β → γ) (hstep : ∀ a b, f a = .ok b → after b = before a)
    (h : as.mapM f = .ok bs) : bs.map after = as.map before := by
  rw [mapM_eq_ok_iff] at h
  induction h with
  | nil => rfl
  | cons hhead _ ih => rw [List.map_cons, List.map_cons, hstep _ _ hhead, ih]

/-! ### Answers without their errors -/

theorem eq_ok_of_toOption_eq {x y : Except ε α} (h : x.toOption = y.toOption) {a : α}
    (hy : y = .ok a) : x = .ok a := by
  rw [← toOption_eq_some_iff] at hy ⊢
  rw [h, hy]

theorem toOption_bind (x : Except ε α) (f : α → Except ε β) :
    (x >>= f).toOption = x.toOption.bind fun a => (f a).toOption := by
  cases x <;> rfl

theorem toOption_mapError {ε' : Type} (f : ε → ε') (x : Except ε α) :
    (x.mapError f).toOption = x.toOption := by
  cases x <;> rfl

theorem toOption_mapM (f : α → Except ε β) (as : List α) :
    (as.mapM f).toOption = as.mapM fun a => (f a).toOption := by
  induction as with
  | nil => rfl
  | cons a as ih =>
    rw [List.mapM_cons, List.mapM_cons, toOption_bind]
    simp only [toOption_bind, ih]
    rfl

/-! ### Failures -/

def Raises (P : ε → Prop) (x : Except ε α) : Prop :=
  ∀ e, x = .error e → P e

variable {P : ε → Prop}

theorem raises_ok (a : α) : Raises P (.ok a : Except ε α) := by
  intro e h
  contradiction

theorem raises_error {e : ε} (h : P e) : Raises P (.error e : Except ε α) := by
  intro e' heq
  cases heq
  exact h

theorem raises_ite {p : Prop} [Decidable p] {e : ε} {a : α} (h : P e) :
    Raises P (if p then .error e else .ok a : Except ε α) := by
  split
  · exact raises_error h
  · exact raises_ok a

theorem Raises.imp {Q : ε → Prop} {x : Except ε α} (h : Raises P x) (himp : ∀ e, P e → Q e) :
    Raises Q x :=
  fun e he => himp e (h e he)

theorem Raises.bind {x : Except ε α} {f : α → Except ε β} (hx : Raises P x)
    (hf : ∀ a, Raises P (f a)) : Raises P (x >>= f) := by
  cases x with
  | error e => exact raises_error (hx e rfl)
  | ok a => exact hf a

theorem raises_mapM {f : α → Except ε β} (hf : ∀ a, Raises P (f a)) (as : List α) :
    Raises P (as.mapM f) := by
  induction as with
  | nil => exact raises_ok []
  | cons a as ih =>
    rw [List.mapM_cons]
    exact (hf a).bind fun b => ih.bind fun bs => raises_ok (b :: bs)

theorem raises_mapError {ε' : Type} {f : ε' → ε} (h : ∀ e, P (f e)) (x : Except ε' α) :
    Raises P (x.mapError f) := by
  cases x with
  | error e => exact raises_error (h e)
  | ok a => exact raises_ok a

/-! ### Steps with a state -/

section

variable {σ : Type} {x : EStateM ε σ α} {f : α → EStateM ε σ β} {s s' : σ}

theorem bind_eq_of_ok {a : α} (h : x s = .ok a s') : (x >>= f) s = f a s' := by
  change EStateM.bind x f s = _
  rw [EStateM.bind, h]

theorem bind_eq_of_error {e : ε} (h : x s = .error e s') : (x >>= f) s = .error e s' := by
  change EStateM.bind x f s = _
  rw [EStateM.bind, h]

theorem bind_congr_run {y : EStateM ε σ α} (h : x s = y s') : (x >>= f) s = (y >>= f) s' := by
  change EStateM.bind x f s = EStateM.bind y f s'
  rw [EStateM.bind, EStateM.bind, h]

theorem run_bind_eq_ok_iff {b : β} :
    (x >>= f) s = .ok b s' ↔ ∃ a between, x s = .ok a between ∧ f a between = .ok b s' := by
  cases hx : x s with
  | ok a between => simp [bind_eq_of_ok hx]
  | error e between => simp [bind_eq_of_error hx]

def StepRaises (P : ε → Prop) (x : EStateM ε σ α) : Prop :=
  ∀ s e s', x s = .error e s' → P e

theorem stepRaises_pure (a : α) : StepRaises P (pure a : EStateM ε σ α) := by
  intro s e s' h
  cases h

theorem stepRaises_throw {e : ε} (h : P e) : StepRaises P (throw e : EStateM ε σ α) := by
  intro s e' s' heq
  cases heq
  exact h

theorem StepRaises.bind (hx : StepRaises P x) (hf : ∀ a, StepRaises P (f a)) :
    StepRaises P (x >>= f) := by
  intro s e s' h
  cases hstep : x s with
  | ok a between =>
    rw [bind_eq_of_ok hstep] at h
    exact hf a between e s' h
  | error e' between =>
    rw [bind_eq_of_error hstep] at h
    cases h
    exact hx s e s' hstep

end

end DerivedQuery
