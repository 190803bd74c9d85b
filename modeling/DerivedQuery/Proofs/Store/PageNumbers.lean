import DerivedQuery.Proofs.Store.Pages
import Mathlib.Order.Bounds.Basic

/-!
This module contains that the numbers of pages are exact up to the greatest ones: computed in words
of 64 bits, with products and successors that stop at the greatest word, they are those of unbounded
arithmetic.
-/

namespace DerivedQuery

/-! ### Words -/

namespace Word

def greatest : UInt64 :=
  UInt64.ofNat maxCount

def saturatingAdd (a b : UInt64) : UInt64 :=
  if b ≤ greatest - a then a + b else greatest

def saturatingMul (a b : UInt64) : UInt64 :=
  if b = 0 ∨ a ≤ greatest / b then a * b else greatest

def divCeil (a b : UInt64) : UInt64 :=
  if 0 < a % b then a / b + 1 else a / b

theorem toNat_greatest : greatest.toNat = maxCount := by
  decide

theorem lt_size_iff {n : Nat} : n < UInt64.size ↔ n ≤ maxCount := by
  have hmax : maxCount + 1 = UInt64.size := rfl
  omega

theorem toNat_le (a : UInt64) : a.toNat ≤ maxCount :=
  lt_size_iff.mp a.toNat_lt_size

theorem mod_eq_of_le {n : Nat} (h : n ≤ maxCount) : n % UInt64.size = n :=
  Nat.mod_eq_of_lt (lt_size_iff.mpr h)

theorem toNat_saturatingAdd (a b : UInt64) :
    (saturatingAdd a b).toNat = min (a.toNat + b.toNat) maxCount := by
  have ha := toNat_le a
  have hsub : (greatest - a).toNat = maxCount - a.toNat := by
    have hle : a ≤ greatest := by rwa [UInt64.le_iff_toNat_le, toNat_greatest]
    rw [UInt64.toNat_sub_of_le _ _ hle, toNat_greatest]
  unfold saturatingAdd
  split
  next h =>
    rw [UInt64.le_iff_toNat_le, hsub] at h
    rw [UInt64.toNat_add, Nat.min_eq_left (by omega)]
    exact mod_eq_of_le (by omega)
  next h =>
    rw [UInt64.le_iff_toNat_le, hsub] at h
    rw [toNat_greatest, Nat.min_eq_right (by omega)]

/--
A product is a word iff the first factor is at most what the second one leaves of the greatest word.
-/
theorem toNat_saturatingMul (a b : UInt64) :
    (saturatingMul a b).toNat = min (a.toNat * b.toNat) maxCount := by
  have hfits : (b = 0 ∨ a ≤ greatest / b) ↔ a.toNat * b.toNat ≤ maxCount := by
    by_cases hb : b = 0
    · simp [hb]
    · have hpos : 0 < b.toNat := by
        rw [Nat.pos_iff_ne_zero]
        intro hzero
        exact hb (UInt64.toNat_inj.mp hzero)
      rw [UInt64.le_iff_toNat_le, UInt64.toNat_div, toNat_greatest, Nat.le_div_iff_mul_le hpos]
      simp [hb]
  unfold saturatingMul
  split
  next h =>
    rw [hfits] at h
    rw [UInt64.toNat_mul, Nat.min_eq_left h]
    exact mod_eq_of_le h
  next h =>
    rw [hfits] at h
    rw [toNat_greatest, Nat.min_eq_right (by omega)]

theorem add_pred_div {d : Nat} (hd : 0 < d) (n : Nat) :
    (n + (d - 1)) / d = if 0 < n % d then n / d + 1 else n / d := by
  have hn := Nat.div_add_mod' n d
  have hlt := Nat.mod_lt n hd
  split
  next h =>
    apply Nat.div_eq_of_lt_le
    · rw [Nat.succ_mul]
      omega
    · rw [Nat.succ_mul, Nat.succ_mul]
      omega
  next h =>
    apply Nat.div_eq_of_lt_le
    · omega
    · rw [Nat.succ_mul]
      omega

theorem toNat_divCeil (a : UInt64) {b : UInt64} (hb : 0 < b.toNat) :
    (divCeil a b).toNat = (a.toNat + (b.toNat - 1)) / b.toNat := by
  have hrest : 0 < a % b ↔ 0 < a.toNat % b.toNat := by
    rw [UInt64.lt_iff_toNat_lt, UInt64.toNat_mod]
    rfl
  rw [add_pred_div hb, divCeil]
  by_cases h : 0 < a.toNat % b.toNat
  · -- the divisor is greater than one, so that the successor of the quotient is a word
    have hquotient : a.toNat / b.toNat < a.toNat := by
      apply Nat.div_lt_self
      · apply Nat.pos_of_ne_zero
        intro hzero
        rw [hzero, Nat.zero_mod] at h
        contradiction
      · have hlt := Nat.mod_lt a.toNat hb
        omega
    have ha := toNat_le a
    rw [if_pos (hrest.mpr h), if_pos h, UInt64.toNat_add, UInt64.toNat_div, UInt64.toNat_one]
    exact mod_eq_of_le (by omega)
  · rw [if_neg (fun hpos => h (hrest.mp hpos)), if_neg h, UInt64.toNat_div]

theorem toNat_max (a b : UInt64) : (max a b).toNat = max a.toNat b.toNat := by
  change (if a ≤ b then b else a).toNat = _
  split
  next h =>
    rw [UInt64.le_iff_toNat_le] at h
    rw [Nat.max_eq_right h]
  next h =>
    rw [UInt64.le_iff_toNat_le] at h
    rw [Nat.max_eq_left (by omega)]

end Word

/-! ### Numbers of pages in words -/

namespace PageInfo

def ofWords (total page size : UInt64) : PageInfo :=
  ⟨total.toNat, page.toNat, size.toNat⟩

variable {total page size : UInt64}

theorem totalPages_ofWords :
    (ofWords total page size).totalPages = (Word.divCeil total (max size 1)).toNat := by
  have hsize : (max size 1).toNat = max size.toNat 1 := Word.toNat_max size 1
  rw [Word.toNat_divCeil total (by omega), hsize]
  rfl

theorem hasNext_ofWords :
    (ofWords total page size).hasNext
      =
    decide (Word.saturatingAdd page 1 < Word.divCeil total (max size 1)) := by
  rw [hasNext, totalPages_ofWords, decide_eq_decide, UInt64.lt_iff_toNat_lt,
    Word.toNat_saturatingAdd]
  rfl

/--
The numbers of a page, computed in words, are those of unbounded arithmetic.
-/
structure IsExact (p : PageInfo) (total page size : UInt64) : Prop where
  totalPages_eq : p.totalPages = (Word.divCeil total (max size 1)).toNat
  isLeast_totalPages : IsLeast { k | total.toNat ≤ k * size.toNat } p.totalPages
  hasNext_eq : p.hasNext = decide (Word.saturatingAdd page 1 < Word.divCeil total (max size 1))
  hasNext_iff : p.hasNext = true ↔ (page.toNat + 1) * size.toNat < total.toNat

theorem isExact_ofWords (hsize : 1 ≤ size.toNat) :
    (ofWords total page size).IsExact total page size := by
  have hmax : max (ofWords total page size).size 1 = size.toNat := Nat.max_eq_left hsize
  have hpages := totalPages_le_iff (ofWords total page size)
  rw [hmax] at hpages
  constructor
  case totalPages_eq => exact totalPages_ofWords
  case isLeast_totalPages => exact ⟨(hpages _).mp (le_refl _), fun k hk => (hpages k).mpr hk⟩
  case hasNext_eq => exact hasNext_ofWords
  case hasNext_iff =>
    have hnext := PageInfo.hasNext_iff (ofWords total page size) (Word.toNat_le total)
    rwa [hmax] at hnext

end PageInfo

/-! ### Offsets -/

theorem PageRequest.offset_ofWords {p : PageRequest} {page size : UInt64}
    (hpage : p.page = page.toNat) (hsize : p.size = size.toNat) :
    p.offset = (Word.saturatingMul page size).toNat := by
  rw [Word.toNat_saturatingMul, PageRequest.offset, hpage, hsize]

/--
The number of pages, whether one follows and where a page starts are those of unbounded arithmetic,
although each of them is computed in words.
-/
theorem PageInfo.words_eq_unbounded {γ α : Type} {total page size : UInt64}
    (hsize : 1 ≤ size.toNat) :
    (∀ p : Page γ, p.toPageInfo = .ofWords total page size → p.IsExact total page size)
      ∧ (∀ p : GeoPage γ, p.toPageInfo = .ofWords total page size → p.IsExact total page size)
      ∧ ∀ p : PageRequest, p.page = page.toNat → p.size = size.toNat →
          p.offset = (Word.saturatingMul page size).toNat
            ∧ ∀ (l : List α) (limit : Option Nat), l.length < UInt64.size →
                l.drop p.offset = l.drop (page.toNat * size.toNat)
                  ∧ Collection.window (some p.offset) limit l
                    = Collection.window (some (page.toNat * size.toNat)) limit l := by
  refine ⟨?page, ?geoPage, ?offset⟩
  case page =>
    intro p hp
    rw [hp]
    exact PageInfo.isExact_ofWords hsize
  case geoPage =>
    intro p hp
    rw [hp]
    exact PageInfo.isExact_ofWords hsize
  case offset =>
    intro p hp hps
    refine ⟨PageRequest.offset_ofWords hp hps, ?_⟩
    intro l limit hlength
    have hdrop := Execution.drop_offset (Word.lt_size_iff.mp hlength) p
    rw [hp, hps] at hdrop
    exact ⟨hdrop, by simp only [Collection.window, Option.getD_some, hdrop]⟩

/--
For the greatest number of a page with two entries, the product and the successor both stop at the
greatest word.
-/
theorem PageInfo.words_eq_unbounded_greatest :
    (1 ≤ (2 : UInt64).toNat)
      ∧ ({ total := maxCount, page := maxCount, size := 2, content := [] } : Page Nat).IsExact
        Word.greatest Word.greatest 2
      ∧ ({ total := maxCount, page := maxCount, size := 2, results := .ofList [] } :
        GeoPage Nat).IsExact Word.greatest Word.greatest 2
      ∧ [1, 2, 3].drop (PageRequest.offset ⟨maxCount, 2, none, by decide⟩)
        = [1, 2, 3].drop (maxCount * 2) := by
  have h := @PageInfo.words_eq_unbounded Nat Nat Word.greatest Word.greatest 2 (by decide)
  refine ⟨by decide, h.1 _ rfl, h.2.1 _ rfl, ?_⟩
  exact ((h.2.2 ⟨maxCount, 2, none, by decide⟩ rfl rfl).2 [1, 2, 3] none (by decide)).1

end DerivedQuery
