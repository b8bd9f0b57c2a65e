/-
# The tax on dropped world locks

The count of a drop dialog is rounded to a multiple of ten, a percentage of the rounded
count is the tax, and the tax is subtracted from the count itself. A count that was
rounded up can owe more than there is.
-/

import SrmotionProxy.Events.Dialogs

namespace SrmotionProxy.Events.In

open SrmotionProxy.Lib SrmotionProxy.Proton SrmotionProxy.Handler

/-! ## Arithmetic -/

/-- The multiple of ten nearest to a count, with ties rounded up. -/
def IsNearestTen (rounded count : Int) : Prop :=
  rounded % 10 = 0 ∧ -5 < rounded - count ∧ rounded - count ≤ 5

/-- The nearest multiple is unique. -/
theorem IsNearestTen.unique {first second count : Int} (hfirst : IsNearestTen first count)
    (hsecond : IsNearestTen second count) : first = second := by
  obtain ⟨htens, hlow, hhigh⟩ := hfirst
  obtain ⟨htens', hlow', hhigh'⟩ := hsecond
  omega

/-- Rounding and taxing go as they are meant to. -/
structure Taxes (count yuzde : Int) : Prop where
  rounded : IsNearestTen (roundCount count) count
  amount : taxedCount count yuzde = count - roundCount count * yuzde / 100
  nonneg : 0 ≤ taxedCount count yuzde
  le_count : taxedCount count yuzde ≤ count

/-- The count is rounded down, or rounding up stays within an `int` and the tax on the
rounded count within the count. -/
def Affordable (count yuzde : Int) : Prop :=
  count % 10 < 5 ∨ (count + (10 - count % 10) ≤ intMax ∧
    (count + (10 - count % 10)) * yuzde < 100 * (count + 1))

theorem wrapInt_of_range {value : Int} (hmin : intMin ≤ value) (hmax : value ≤ intMax) :
    wrapInt value = value := by
  rw [intMin] at hmin
  rw [intMax] at hmax
  rw [wrapInt]
  omega

/-- The chain of adjustments rounds down or up. -/
theorem roundCount_eq {count : Int} (hcount : 0 ≤ count) (hint : count ≤ intMax) :
    roundCount count =
      if count % 10 < 5 then count - count % 10 else wrapInt (count + (10 - count % 10)) := by
  rw [intMax] at hint
  have hdigit : count.tmod 10 = count % 10 := Int.tmod_eq_emod_of_nonneg hcount
  have hdown : wrapInt (count - count % 10) = count - count % 10 :=
    wrapInt_of_range (by rw [intMin]; omega) (by rw [intMax]; omega)
  unfold roundCount
  simp only [hdigit]
  by_cases hlow : count % 10 < 5
  · rw [if_pos hlow]
    by_cases hzero : 1 ≤ count % 10
    · rw [if_pos ⟨hzero, by omega⟩, hdown]
    · rw [if_neg (by omega), if_neg (by omega)]
      omega
  · rw [if_neg hlow, if_neg (by omega), if_pos (by omega)]

section Taxing

variable {count yuzde rounded : Int}

/-- A tax of at most all of the rounded count is subtracted without overflow. -/
theorem taxedCount_eq (hcount : 0 ≤ count) (hint : count ≤ intMax)
    (hround : roundCount count = rounded) (hnonneg : 0 ≤ rounded * yuzde)
    (hfits : rounded * yuzde ≤ intMax) (hall : rounded * yuzde ≤ 100 * (count + 5)) :
    taxedCount count yuzde = count - rounded * yuzde / 100 := by
  rw [taxedCount, hround, wrapInt_of_range (by rw [intMin]; omega) hfits,
    Int.tdiv_eq_ediv_of_nonneg hnonneg]
  rw [intMax] at hint
  exact wrapInt_of_range (by rw [intMin]; omega) (by rw [intMax]; omega)

/-- A count that is rounded to its nearest multiple of ten is taxed rightly exactly if the
tax is within the count. -/
theorem taxes_of_rounded (hcount : 0 ≤ count) (hint : count ≤ intMax) (hyuzde : 0 ≤ yuzde)
    (hhundred : yuzde ≤ 100) (hround : roundCount count = rounded)
    (hnearest : IsNearestTen rounded count) (hfits : rounded * yuzde ≤ intMax) :
    Taxes count yuzde ↔ rounded * yuzde < 100 * (count + 1) := by
  obtain ⟨htens, hlow, hhigh⟩ := hnearest
  have hrounded : 0 ≤ rounded := by omega
  have hnonneg : 0 ≤ rounded * yuzde := Int.mul_nonneg hrounded hyuzde
  have hall : rounded * yuzde ≤ rounded * 100 := Int.mul_le_mul_of_nonneg_left hhundred hrounded
  have htaxed := taxedCount_eq hcount hint hround hnonneg hfits (by omega)
  constructor
  · intro htaxes
    have hpaid := htaxes.nonneg
    rw [htaxed] at hpaid
    omega
  · intro hpaid
    exact ⟨by rw [hround]; exact ⟨htens, hlow, hhigh⟩, by rw [htaxed, hround],
      by rw [htaxed]; omega, by rw [htaxed]; omega⟩

/-- A count is taxed rightly exactly if it is affordable. -/
theorem taxes_iff_affordable (hcount : 0 ≤ count) (hint : count ≤ intMax) (hyuzde : 0 ≤ yuzde)
    (hhundred : yuzde ≤ 100)
    (hfits : ∀ rounded, IsNearestTen rounded count → rounded * yuzde ≤ intMax) :
    Taxes count yuzde ↔ Affordable count yuzde := by
  have hround := roundCount_eq hcount hint
  have hlimit := hint
  rw [intMax] at hlimit
  by_cases hlow : count % 10 < 5
  · have hnearest : IsNearestTen (count - count % 10) count := ⟨by omega, by omega, by omega⟩
    rw [if_pos hlow] at hround
    have hall : (count - count % 10) * yuzde ≤ (count - count % 10) * 100 :=
      Int.mul_le_mul_of_nonneg_left hhundred (by omega)
    rw [taxes_of_rounded hcount hint hyuzde hhundred hround hnearest (hfits _ hnearest)]
    exact iff_of_true (by omega) (.inl hlow)
  · have hnearest : IsNearestTen (count + (10 - count % 10)) count :=
      ⟨by omega, by omega, by omega⟩
    rw [if_neg hlow] at hround
    rw [Affordable, or_iff_right hlow]
    by_cases hrange : count + (10 - count % 10) ≤ intMax
    · rw [wrapInt_of_range (by rw [intMin]; omega) hrange] at hround
      rw [taxes_of_rounded hcount hint hyuzde hhundred hround hnearest (hfits _ hnearest),
        and_iff_right hrange]
    · -- rounding up leaves the range of an `int`
      refine iff_of_false (fun htaxes => ?_) fun haffordable => hrange haffordable.1
      have hsame := htaxes.rounded.unique hnearest
      rw [hround, wrapInt] at hsame
      rw [intMax] at hrange
      omega

end Taxing

/-- Seven percent of a count that is rounded up. -/
theorem taxes_iff_affordable_sample : Taxes 10007 7 :=
  (taxes_iff_affordable (by decide) (by decide) (by decide) (by decide)
    fun rounded hnearest => by
      obtain ⟨-, hlow, hhigh⟩ := hnearest
      rw [intMax]
      omega).mpr (.inr ⟨by decide, by decide⟩)

/-- All of five world locks is ten. -/
theorem tax_exceeds_count : ¬ Taxes 5 100 := by
  intro htaxes
  exact absurd htaxes.nonneg (by decide)

end SrmotionProxy.Events.In
