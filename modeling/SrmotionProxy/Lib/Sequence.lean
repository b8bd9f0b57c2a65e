/-
# Sequence numbers that wrap

Numbers are given out one after the other, modulo `size * count`, so that they lie in `count`
windows of `size` numbers each. A sender that starts a window only while this window and those
behind it, `free` of them, are empty never has a number on its way twice, however long it runs
and in whatever order the numbers come back.
-/

import Mathlib.Data.List.Nodup
import Mathlib.Data.List.Perm.Subperm
import Mathlib.Order.Nat

namespace SrmotionProxy.Lib.Sequence

variable {modulus size count free first middle last number window : Nat}
  {flying fewer numbers earlier later : List Nat}

/-! ## Numbers in turn -/

/-- The numbers come one after the other behind `first` and end with `last`. -/
def Follows (modulus : Nat) : Nat → List Nat → Nat → Prop
  | first, [], last => first = last
  | first, number :: rest, last =>
      number = (first + 1) % modulus ∧ Follows modulus number rest last

theorem Follows.append (hearlier : Follows modulus first earlier middle)
    (hlater : Follows modulus middle later last) :
    Follows modulus first (earlier ++ later) last := by
  induction earlier generalizing first with
  | nil =>
      cases hearlier
      exact hlater
  | cons number rest ih => exact ⟨hearlier.1, ih hearlier.2⟩

theorem Follows.single (number modulus : Nat) :
    Follows modulus number [(number + 1) % modulus] ((number + 1) % modulus) :=
  ⟨rfl, rfl⟩

/-! ## Windows -/

/-- How many of the numbers lie in a window. -/
def windowCount (size : Nat) (numbers : List Nat) (window : Nat) : Nat :=
  numbers.countP (· / size = window)

theorem windowCount_perm (hperm : fewer.Perm flying) :
    windowCount size fewer = windowCount size flying :=
  funext fun _ => hperm.countP_eq _

theorem windowCount_pos_iff :
    0 < windowCount size numbers window ↔ ∃ number ∈ numbers, number / size = window := by
  simp [windowCount, List.countP_pos_iff]

/-- One number more in its window. -/
theorem windowCount_cons (size number : Nat) (numbers : List Nat) :
    windowCount size (number :: numbers) = Function.update (windowCount size numbers)
      (number / size) (windowCount size numbers (number / size) + 1) := by
  funext window
  rw [windowCount, List.countP_cons, Function.update_apply]
  by_cases hwindow : window = number / size
  · rw [if_pos hwindow, hwindow, if_pos (decide_eq_true rfl)]
    rfl
  · rw [if_neg hwindow, if_neg (by simpa using Ne.symm hwindow)]
    rfl

/-- The numbers on their way after `last` was sent: none is there twice, none of the window of
`last` is still to be sent, and the next windows are empty. -/
structure InWindows (size count free last : Nat) (flying : List Nat) : Prop where
  distinct : flying.Nodup
  passed : ∀ number ∈ flying, number / size = last / size → number ≤ last
  clear : ∀ number ∈ flying, ∀ ahead, 0 < ahead → ahead < free →
    number / size ≠ (last / size + ahead) % count

theorem InWindows.nil (size count free last : Nat) : InWindows size count free last [] :=
  ⟨List.nodup_nil, by simp, by simp⟩

/-- Numbers come back, in any order. -/
theorem InWindows.subperm (hflying : InWindows size count free last flying)
    (hfewer : fewer.Subperm flying) : InWindows size count free last fewer where
  distinct := by
    obtain ⟨same, hperm, hsublist⟩ := hfewer
    exact hperm.nodup_iff.mp (hflying.distinct.sublist hsublist)
  passed number hnumber := hflying.passed number (hfewer.subset hnumber)
  clear number hnumber := hflying.clear number (hfewer.subset hnumber)

/-- A window is not one of those ahead of it. -/
theorem ne_ahead {ahead : Nat} (hwindow : window < count) (hahead : 0 < ahead)
    (hfew : ahead < count) : window ≠ (window + ahead) % count := by
  by_cases hwraps : window + ahead < count
  · rw [Nat.mod_eq_of_lt hwraps]
    omega
  · rw [Nat.mod_eq_sub_mod (not_lt.mp hwraps), Nat.mod_eq_of_lt (by omega)]
    omega

/-- The next number is sent: it is not on its way yet, and when it starts a window, that one and
those behind it are empty. -/
theorem InWindows.send (hflying : InWindows size count free last flying)
    (hfree : 0 < free ∧ free ≤ count) (hnumber : number = (last + 1) % (size * count))
    (hlast : last < size * count)
    (hstart : number % size = 0 → ∀ other ∈ flying, ∀ ahead < free,
      other / size ≠ (number / size + ahead) % count) :
    InWindows size count free number (number :: flying) := by
  have hbound : number < size * count :=
    hnumber ▸ Nat.mod_lt _ (Nat.zero_lt_of_lt hlast)
  have hwindow : number / size < count := Nat.div_lt_of_lt_mul hbound
  have hown (ahead : Nat) (hahead : 0 < ahead) (hfew : ahead < free) :
      number / size ≠ (number / size + ahead) % count :=
    ne_ahead hwindow hahead (hfew.trans_le hfree.2)
  by_cases hfirst : number % size = 0
  · -- the window is empty before, so nothing in it can be the number or lie behind it
    have hempty (other : Nat) (hother : other ∈ flying) : other / size ≠ number / size := by
      have hhere := hstart hfirst other hother 0 hfree.1
      rwa [Nat.add_zero, Nat.mod_eq_of_lt hwindow] at hhere
    refine ⟨List.nodup_cons.mpr ⟨fun hin => hempty number hin rfl, hflying.distinct⟩, ?_, ?_⟩
    · rw [List.forall_mem_cons]
      exact ⟨fun _ => le_rfl, fun other hother hsame => absurd hsame (hempty other hother)⟩
    · rw [List.forall_mem_cons]
      exact ⟨hown, fun other hother ahead _ hfew => hstart hfirst other hother ahead hfew⟩
  · -- the number is the next one of the same window
    have hnext : number = last + 1 := by
      rw [hnumber]
      refine Nat.mod_eq_of_lt (lt_of_le_of_ne hlast fun hend => hfirst ?_)
      rw [hnumber, ← hend, Nat.mod_self, Nat.zero_mod]
    have hsame : number / size = last / size := by
      rw [hnext, Nat.succ_div_of_not_dvd]
      rwa [Nat.dvd_iff_mod_eq_zero, ← hnext]
    have hpassed (other : Nat) (hother : other ∈ flying) (hwindows : other / size = number / size) :
        other ≤ last :=
      hflying.passed other hother (hwindows.trans hsame)
    refine ⟨List.nodup_cons.mpr ⟨fun hin => ?_, hflying.distinct⟩, ?_, ?_⟩
    · have hle := hpassed number hin rfl
      omega
    · rw [List.forall_mem_cons]
      refine ⟨fun _ => le_rfl, fun other hother hwindows => ?_⟩
      have hle := hpassed other hother hwindows
      omega
    · rw [List.forall_mem_cons, hsame]
      exact ⟨hsame ▸ hown, hflying.clear⟩

/-- A window has no more numbers on their way than it has numbers. -/
theorem InWindows.windowCount_le (hflying : InWindows size count free last flying)
    (hsize : 0 < size) (window : Nat) : windowCount size flying window ≤ size := by
  rw [windowCount, List.countP_eq_length_filter]
  have hinside : flying.filter (· / size = window) ⊆
      (List.range size).map (window * size + ·) := by
    intro number hnumber
    have hwindow := of_decide_eq_true (List.mem_filter.mp hnumber).2
    refine List.mem_map.mpr ⟨number % size, List.mem_range.mpr (Nat.mod_lt _ hsize), ?_⟩
    rw [← hwindow, Nat.mul_comm, Nat.div_add_mod]
  have hlength := ((hflying.distinct.filter _).subperm hinside).length_le
  rwa [List.length_map, List.length_range] at hlength

/-- A window that is not ahead of another one is it or not far behind it. -/
theorem behind_of_not_ahead {target : Nat} (hwindow : window < count) (htarget : target < count)
    (hfree : 0 < free ∧ free ≤ count)
    (hclear : ∀ ahead, 0 < ahead → ahead < free → window ≠ (target + ahead) % count) :
    ∃ behind ≤ count - free, target = (window + behind) % count := by
  by_cases horder : window ≤ target
  · refine ⟨target - window, ?_, by rw [Nat.add_sub_cancel' horder, Nat.mod_eq_of_lt htarget]⟩
    by_contra hfar
    refine hclear (count - (target - window)) (by omega) (by omega) ?_
    rw [show target + (count - (target - window)) = window + count by omega,
      Nat.add_mod_right, Nat.mod_eq_of_lt hwindow]
  · refine ⟨target + count - window, ?_, ?_⟩
    · by_contra hfar
      refine hclear (window - target) (by omega) (by omega) ?_
      rw [Nat.add_sub_cancel' (not_le.mp horder).le, Nat.mod_eq_of_lt hwindow]
    · rw [Nat.add_sub_cancel' (by omega), Nat.add_mod_right, Nat.mod_eq_of_lt htarget]

theorem InWindows.behind (hflying : InWindows size count free last flying)
    (hfree : 0 < free ∧ free ≤ count) (hlast : last < size * count) (hin : number ∈ flying)
    (hnumber : number < size * count) :
    ∃ behind ≤ count - free, last / size = (number / size + behind) % count :=
  behind_of_not_ahead (Nat.div_lt_of_lt_mul hnumber) (Nat.div_lt_of_lt_mul hlast) hfree
    (hflying.clear number hin)

end SrmotionProxy.Lib.Sequence
