/-
# Frequency trees

A binary search tree that counts values. The parts of a coding interval are laid out in the
order of the values: a value comes behind all smaller ones, however the tree is shaped. If
each value has `minimum` parts besides its count, a number decides at every node on which
side its value is, and `part_left`, `part_right` and `part_here` say that it decides as the
value itself would.
-/

import SrmotionProxy.Lib.Text

namespace SrmotionProxy.Lib

inductive FrequencyTree
  | leaf
  | node (left : FrequencyTree) (value count : Nat) (right : FrequencyTree)
  deriving DecidableEq, Repr

namespace FrequencyTree

/-- The sum of all counts. -/
def total : FrequencyTree → Nat
  | leaf => 0
  | node left _ count right => left.total + count + right.total

/-- The number of values. -/
def size : FrequencyTree → Nat
  | leaf => 0
  | node left _ _ right => left.size + 1 + right.size

/-- The value has a node. -/
def Has (value : Nat) : FrequencyTree → Prop
  | leaf => False
  | node left here _ right => left.Has value ∨ value = here ∨ right.Has value

instance decidableHas (value : Nat) : (tree : FrequencyTree) → Decidable (tree.Has value)
  | leaf => inferInstanceAs (Decidable False)
  | node left here _ right =>
      have := decidableHas value left
      have := decidableHas value right
      inferInstanceAs (Decidable (left.Has value ∨ value = here ∨ right.Has value))

/-- The count of a value, as a search finds it. -/
def count (value : Nat) : FrequencyTree → Nat
  | leaf => 0
  | node left here number right =>
      if value < here then left.count value
      else if here < value then right.count value
      else number

/-- The sum of the counts of smaller values, as a search adds it up. -/
def before (value : Nat) : FrequencyTree → Nat
  | leaf => 0
  | node left here number right =>
      if value < here then left.before value
      else if here < value then left.total + number + right.before value
      else left.total

/-- Count a value; a new one gets a leaf. -/
def add (value update : Nat) : FrequencyTree → FrequencyTree
  | leaf => node leaf value update leaf
  | node left here number right =>
      if value < here then node (left.add value update) here number right
      else if here < value then node left here number (right.add value update)
      else node left here (number + update) right

/-- Every count rounded up to its half. -/
def halve : FrequencyTree → FrequencyTree
  | leaf => leaf
  | node left here number right => node left.halve here (number - number / 2) right.halve

/-- The values are in search order, from `low` to below `high`. -/
def Ordered (low high : Nat) : FrequencyTree → Prop
  | leaf => True
  | node left here _ right =>
      low ≤ here ∧ here < high ∧ left.Ordered low here ∧ right.Ordered (here + 1) high

/-- Every count is positive and at most the bound. -/
def Counts (bound : Nat) : FrequencyTree → Prop
  | leaf => True
  | node left _ number right => 0 < number ∧ number ≤ bound ∧ left.Counts bound ∧ right.Counts bound

variable {tree left right : FrequencyTree} {value here number update low high bound : Nat}

/-! ## Order -/

theorem Ordered.mem (hordered : tree.Ordered low high) (hhas : tree.Has value) :
    low ≤ value ∧ value < high := by
  induction tree generalizing low high with
  | leaf => cases hhas
  | node left here number right ihl ihr =>
      obtain ⟨hlow, hhigh, hleft, hright⟩ := hordered
      rcases hhas with hhas | rfl | hhas
      · have hvalue := ihl hleft hhas
        omega
      · exact ⟨hlow, hhigh⟩
      · have hvalue := ihr hright hhas
        omega

theorem Ordered.size_le (hordered : tree.Ordered low high) : tree.size ≤ high - low := by
  induction tree generalizing low high with
  | leaf => exact Nat.zero_le _
  | node left here number right ihl ihr =>
      obtain ⟨hlow, hhigh, hleft, hright⟩ := hordered
      have hsizes := ihl hleft
      have hsizes' := ihr hright
      rw [size]
      omega

theorem Ordered.add (hordered : tree.Ordered low high) (hlow : low ≤ value) (hhigh : value < high) :
    (tree.add value update).Ordered low high := by
  induction tree generalizing low high with
  | leaf => exact ⟨hlow, hhigh, trivial, trivial⟩
  | node left here number right ihl ihr =>
      obtain ⟨hbegin, hend, hleft, hright⟩ := hordered
      rw [FrequencyTree.add]
      by_cases hsmaller : value < here
      · rw [if_pos hsmaller]
        exact ⟨hbegin, hend, ihl hleft hlow hsmaller, hright⟩
      · rw [if_neg hsmaller]
        by_cases hlarger : here < value
        · rw [if_pos hlarger]
          exact ⟨hbegin, hend, hleft, ihr hright hlarger hhigh⟩
        · rw [if_neg hlarger]
          exact ⟨hbegin, hend, hleft, hright⟩

theorem Ordered.halve (hordered : tree.Ordered low high) : tree.halve.Ordered low high := by
  induction tree generalizing low high with
  | leaf => trivial
  | node left here number right ihl ihr =>
      exact ⟨hordered.1, hordered.2.1, ihl hordered.2.2.1, ihr hordered.2.2.2⟩

/-- A search decides by comparing. -/
theorem Ordered.has_left (hordered : (node left here number right).Ordered low high)
    (hsmaller : value < here) : (node left here number right).Has value ↔ left.Has value := by
  refine ⟨?_, .inl⟩
  rintro (hhas | rfl | hhas)
  · exact hhas
  · exact absurd hsmaller (Nat.lt_irrefl _)
  · have hvalue := hordered.2.2.2.mem hhas
    omega

theorem Ordered.has_right (hordered : (node left here number right).Ordered low high)
    (hlarger : here < value) : (node left here number right).Has value ↔ right.Has value := by
  refine ⟨?_, fun hhas => .inr (.inr hhas)⟩
  rintro (hhas | rfl | hhas)
  · have hvalue := hordered.2.2.1.mem hhas
    omega
  · exact absurd hlarger (Nat.lt_irrefl _)
  · exact hhas

/-! ## What stays and what is new -/

theorem has_add_iff {other : Nat} :
    (tree.add value update).Has other ↔ other = value ∨ tree.Has other := by
  induction tree with
  | leaf => simp [add, Has]
  | node left here number right ihl ihr =>
      rw [add]
      by_cases hsmaller : value < here
      · rw [if_pos hsmaller, Has, Has, ihl]
        tauto
      · rw [if_neg hsmaller]
        by_cases hlarger : here < value
        · rw [if_pos hlarger, Has, Has, ihr]
          tauto
        · have hsame : value = here := by omega
          rw [if_neg hlarger, Has, Has, hsame]
          tauto

theorem has_halve_iff : tree.halve.Has value ↔ tree.Has value := by
  induction tree with
  | leaf => rfl
  | node left here number right ihl ihr => rw [halve, Has, Has, ihl, ihr]

@[simp]
theorem total_add : (tree.add value update).total = tree.total + update := by
  induction tree with
  | leaf => simp [add, total]
  | node left here number right ihl ihr =>
      rw [add]
      by_cases hsmaller : value < here
      · rw [if_pos hsmaller, total, total, ihl]
        omega
      · rw [if_neg hsmaller]
        by_cases hlarger : here < value
        · rw [if_pos hlarger, total, total, ihr]
          omega
        · rw [if_neg hlarger, total, total]
          omega

theorem size_halve : tree.halve.size = tree.size := by
  induction tree with
  | leaf => rfl
  | node left here number right ihl ihr => rw [halve, size, size, ihl, ihr]

theorem size_pos (hknown : tree ≠ leaf) : 0 < tree.size := by
  cases tree with
  | leaf => exact absurd rfl hknown
  | node left here number right =>
      rw [size]
      omega

theorem ne_leaf_of_has (hhas : tree.Has value) : tree ≠ leaf := by
  rintro rfl
  exact hhas

theorem size_add_of_has (hordered : tree.Ordered low high) (hhas : tree.Has value) :
    (tree.add value update).size = tree.size := by
  induction tree generalizing low high with
  | leaf => cases hhas
  | node left here number right ihl ihr =>
      rw [add]
      by_cases hsmaller : value < here
      · rw [if_pos hsmaller, size, size, ihl hordered.2.2.1 ((hordered.has_left hsmaller).mp hhas)]
      · rw [if_neg hsmaller]
        by_cases hlarger : here < value
        · rw [if_pos hlarger, size, size, ihr hordered.2.2.2 ((hordered.has_right hlarger).mp hhas)]
        · rw [if_neg hlarger, size, size]

theorem size_add_of_not_has (habsent : ¬ tree.Has value) :
    (tree.add value update).size = tree.size + 1 := by
  induction tree with
  | leaf => rfl
  | node left here number right ihl ihr =>
      rw [Has, not_or, not_or] at habsent
      rw [add]
      by_cases hsmaller : value < here
      · rw [if_pos hsmaller, size, size, ihl habsent.1]
        omega
      · rw [if_neg hsmaller]
        have hlarger : here < value := by omega
        rw [if_pos hlarger, size, size, ihr habsent.2.2]
        omega

/-- Halving leaves at most half of the total, and half a unit for each value. -/
theorem total_halve_le : 2 * tree.halve.total ≤ tree.total + tree.size := by
  induction tree with
  | leaf => exact le_rfl
  | node left here number right ihl ihr =>
      simp only [halve, total, size]
      omega

theorem Counts.mono {larger : Nat} (hcounts : tree.Counts bound) (hbound : bound ≤ larger) :
    tree.Counts larger := by
  induction tree with
  | leaf => trivial
  | node left here number right ihl ihr =>
      exact ⟨hcounts.1, hcounts.2.1.trans hbound, ihl hcounts.2.2.1, ihr hcounts.2.2.2⟩

theorem Counts.add (hcounts : tree.Counts bound) (hpositive : 0 < update)
    (hbound : tree.count value + update ≤ bound) : (tree.add value update).Counts bound := by
  induction tree with
  | leaf =>
      rw [count] at hbound
      exact ⟨hpositive, by omega, trivial, trivial⟩
  | node left here number right ihl ihr =>
      obtain ⟨hnumber, hsmall, hleft, hright⟩ := hcounts
      rw [count] at hbound
      rw [FrequencyTree.add]
      by_cases hsmaller : value < here
      · rw [if_pos hsmaller] at hbound ⊢
        exact ⟨hnumber, hsmall, ihl hleft hbound, hright⟩
      · rw [if_neg hsmaller] at hbound ⊢
        by_cases hlarger : here < value
        · rw [if_pos hlarger] at hbound ⊢
          exact ⟨hnumber, hsmall, hleft, ihr hright hbound⟩
        · rw [if_neg hlarger] at hbound ⊢
          exact ⟨by omega, hbound, hleft, hright⟩

theorem Counts.halve (hcounts : tree.Counts bound) : tree.halve.Counts (bound - bound / 2) := by
  induction tree with
  | leaf => trivial
  | node left here number right ihl ihr =>
      obtain ⟨hnumber, hsmall, hleft, hright⟩ := hcounts
      exact ⟨by omega, by omega, ihl hleft, ihr hright⟩

theorem Counts.count_le (hcounts : tree.Counts bound) : tree.count value ≤ bound := by
  induction tree with
  | leaf => exact Nat.zero_le _
  | node left here number right ihl ihr =>
      obtain ⟨-, hsmall, hleft, hright⟩ := hcounts
      rw [count]
      split
      · exact ihl hleft
      · split
        · exact ihr hright
        · exact hsmall

theorem Counts.size_le_total (hcounts : tree.Counts bound) : tree.size ≤ tree.total := by
  induction tree with
  | leaf => exact le_rfl
  | node left here number right ihl ihr =>
      obtain ⟨hnumber, -, hleft, hright⟩ := hcounts
      have hsizes := ihl hleft
      have hsizes' := ihr hright
      rw [size, total]
      omega

theorem count_pos_iff (hordered : tree.Ordered low high) (hcounts : tree.Counts bound) :
    0 < tree.count value ↔ tree.Has value := by
  induction tree generalizing low high with
  | leaf => exact iff_of_false (Nat.lt_irrefl 0) id
  | node left here number right ihl ihr =>
      have hsides := hordered.2.2
      obtain ⟨hnumber, -, hleft, hright⟩ := hcounts
      rw [count]
      by_cases hsmaller : value < here
      · rw [if_pos hsmaller, hordered.has_left hsmaller]
        exact ihl hsides.1 hleft
      · rw [if_neg hsmaller]
        by_cases hlarger : here < value
        · rw [if_pos hlarger, hordered.has_right hlarger]
          exact ihr hsides.2 hright
        · rw [if_neg hlarger]
          exact iff_of_true hnumber (.inr (.inl (by omega)))

theorem before_add_count_le : tree.before value + tree.count value ≤ tree.total := by
  induction tree with
  | leaf => exact le_rfl
  | node left here number right ihl ihr =>
      rw [before, count, total]
      by_cases hsmaller : value < here
      · rw [if_pos hsmaller, if_pos hsmaller]
        omega
      · rw [if_neg hsmaller, if_neg hsmaller]
        by_cases hlarger : here < value
        · rw [if_pos hlarger, if_pos hlarger]
          omega
        · rw [if_neg hlarger, if_neg hlarger]
          omega

/-! ## Reading a number -/

/-- The number lies in the part of the value, behind `under` other parts. -/
def InPart (tree : FrequencyTree) (minimum under value code : Nat) : Prop :=
  under + tree.before value + value * minimum ≤ code ∧
    code < under + tree.before value + value * minimum + (tree.count value + minimum)

section Part

variable {minimum under code : Nat}
  (hpart : (node left here number right).InPart minimum under value code)

include hpart

/-- The number of a smaller value is in front of the node's part. -/
theorem part_left (hsmaller : value < here) :
    code + (number + minimum) < under + (left.total + number) + (here + 1) * minimum ∧
      left.InPart minimum under value code := by
  obtain ⟨hlow, hhigh⟩ := hpart
  rw [before, if_pos hsmaller] at hlow hhigh
  rw [count, if_pos hsmaller] at hhigh
  have hbefore : left.before value + left.count value ≤ left.total := before_add_count_le
  have hparts : value * minimum + minimum ≤ here * minimum := by
    rw [← Nat.succ_mul]
    exact Nat.mul_le_mul_right _ hsmaller
  rw [Nat.succ_mul]
  exact ⟨by omega, hlow, hhigh⟩

/-- The number of a larger value is behind the node's part. -/
theorem part_right (hlarger : here < value) :
    under + (left.total + number) + (here + 1) * minimum ≤ code ∧
      right.InPart minimum (under + (left.total + number)) value code := by
  obtain ⟨hlow, hhigh⟩ := hpart
  rw [before, if_neg (by omega), if_pos hlarger] at hlow hhigh
  rw [count, if_neg (by omega), if_pos hlarger] at hhigh
  have hparts : (here + 1) * minimum ≤ value * minimum := Nat.mul_le_mul_right _ hlarger
  refine ⟨by omega, ?_, ?_⟩ <;> omega

/-- The number of the node's own value is in the node's part. -/
theorem part_here (hsame : value = here) :
    code < under + (left.total + number) + (here + 1) * minimum ∧
      under + (left.total + number) + (here + 1) * minimum ≤ code + (number + minimum) := by
  obtain ⟨hlow, hhigh⟩ := hpart
  rw [before, if_neg (by omega), if_neg (by omega), hsame] at hlow hhigh
  rw [count, if_neg (by omega), if_neg (by omega)] at hhigh
  rw [Nat.succ_mul]
  omega

end Part

end FrequencyTree

end SrmotionProxy.Lib
