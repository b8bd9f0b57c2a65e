/-
# Erasing with a reference into the vector

`v.erase(std::remove(v.begin(), v.end(), v[k]), v.end())` compares every element
with a value that lives inside the range being shifted. Once the loop has kept more
than `k` elements, the k-th cell holds a later element and the comparisons change
their meaning. The loop is given here with that cell explicit, for any comparison,
together with what it leaves in closed form.
-/

import SrmotionProxy.Lib.Text

namespace SrmotionProxy.Lib

variable {α : Type}

/-- The loop of `std::remove`: `kept` is what has been moved to the front, and cell
`k` still holds `value` as long as `kept` has not reached it. -/
def removeLoop (same : α → α → Except Abort Bool) (k : Nat) (value : α) :
    List α → List α → Except Abort (List α)
  | kept, [] => .ok kept
  | kept, item :: rest => do
      if ← same item (kept.getD k value) then removeLoop same k value kept rest
      else removeLoop same k value (kept ++ [item]) rest

/-- Erase everything equal to `items[k]`, where that element is passed by reference. -/
def eraseSame (same : α → α → Except Abort Bool) (items : List α) (k : Nat) (value : α) :
    Except Abort (List α) :=
  removeLoop same k value [] items

namespace Remove

variable {same : α → α → Except Abort Bool} {k : Nat} {value : α}

theorem getD_of_le {kept : List α} (hle : kept.length ≤ k) : kept.getD k value = value := by
  rw [List.getD_eq_getElem?_getD, List.getElem?_eq_none hle, Option.getD_none]

/-- The loop only ever drops elements. -/
theorem loop_sublist {kept items result : List α}
    (hrun : removeLoop same k value kept items = .ok result) :
    result.Sublist (kept ++ items) := by
  induction items generalizing kept with
  | nil =>
      cases hrun
      exact List.sublist_append_left _ []
  | cons item rest ih =>
      rw [removeLoop] at hrun
      obtain ⟨equal, -, hrest⟩ := except_bind_eq_ok hrun
      cases equal with
      | true =>
          exact (ih hrest).trans (List.Sublist.append_left (List.sublist_cons_self item rest) kept)
      | false =>
          have hsub := ih hrest
          rwa [List.append_assoc, List.singleton_append] at hsub

theorem eraseSame_sublist {items result : List α}
    (hrun : eraseSame same items k value = .ok result) : result.Sublist items :=
  loop_sublist hrun

/-- A stretch without matches in front of cell `k` stays as it is. -/
theorem loop_before {before kept rest : List α}
    (hspace : kept.length + before.length ≤ k)
    (hdiffer : ∀ item ∈ before, same item value = .ok false) :
    removeLoop same k value kept (before ++ rest) =
      removeLoop same k value (kept ++ before) rest := by
  induction before generalizing kept with
  | nil => rw [List.nil_append, List.append_nil]
  | cons item before ih =>
      rw [List.length_cons] at hspace
      rw [List.cons_append, removeLoop, getD_of_le (by omega),
        hdiffer item List.mem_cons_self, except_ok_bind, if_neg (by decide),
        ih (by rw [List.length_append, List.length_singleton]; omega)
          fun later hlater => hdiffer later (List.mem_cons_of_mem item hlater),
        List.append_assoc, List.singleton_append]

/-! ### The result in closed form

With a comparison that cannot fail, what follows the referenced element is first
compared with that element, and from the first element kept on with that one. -/

/-- What the loop keeps of the elements behind the referenced one. -/
def survivors (equal : α → α → Bool) (target : α) (later : List α) : List α :=
  match later.dropWhile fun item => equal item target with
  | [] => []
  | next :: rest => next :: rest.filter fun item => !equal item next

/-- Once the cell is filled it stays as it is. -/
theorem loop_filled {equal : α → α → Bool} {before later rest : List α} {next value : α} :
    removeLoop (fun left right => .ok (equal left right)) before.length value
        (before ++ next :: later) rest =
      .ok (before ++ next :: (later ++ rest.filter fun item => !equal item next)) := by
  induction rest generalizing later with
  | nil => rw [removeLoop, List.filter_nil, List.append_nil]
  | cons item rest ih =>
      have hcell : (before ++ next :: later).getD before.length value = next := by
        rw [List.getD_eq_getElem?_getD, List.getElem?_append_right (Nat.le_refl _), Nat.sub_self]
        rfl
      rw [removeLoop, hcell, except_ok_bind, List.filter_cons]
      cases hequal : equal item next with
      | true => rw [if_pos rfl, ih]; rfl
      | false =>
          rw [if_neg (by decide), List.append_assoc, List.cons_append, ih, List.append_assoc]
          rfl

theorem survivors_cons (equal : α → α → Bool) (target item : α) (rest : List α) :
    survivors equal target (item :: rest) =
      if equal item target then survivors equal target rest
      else item :: rest.filter fun later => !equal later item := by
  rw [survivors, List.dropWhile_cons]
  cases equal item target with
  | true => rw [if_pos rfl, if_pos rfl, survivors]
  | false => rw [if_neg (by decide), if_neg (by decide)]

theorem loop_survivors {equal : α → α → Bool} {before later : List α} {target : α} :
    removeLoop (fun left right => .ok (equal left right)) before.length target before later =
      .ok (before ++ survivors equal target later) := by
  induction later with
  | nil => rw [removeLoop, survivors, List.dropWhile_nil, List.append_nil]
  | cons item rest ih =>
      rw [removeLoop, getD_of_le (Nat.le_refl _), except_ok_bind, survivors_cons]
      cases equal item target with
      | true => rw [if_pos rfl, if_pos rfl, ih]
      | false => rw [if_neg (by decide), if_neg (by decide), loop_filled, List.nil_append]

theorem survivors_sublist (equal : α → α → Bool) (target : α) (later : List α) :
    (survivors equal target later).Sublist later := by
  have hrun : removeLoop (fun left right => .ok (equal left right)) 0 target [] later =
      .ok ([] ++ survivors equal target later) :=
    @loop_survivors _ equal [] later target
  exact loop_sublist hrun

/-- Erasing by reference in closed form. -/
theorem eraseSame_eq {equal : α → α → Bool} {before later : List α} {target : α}
    (hreflexive : equal target target = true)
    (hbefore : ∀ item ∈ before, equal item target = false) :
    eraseSame (fun left right => .ok (equal left right)) (before ++ target :: later)
        before.length target = .ok (before ++ survivors equal target later) := by
  have hcell : before.getD before.length target = target := getD_of_le (Nat.le_refl _)
  rw [eraseSame, loop_before (by simp) fun item hitem => by rw [hbefore item hitem],
    List.nil_append, removeLoop, hcell, hreflexive, except_ok_bind, if_pos rfl]
  exact loop_survivors

/-- A dropped element equals the referenced one or one that was kept. -/
theorem mem_survivors {equal : α → α → Bool} {target item : α} {later : List α}
    (hmem : item ∈ later) : item ∈ survivors equal target later ∨ equal item target = true ∨
      ∃ kept ∈ survivors equal target later, equal item kept = true := by
  induction later with
  | nil => cases hmem
  | cons first rest ih =>
      rw [survivors_cons]
      rcases hfirst : equal first target with _ | _
      · rw [if_neg (by decide)]
        rcases List.mem_cons.mp hmem with rfl | hrest
        · exact .inl List.mem_cons_self
        · rcases hequal : equal item first with _ | _
          · exact .inl (List.mem_cons_of_mem first (List.mem_filter.mpr ⟨hrest, by simp [hequal]⟩))
          · exact .inr (.inr ⟨first, List.mem_cons_self, hequal⟩)
      · rw [if_pos rfl]
        rcases List.mem_cons.mp hmem with rfl | hrest
        · exact .inr (.inl hfirst)
        · exact ih hrest

end Remove

end SrmotionProxy.Lib
