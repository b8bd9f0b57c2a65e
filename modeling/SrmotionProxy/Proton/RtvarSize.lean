/-
# The size of text variables

How long the text of a list of pairs is: at most nine times as long as the text it was
parsed from (an empty line comes back as `|[EMPTY]`), and longer by what an update writes.
-/

import SrmotionProxy.Proton.RtvarPatch

namespace SrmotionProxy.Proton

open SrmotionProxy.Lib

/-! ## Pairs -/

namespace Pair

/-- A pair takes no more room than its line did, unless that was empty. -/
theorem length_serialize_parse_le (line : Bytes) :
    (parse line).serialize.length ≤ line.length + 8 := by
  by_cases hline : line = []
  · subst hline
    decide
  · have hsome : Seq.getlines bar line ≠ [] := fun h => hline (Seq.getlines_eq_nil_iff.mp h)
    obtain ⟨key, values, htokens⟩ := List.exists_cons_of_ne_nil hsome
    have hlength := @Seq.length_getlines_le _ _ bar line
    rw [htokens] at hlength
    rw [parse_of_tokens htokens, serialize_eq_joined, joined, Seq.length_intercalate]
    exact hlength.trans (Nat.le_add_right _ _)

/-- The joined values are part of the pair. -/
theorem InStep.length_mValue_le {pair : Pair} (hstep : pair.InStep) :
    pair.mValue.length ≤ pair.serialize.length := by
  by_cases hvalues : pair.mValues = []
  · rw [hstep, hvalues]
    exact Nat.zero_le _
  · rw [serialize_eq hvalues, hstep, List.length_append, List.length_cons]
    omega

theorem length_serialize_updateHead_le {update : Bytes → Bytes} {bound : Nat}
    (hupdate : ∀ value, (update value).length ≤ value.length + bound) (pair : Pair) :
    (pair.updateHead update).serialize.length ≤ pair.serialize.length + bound := by
  obtain ⟨key, values, value⟩ := pair
  cases values with
  | nil => exact Nat.le_add_right _ _
  | cons first rest =>
      have hfirst := hupdate first
      simp only [updateHead, List.modifyHead_cons, serialize, List.flatMap_cons,
        List.length_append, List.length_cons]
      omega

end Pair

/-! ## Lists of pairs -/

namespace Rtvar

/-- The bytes that the pairs take, with a newline behind each. -/
def extent (var : Rtvar) : Nat := (var.mPairs.map fun pair => pair.serialize.length + 1).sum

theorem extent_cons (pair : Pair) (pairs : List Pair) :
    extent { mPairs := pair :: pairs } = pair.serialize.length + 1 + extent { mPairs := pairs } :=
  List.sum_cons

theorem length_serialize_le (dropsLast : Bool) (var : Rtvar) :
    (var.serialize dropsLast).length ≤ var.extent := by
  obtain ⟨pairs⟩ := var
  have hlines : ((pairs.map Pair.serialize).flatMap fun line => line ++ [newline]).length =
      extent { mPairs := pairs } := by
    rw [List.length_flatMap, List.map_map, extent]
    congr 1
    refine List.map_congr_left fun pair _ => ?_
    rw [Function.comp_apply, List.length_append, List.length_singleton]
  rw [serialize_eq, ← hlines]
  cases dropsLast with
  | false => exact Nat.le_refl _
  | true =>
      rw [if_pos rfl, ← Seq.dropLast_terminated, List.length_dropLast]
      exact Nat.sub_le _ _

theorem extent_parse_le (text : Bytes) : (parse text).extent ≤ 9 * text.length + 9 := by
  have hlines (lines : List Bytes) : extent { mPairs := lines.map Pair.parse } ≤
      (lines.map List.length).sum + 9 * lines.length := by
    induction lines with
    | nil => exact Nat.le_refl 0
    | cons line lines ih =>
        have hline := Pair.length_serialize_parse_le line
        rw [List.map_cons, extent_cons, List.map_cons, List.sum_cons, List.length_cons]
        omega
  have hextent := hlines (Seq.getlines newline text)
  have hlength := @Seq.length_getlines_le _ _ newline text
  rw [← parse_eq] at hextent
  omega

/-- What is looked up is part of the text. -/
theorem length_find_le {var : Rtvar} (hstep : var.InStep) {key : Bytes} {pair : Pair}
    (hfind : var.find key = some pair) : pair.mValue.length ≤ var.extent := by
  have hpair := (hstep pair (List.mem_of_find?_eq_some hfind)).length_mValue_le
  obtain ⟨before, after, hpairs, -, -⟩ := find_eq_some hfind
  rw [extent, hpairs, List.map_append, List.map_cons, List.sum_append, List.sum_cons]
  omega

theorem extent_updateValue_le {update : Bytes → Bytes} {bound : Nat}
    (hupdate : ∀ value, (update value).length ≤ value.length + bound) (var : Rtvar)
    (key : Bytes) : (var.updateValue key update).extent ≤ var.extent + bound := by
  obtain ⟨pairs⟩ := var
  unfold updateValue
  induction pairs with
  | nil => exact Nat.le_add_right _ _
  | cons pair pairs ih =>
      rw [modifyFirst]
      by_cases hkey : pair.mKey = key
      · have hpair := Pair.length_serialize_updateHead_le hupdate pair
        rw [if_pos hkey, extent_cons, extent_cons]
        omega
      · simp only [if_neg hkey, extent_cons] at ih ⊢
        omega

end Rtvar

end SrmotionProxy.Proton
