/-
# Cutting a text at a delimiter

The pieces of a text between the leftmost non-overlapping occurrences of a delimiter of
any length, given as a relation: how the text is cut at the first occurrence, and then on.
A text has exactly one such list of pieces, joining them with the delimiter gives the
text back, and no piece contains the delimiter.
-/

import SrmotionProxy.Lib.Marks

namespace SrmotionProxy.Lib.Seq

variable {α : Type} [DecidableEq α] {delim : List α}

/-- The pieces of a text, the empty ones included. -/
inductive Pieces (delim : List α) : List α → List (List α) → Prop
  | last (text : List α) (habsent : find delim text = none) : Pieces delim text [text]
  | cut (front rest : List α) (pieces : List (List α))
      (hfirst : find delim (front ++ (delim ++ rest)) = some front.length)
      (hrest : Pieces delim rest pieces) :
      Pieces delim (front ++ (delim ++ rest)) (front :: pieces)

/-- Before the first occurrence there is none. -/
theorem find_front_none {front rest : List α} (hdelim : delim ≠ [])
    (hfirst : find delim (front ++ (delim ++ rest)) = some front.length) :
    find delim front = none := by
  rw [find_eq_none_iff]
  rintro ⟨before, after, rfl⟩
  obtain ⟨position, hbound, hposition⟩ :=
    find_le_occurrence before delim (after ++ (delim ++ rest))
  rw [List.append_assoc, List.append_assoc, hposition] at hfirst
  cases hfirst
  have hlength := List.length_pos_iff.mpr hdelim
  rw [List.length_append, List.length_append] at hbound
  omega

namespace Pieces

variable {text : List α} {pieces : List (List α)}

theorem ne_nil (hpieces : Pieces delim text pieces) : pieces ≠ [] := by
  cases hpieces with
  | last _ _ => exact List.cons_ne_nil _ _
  | cut _ _ _ _ _ => exact List.cons_ne_nil _ _

/-- Every text has pieces; the part that is left to cut becomes shorter. -/
theorem exist (hdelim : delim ≠ []) (text : List α) : ∃ pieces, Pieces delim text pieces := by
  induction hlength : text.length using Nat.strong_induction_on generalizing text with
  | _ length ih =>
      cases hfind : find delim text with
      | none => exact ⟨[text], .last text hfind⟩
      | some position =>
          obtain ⟨front, rest, rfl, rfl⟩ := find_eq_some_split hfind
          have hshorter : rest.length < length := by
            have hpositive := List.length_pos_iff.mpr hdelim
            rw [← hlength, List.length_append, List.length_append]
            omega
          obtain ⟨pieces, hpieces⟩ := ih rest.length hshorter rest rfl
          exact ⟨front :: pieces, .cut front rest pieces hfind hpieces⟩

/-- There is one way to cut. -/
theorem unique {other : List (List α)} (hpieces : Pieces delim text pieces)
    (hother : Pieces delim text other) : pieces = other := by
  induction hpieces generalizing other with
  | last text habsent =>
      cases hother with
      | last _ _ => rfl
      | cut front rest pieces hfirst hrest =>
          rw [habsent] at hfirst
          cases hfirst
  | cut front rest pieces hfirst hrest ih =>
      generalize hwhole : front ++ (delim ++ rest) = whole at hother
      cases hother with
      | last text habsent =>
          rw [hwhole, habsent] at hfirst
          cases hfirst
      | cut front' rest' pieces' hfirst' hrest' =>
          rw [hwhole, hfirst', Option.some.injEq] at hfirst
          obtain ⟨rfl, hback⟩ := List.append_inj hwhole hfirst.symm
          rw [List.append_right_inj] at hback
          subst hback
          rw [ih hrest']

/-- Joining the pieces gives the text back. -/
theorem intercalate (hpieces : Pieces delim text pieces) : delim.intercalate pieces = text := by
  induction hpieces with
  | last text habsent => exact List.intercalate_singleton
  | cut front rest pieces hfirst hrest ih =>
      rw [List.intercalate_cons_of_ne_nil hrest.ne_nil, ih, List.append_assoc]

/-- No piece contains the delimiter. -/
theorem free (hdelim : delim ≠ []) (hpieces : Pieces delim text pieces) :
    ∀ piece ∈ pieces, ¬ delim <:+: piece := by
  induction hpieces with
  | last text habsent =>
      intro piece hpiece
      rw [List.mem_singleton.mp hpiece]
      exact find_eq_none_iff.mp habsent
  | cut front rest pieces hfirst hrest ih =>
      rw [List.forall_mem_cons]
      exact ⟨find_eq_none_iff.mp (find_front_none hdelim hfirst), ih⟩

/-- An empty text has one empty piece. -/
theorem of_nil (hdelim : delim ≠ []) (hpieces : Pieces delim [] pieces) : pieces = [[]] := by
  have habsent : find delim [] = none := by rw [find, if_neg hdelim]
  exact hpieces.unique (.last [] habsent)

end Pieces

end SrmotionProxy.Lib.Seq
