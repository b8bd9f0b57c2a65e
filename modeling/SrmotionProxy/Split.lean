/-
# The helper `split`

`events.cpp` and `proxy.cpp` contain the same function `split`: a loop with two cursors
that collects the non-empty tokens. This module says that it ends, and that the tokens
are the non-empty pieces between the delimiters.
-/

import SrmotionProxy.Lib.Pieces
import SrmotionProxy.Events.Common

namespace SrmotionProxy.Events

open SrmotionProxy.Lib

variable {str delim : Bytes}

/-- The rounds from a cursor on collect the non-empty pieces of what is behind it. Each
round but the last moves the cursor by the length of the delimiter at least. -/
theorem splitFrom_eq (hdelim : delim ≠ []) {pieces : List Bytes} {fuel prev : Nat}
    (hpieces : Seq.Pieces delim (str.drop prev) pieces) (hprev : prev ≤ str.length)
    (hfuel : str.length - prev < fuel) :
    splitFrom str delim fuel prev = some (.ok (pieces.filter (· ≠ []))) := by
  induction fuel generalizing prev pieces with
  | zero => exact absurd hfuel (Nat.not_lt_zero _)
  | succ fuel ih =>
      have hlength : (str.drop prev).length = str.length - prev := List.length_drop
      have hpositive : 0 < delim.length := List.length_pos_iff.mpr hdelim
      have htaken (count : Nat) : substr str prev count = .ok ((str.drop prev).take count) :=
        if_pos hprev
      rw [splitFrom]
      simp only [htaken]
      generalize hbehind : str.drop prev = behind at hpieces hlength
      cases hpieces with
      | last _ habsent =>
          have htoken : behind.take (str.length - prev) = behind := by
            rw [← hlength, List.take_length]
          simp only [habsent, lt_self_iff_false, false_and, if_false, htoken]
          by_cases hempty : behind = []
          · simp [hempty, Except.map]
          · simp [hempty, Except.map]
      | cut front rest pieces hfirst hrest =>
          rw [List.length_append, List.length_append] at hlength
          have htoken : (front ++ (delim ++ rest)).take (prev + front.length - prev) = front := by
            rw [Nat.add_sub_cancel_left, List.take_left]
          have hnext : str.drop (prev + front.length + delim.length) = rest := by
            rw [Nat.add_assoc, ← List.drop_drop, hbehind, ← List.append_assoc,
              ← List.length_append, List.drop_left]
          have hlater : (if prev + front.length < str.length ∧
              prev + front.length + delim.length < str.length then
                splitFrom str delim fuel (prev + front.length + delim.length)
              else some (.ok [])) = some (.ok (pieces.filter (· ≠ []))) := by
            by_cases hmore : prev + front.length + delim.length < str.length
            · rw [if_pos ⟨by omega, hmore⟩]
              exact ih (by rwa [hnext]) (by omega) (by omega)
            · -- The text ends with the delimiter, and the last piece is empty.
              have hnone : rest = [] := List.eq_nil_of_length_eq_zero (by omega)
              rw [hnone] at hrest
              rw [if_neg fun hboth => hmore hboth.2, hrest.of_nil hdelim]
              rfl
          simp only [hfirst, htoken, hlater]
          by_cases hempty : front = []
          · simp [hempty, Except.map]
          · simp [hempty, Except.map]

/-- `split` returns after at most one round for each byte and one more, and its tokens are the
non-empty pieces between the leftmost non-overlapping occurrences of the delimiter. -/
theorem split_tokenises (str delim : Bytes) (hdelim : delim ≠ []) :
    ∃ pieces, Seq.Pieces delim str pieces ∧
      (∀ rounds, str.length < rounds →
        splitFrom str delim rounds 0 = some (.ok (pieces.filter (· ≠ [])))) ∧
      split str delim = .ok (pieces.filter (· ≠ [])) ∧
      (∀ piece ∈ pieces, ¬ delim <:+: piece) ∧ delim.intercalate pieces = str ∧
      ∀ other, Seq.Pieces delim str other → other = pieces := by
  obtain ⟨pieces, hpieces⟩ := Seq.Pieces.exist hdelim str
  have hreturns (rounds : Nat) (hrounds : str.length < rounds) :
      splitFrom str delim rounds 0 = some (.ok (pieces.filter (· ≠ []))) :=
    splitFrom_eq hdelim (by rwa [List.drop_zero]) (Nat.zero_le _) hrounds
  have hsplit : split str delim = .ok (pieces.filter (· ≠ [])) := by
    rw [split, hreturns (str.length + 1) (Nat.lt_succ_self _)]
    rfl
  exact ⟨pieces, hpieces, hreturns, hsplit, hpieces.free hdelim, hpieces.intercalate,
    fun other hother => hother.unique hpieces⟩

/-- Delimiters at both ends and next to each other. -/
theorem split_tokenises_bars : ∃ pieces, Seq.Pieces (ascii "||") (ascii "||a|||||b||") pieces ∧
    pieces = [[], ascii "a", [], ascii "|b", []] ∧
    split (ascii "||a|||||b||") (ascii "||") = .ok [ascii "a", ascii "|b"] := by
  obtain ⟨pieces, hpieces, -, hsplit, -, -, hunique⟩ :=
    split_tokenises (ascii "||a|||||b||") (ascii "||") (by decide)
  have hcut : Seq.Pieces (ascii "||") (ascii "||a|||||b||")
      [[], ascii "a", [], ascii "|b", []] :=
    .cut [] (ascii "a|||||b||") _ (by decide) (.cut (ascii "a") (ascii "|||b||") _ (by decide)
      (.cut [] (ascii "|b||") _ (by decide) (.cut (ascii "|b") [] _ (by decide)
        (.last [] (by decide)))))
  have hpieces' := hunique _ hcut
  subst hpieces'
  exact ⟨_, hcut, rfl, hsplit⟩

end SrmotionProxy.Events
