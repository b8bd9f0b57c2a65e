/-
# Lines that are not empty

The lines of a text without the empty ones. A separator splits them wherever it stands,
so the lines of several texts in a row are the lines of each exactly if a separator
stands between any two neighbours.
-/

import SrmotionProxy.Lib.Lines

namespace SrmotionProxy.Lib.Seq

variable {α : Type} [DecidableEq α] {separator : α}

/-- The lines of a text, empty ones dropped. -/
def filledLines (separator : α) (text : List α) : List (List α) :=
  (getlines separator text).filter (· ≠ [])

/-! ## Where lines end -/

theorem filledLines_nil : filledLines separator [] = [] := rfl

theorem filledLines_of_free {line : List α} (hfree : separator ∉ line) (hsome : line ≠ []) :
    filledLines separator line = [line] := by
  rw [filledLines, getlines_of_free hfree hsome]
  exact List.filter_cons_of_pos (decide_eq_true hsome)

theorem filledLines_separator (rest : List α) :
    filledLines separator (separator :: rest) = filledLines separator rest := by
  rw [filledLines, getlines, if_pos rfl, List.filter_cons_of_neg (by simp), filledLines]

/-- The first separator ends a line. -/
theorem filledLines_line_append {line : List α} (hfree : separator ∉ line) (rest : List α) :
    filledLines separator (line ++ separator :: rest) =
      filledLines separator line ++ filledLines separator rest := by
  cases line with
  | nil => exact filledLines_separator rest
  | cons symbol line =>
      have hsome : symbol :: line ≠ [] := List.cons_ne_nil _ _
      rw [filledLines_of_free hfree hsome, filledLines, getlines_append_cons hfree,
        List.filter_cons_of_pos (by simp), filledLines]
      rfl

/-- Every separator does. -/
theorem filledLines_append_cons (front rest : List α) :
    filledLines separator (front ++ separator :: rest) =
      filledLines separator front ++ filledLines separator rest := by
  by_cases hmem : separator ∈ front
  · obtain ⟨line, later, hsplit, hfree⟩ := List.eq_append_cons_of_mem hmem
    have hshorter : later.length < front.length := by
      rw [hsplit, List.length_append, List.length_cons]
      omega
    have ih := filledLines_append_cons later rest
    rw [hsplit, List.append_assoc, List.cons_append, filledLines_line_append hfree, ih,
      filledLines_line_append hfree, List.append_assoc]
  · exact filledLines_line_append hmem rest
termination_by front.length

/-- The text up to its end does not change how many lines the rest has, if no separator
stands between them. -/
theorem length_filledLines_free_append {line rest : List α} (hfree : separator ∉ line)
    (hrest : rest ≠ []) (hhead : rest.head? ≠ some separator) :
    (filledLines separator (line ++ rest)).length = (filledLines separator rest).length := by
  by_cases hmem : separator ∈ rest
  · obtain ⟨first, later, rfl, hfirst⟩ := List.eq_append_cons_of_mem hmem
    have hsome : first ≠ [] := by
      rintro rfl
      exact hhead rfl
    have hline : separator ∉ line ++ first := by
      rw [List.mem_append, not_or]
      exact ⟨hfree, hfirst⟩
    rw [← List.append_assoc, filledLines_line_append hline, filledLines_line_append hfirst,
      filledLines_of_free hline (List.append_ne_nil_of_right_ne_nil _ hsome),
      filledLines_of_free hfirst hsome, List.length_append, List.length_append]
    rfl
  · have hline : separator ∉ line ++ rest := by
      rw [List.mem_append, not_or]
      exact ⟨hfree, hmem⟩
    rw [filledLines_of_free hline (List.append_ne_nil_of_right_ne_nil _ hrest),
      filledLines_of_free hmem hrest]
    rfl

/-! ## Two texts in a row -/

/-- A separator stands between the texts. -/
def Separated (separator : α) (front rest : List α) : Prop :=
  front.getLast? = some separator ∨ rest.head? = some separator

theorem filledLines_append_of_separated {front rest : List α}
    (hseparated : Separated separator front rest) :
    filledLines separator (front ++ rest) =
      filledLines separator front ++ filledLines separator rest := by
  rcases hseparated with hlast | hhead
  · obtain ⟨before, rfl⟩ := List.getLast?_eq_some_iff.mp hlast
    rw [List.append_assoc, List.singleton_append, filledLines_append_cons,
      filledLines_append_cons, filledLines, List.append_assoc]
    rfl
  · obtain ⟨after, rfl⟩ := List.head?_eq_some_iff.mp hhead
    rw [filledLines_append_cons, filledLines_separator]

/-- Without one, the last line of the first text and the first line of the second are one
line. -/
theorem length_filledLines_of_not_separated {front rest : List α} (hfront : front ≠ [])
    (hrest : rest ≠ []) (hjoined : ¬ Separated separator front rest) :
    (filledLines separator (front ++ rest)).length + 1 =
      (filledLines separator front).length + (filledLines separator rest).length := by
  rw [Separated, not_or] at hjoined
  obtain ⟨hlast, hhead⟩ := hjoined
  by_cases hmem : separator ∈ front
  · obtain ⟨line, later, hsplit, hfree⟩ := List.eq_append_cons_of_mem hmem
    have hlater : later ≠ [] := by
      rintro rfl
      rw [hsplit, List.getLast?_concat] at hlast
      exact hlast rfl
    have hlaterLast : later.getLast? ≠ some separator := by
      rw [hsplit, List.getLast?_append_cons, List.getLast?_cons_of_ne_nil hlater] at hlast
      exact hlast
    have hshorter : later.length < front.length := by
      rw [hsplit, List.length_append, List.length_cons]
      omega
    have ih := length_filledLines_of_not_separated hlater hrest
      (fun hseparated => hseparated.elim hlaterLast hhead)
    rw [hsplit, List.append_assoc, List.cons_append, filledLines_append_cons,
      filledLines_append_cons, List.length_append, List.length_append]
    omega
  · rw [length_filledLines_free_append hmem hrest hhead, filledLines_of_free hmem hfront,
      List.length_singleton]
    omega
termination_by front.length

theorem length_filledLines_append_le {front rest : List α} (hfront : front ≠ [])
    (hrest : rest ≠ []) : (filledLines separator (front ++ rest)).length ≤
      (filledLines separator front).length + (filledLines separator rest).length := by
  by_cases hseparated : Separated separator front rest
  · rw [filledLines_append_of_separated hseparated, List.length_append]
  · have hone := length_filledLines_of_not_separated hfront hrest hseparated
    omega

/-! ## Many texts in a row -/

theorem length_filledLines_flatten_le {texts : List (List α)} (hsome : ∀ text ∈ texts, text ≠ []) :
    (filledLines separator texts.flatten).length ≤
      (texts.flatMap (filledLines separator)).length := by
  induction texts with
  | nil => rfl
  | cons text texts ih =>
      rw [List.forall_mem_cons] at hsome
      rw [List.flatten_cons, List.flatMap_cons, List.length_append]
      have hle := ih hsome.2
      by_cases hnone : texts.flatten = []
      · rw [hnone, List.append_nil]
        omega
      · have hstep := @length_filledLines_append_le _ _ separator _ _ hsome.1 hnone
        omega

/-- Texts in a row have the lines of each exactly if every two neighbours are separated. -/
theorem filledLines_flatten_iff {texts : List (List α)} (hsome : ∀ text ∈ texts, text ≠ []) :
    filledLines separator texts.flatten = texts.flatMap (filledLines separator) ↔
      List.IsChain (Separated separator) texts := by
  induction texts with
  | nil => exact iff_of_true rfl .nil
  | cons text texts ih =>
      rw [List.forall_mem_cons] at hsome
      cases texts with
      | nil => simp [filledLines]
      | cons next texts =>
          have hnext : next ≠ [] := hsome.2 next List.mem_cons_self
          have hrest : (next :: texts).flatten ≠ [] := by
            rw [List.flatten_cons]
            exact List.append_ne_nil_of_left_ne_nil hnext _
          have hhead : (next :: texts).flatten.head? = next.head? := by
            rw [List.flatten_cons, List.head?_append_of_ne_nil _ hnext]
          have hsame : Separated separator text (next :: texts).flatten ↔
              Separated separator text next := by
            rw [Separated, Separated, hhead]
          rw [List.isChain_cons_cons, ← ih hsome.2, ← hsame, @List.flatten_cons _ text,
            @List.flatMap_cons _ _ text]
          constructor
          · intro hlines
            -- a missing separator costs a line that nothing makes up for
            have hseparated : Separated separator text (next :: texts).flatten := by
              by_contra hjoined
              have hone := length_filledLines_of_not_separated hsome.1 hrest hjoined
              have hle := @length_filledLines_flatten_le _ _ separator _ hsome.2
              rw [hlines, List.length_append] at hone
              omega
            rw [filledLines_append_of_separated hseparated] at hlines
            exact ⟨hseparated, List.append_cancel_left hlines⟩
          · rintro ⟨hseparated, hlines⟩
            rw [filledLines_append_of_separated hseparated, hlines]

end SrmotionProxy.Lib.Seq
