/-
# Searching for marks that end with a separator

A text of lines `key|value` is often searched for a mark such as `ey|`: the end of a key
and the bar behind it. When values hold no bar, such a mark is found only at a bar, and
there only if the key ends with it. So the first hit is the first line whose key does.
-/

import SrmotionProxy.Lib.Text

namespace SrmotionProxy.Lib.Seq

variable {α : Type} [DecidableEq α]

/-! ## Occurrences -/

/-- A pattern is found if it occurs. -/
theorem find_isSome_iff {pattern text : List α} :
    (find pattern text).isSome = true ↔ pattern <:+: text := by
  induction text with
  | nil =>
      rw [find, List.infix_nil]
      by_cases hempty : pattern = [] <;> simp [hempty]
  | cons symbol text ih =>
      rw [find, List.infix_cons_iff]
      by_cases hstart : pattern.isPrefixOf (symbol :: text) = true
      · rw [if_pos hstart]
        exact iff_of_true rfl (.inl (List.isPrefixOf_iff_prefix.mp hstart))
      · rw [if_neg hstart, Option.isSome_map, ih]
        exact (or_iff_right fun h => hstart (List.isPrefixOf_iff_prefix.mpr h)).symm

theorem find_cons (pattern : List α) (symbol : α) (text : List α) :
    find pattern (symbol :: text) =
      if pattern <+: symbol :: text then some 0 else (find pattern text).map (· + 1) := by
  rw [find]
  exact if_congr List.isPrefixOf_iff_prefix rfl rfl

theorem find_eq_none_iff {pattern text : List α} :
    find pattern text = none ↔ ¬ pattern <:+: text := by
  rw [← find_isSome_iff, Option.isSome_iff_ne_none, not_not]

/-- The hit is an occurrence, and there is none before it. -/
theorem find_eq_some_iff {pattern text : List α} {position : Nat} :
    find pattern text = some position ↔
      position ≤ text.length ∧ pattern <+: text.drop position ∧
        ∀ earlier < position, ¬ pattern <+: text.drop earlier := by
  induction text generalizing position with
  | nil =>
      rw [find]
      cases position with
      | zero => by_cases hempty : pattern = [] <;> simp [hempty]
      | succ position => by_cases hempty : pattern = [] <;> simp [hempty]
  | cons symbol text ih =>
      rw [find_cons]
      cases position with
      | zero => by_cases hstart : pattern <+: symbol :: text <;> simp [hstart]
      | succ position =>
          by_cases hstart : pattern <+: symbol :: text
          · rw [if_pos hstart]
            refine iff_of_false (by simp) fun hall => ?_
            exact hall.2.2 0 (Nat.succ_pos position) hstart
          · have hshift : (find pattern text).map (· + 1) = some (position + 1) ↔
                find pattern text = some position := by simp
            rw [if_neg hstart, hshift, ih, List.length_cons, Nat.add_le_add_iff_right,
              List.drop_succ_cons]
            refine and_congr_right fun _ => and_congr_right fun _ => ?_
            constructor
            · intro hall earlier hearlier
              cases earlier with
              | zero => exact hstart
              | succ earlier => exact hall earlier (Nat.lt_of_succ_lt_succ hearlier)
            · exact fun hall earlier hearlier => hall (earlier + 1) (Nat.succ_lt_succ hearlier)

/-- The hit splits the text. -/
theorem find_eq_some_split {pattern text : List α} {position : Nat}
    (hfind : find pattern text = some position) :
    ∃ front back, text = front ++ (pattern ++ back) ∧ front.length = position := by
  obtain ⟨hlength, ⟨back, hback⟩, -⟩ := find_eq_some_iff.mp hfind
  refine ⟨text.take position, back, ?_, by rw [List.length_take]; omega⟩
  rw [hback, List.take_append_drop]

/-- The first hit comes no later than any occurrence. -/
theorem find_le_occurrence (before pattern tail : List α) :
    ∃ position ≤ before.length, find pattern (before ++ (pattern ++ tail)) = some position := by
  have hfound : (find pattern (before ++ (pattern ++ tail))).isSome = true :=
    find_isSome_iff.mpr (List.infix_append' before pattern tail)
  obtain ⟨position, hposition⟩ := Option.isSome_iff_exists.mp hfound
  refine ⟨position, ?_, hposition⟩
  by_contra hlater
  obtain ⟨-, -, hfirst⟩ := find_eq_some_iff.mp hposition
  apply hfirst before.length (by omega)
  rw [List.drop_left]
  exact List.prefix_append pattern tail

/-- The last hit lies within the text. -/
theorem rfind_fits {pattern text : List α} {position : Nat}
    (hfind : rfind pattern text = some position) : position + pattern.length ≤ text.length := by
  induction text generalizing position with
  | nil =>
      rw [rfind] at hfind
      by_cases hempty : pattern = []
      · rw [if_pos hempty] at hfind
        cases hfind
        rw [hempty]
        exact Nat.le_refl _
      · rw [if_neg hempty] at hfind
        cases hfind
  | cons symbol text ih =>
      rw [rfind] at hfind
      cases hlater : rfind pattern text with
      | some later =>
          rw [hlater] at hfind
          cases hfind
          have hfits := ih hlater
          rw [List.length_cons]
          omega
      | none =>
          rw [hlater] at hfind
          by_cases hstart : pattern.isPrefixOf (symbol :: text) = true
          · simp only [if_pos hstart] at hfind
            cases hfind
            rw [Nat.zero_add]
            exact (List.isPrefixOf_iff_prefix.mp hstart).length_le
          · simp only [if_neg hstart] at hfind
            cases hfind

/-- Whether the first hit lies within a front does not depend on what follows. -/
theorem find_append_left {pattern front : List α} {position : Nat}
    (hfits : position + pattern.length ≤ front.length) (rest : List α) :
    find pattern (front ++ rest) = some position ↔ find pattern front = some position := by
  have hlocal (place : Nat) (hplace : place ≤ position) :
      pattern <+: (front ++ rest).drop place ↔ pattern <+: front.drop place := by
    rw [List.drop_append_of_le_length (by omega)]
    refine ⟨fun hstart => ?_, fun hstart => hstart.trans (List.prefix_append _ _)⟩
    exact List.prefix_of_prefix_length_le hstart (List.prefix_append _ _)
      (by rw [List.length_drop]; omega)
  rw [find_eq_some_iff, find_eq_some_iff, hlocal position (Nat.le_refl _), List.length_append]
  refine and_congr (by omega) (and_congr_right fun _ => ?_)
  exact forall₂_congr fun earlier hearlier => not_congr (hlocal earlier (Nat.le_of_lt hearlier))

/-- A pattern that no position of the front begins is found behind the front only. -/
theorem find_append_isSome {pattern front : List α}
    (hfront : ∀ position < front.length, ¬ pattern <+: front.drop position ∧
      ¬ front.drop position <+: pattern) (rest : List α) :
    (find pattern (front ++ rest)).isSome = (find pattern rest).isSome := by
  induction front with
  | nil => rfl
  | cons symbol front ih =>
      have hhere := hfront 0 (Nat.succ_pos _)
      have hnot : ¬ pattern <+: symbol :: (front ++ rest) := by
        intro hstart
        rcases List.prefix_or_prefix_of_prefix hstart (List.prefix_append (symbol :: front) rest)
          with hin | hout
        · exact hhere.1 hin
        · exact hhere.2 hout
      have hrest := ih fun position hposition =>
        hfront (position + 1) (Nat.succ_lt_succ hposition)
      rw [List.cons_append, find_cons, if_neg hnot, Option.isSome_map, hrest]

section Marks

variable {bar newline : α} {body tail : List α}

/-- A mark cannot be where there is no bar. -/
theorem find_mark_of_free {text : List α} (hfree : bar ∉ text) (body tail : List α) :
    find (body ++ bar :: tail) text = none := by
  rw [find_eq_none_iff]
  intro hoccurs
  exact hfree (hoccurs.subset (List.mem_append_right _ List.mem_cons_self))

omit [DecidableEq α] in
/-- Two texts up to their first bars. -/
theorem upto_bar_prefix_iff {head rest : List α} (hbody : bar ∉ body) (hhead : bar ∉ head) :
    body ++ bar :: tail <+: head ++ bar :: rest ↔ body = head ∧ tail <+: rest := by
  induction body generalizing head with
  | nil =>
      cases head with
      | nil => rw [List.nil_append, List.nil_append, List.prefix_cons_iff]; simp
      | cons symbol head =>
          have hsymbol : bar ≠ symbol := fun h => hhead (h ▸ List.mem_cons_self)
          simp [List.cons_prefix_cons, hsymbol]
  | cons first body ih =>
      have hfirst : first ≠ bar := fun h => hbody (h ▸ List.mem_cons_self)
      cases head with
      | nil => simp [List.cons_prefix_cons, hfirst]
      | cons symbol head =>
          rw [List.cons_append, List.cons_append, List.cons_prefix_cons,
            ih (fun h => hbody (List.mem_cons_of_mem _ h))
              (fun h => hhead (List.mem_cons_of_mem _ h)), List.cons.injEq, and_assoc]

/-- A mark is at the first bar or behind it. -/
theorem find_mark {head : List α} (hbody : bar ∉ body) (hhead : bar ∉ head) (rest : List α) :
    find (body ++ bar :: tail) (head ++ bar :: rest) =
      if body <:+ head ∧ tail <+: rest then some (head.length - body.length)
      else (find (body ++ bar :: tail) rest).map (· + (head.length + 1)) := by
  induction head with
  | nil =>
      have hstart : body ++ bar :: tail <+: [] ++ bar :: rest ↔ body = [] ∧ tail <+: rest :=
        upto_bar_prefix_iff hbody hhead
      rw [List.nil_append] at hstart ⊢
      rw [find_cons, if_congr hstart rfl rfl]
      by_cases hhere : body = [] ∧ tail <+: rest
      · rw [if_pos hhere, if_pos ⟨List.suffix_nil.mpr hhere.1, hhere.2⟩, List.length_nil,
          Nat.zero_sub]
      · rw [if_neg hhere, if_neg fun h => hhere ⟨List.suffix_nil.mp h.1, h.2⟩]
        rfl
  | cons symbol head ih =>
      have hrest := ih fun h => hhead (List.mem_cons_of_mem symbol h)
      have hstart : body ++ bar :: tail <+: (symbol :: head) ++ bar :: rest ↔
          body = symbol :: head ∧ tail <+: rest := upto_bar_prefix_iff hbody hhead
      rw [List.cons_append] at hstart ⊢
      rw [find_cons, if_congr hstart rfl rfl, hrest]
      by_cases hwhole : body = symbol :: head ∧ tail <+: rest
      · rw [if_pos hwhole, if_pos ⟨hwhole.1 ▸ List.suffix_refl _, hwhole.2⟩, hwhole.1,
          Nat.sub_self]
      · rw [if_neg hwhole]
        by_cases hlater : body <:+ head ∧ tail <+: rest
        · rw [if_pos hlater, if_pos ⟨hlater.1.trans (List.suffix_cons symbol head), hlater.2⟩,
            Option.map_some, List.length_cons, Nat.sub_add_comm hlater.1.length_le]
        · have hnone : ¬ (body <:+ symbol :: head ∧ tail <+: rest) := by
            rintro ⟨hsuffix, htail⟩
            rcases List.suffix_cons_iff.mp hsuffix with hsame | hshort
            · exact hwhole ⟨hsame, htail⟩
            · exact hlater ⟨hshort, htail⟩
          rw [if_neg hlater, if_neg hnone, Option.map_map]
          rfl

omit [DecidableEq α] in
/-- A line starts behind a newline. -/
theorem suffix_line_iff (hbody : newline ∉ body) (lead key : List α) :
    body <:+ lead ++ newline :: key ↔ body <:+ key := by
  constructor
  · intro hsuffix
    rcases List.suffix_or_suffix_of_suffix hsuffix (List.suffix_append lead (newline :: key)) with
      hshort | hlong
    · rcases List.suffix_cons_iff.mp hshort with rfl | hkey
      · exact absurd List.mem_cons_self hbody
      · exact hkey
    · exact absurd (hlong.subset List.mem_cons_self) hbody
  · intro hsuffix
    exact hsuffix.trans ((List.suffix_cons newline key).trans (List.suffix_append lead _))

end Marks

/-! ## Texts of lines -/

section Forms

variable {bar newline : α} {ending : List α}

/-- What follows a value: the next lines, each on a new line, and the ending. -/
def moreLines (bar newline : α) (ending : List α) : List (List α × List α) → List α
  | [] => ending
  | line :: lines =>
      newline :: (line.1 ++ bar :: (line.2 ++ moreLines bar newline ending lines))

/-- Lines `key|value` with separators in their places only. -/
def FormLines (bar newline : α) (lines : List (List α × List α)) : Prop :=
  ∀ line ∈ lines, bar ∉ line.1 ∧ newline ∉ line.1 ∧ bar ∉ line.2

omit [DecidableEq α] in
theorem bar_not_mem_line (hbar : bar ≠ newline) {lead key : List α} (hlead : bar ∉ lead)
    (hkey : bar ∉ key) : bar ∉ lead ++ newline :: key := by
  intro hmem
  rcases List.mem_append.mp hmem with hold | hnew
  · exact hlead hold
  · rcases List.mem_cons.mp hnew with hsame | hin
    · exact hbar hsame
    · exact hkey hin

/-- Where no key ends with it, a mark is not found. -/
theorem find_mark_none (hbar : bar ≠ newline) {body tail : List α} (hbody : bar ∉ body)
    (hnewline : newline ∉ body) {lines : List (List α × List α)}
    (hlines : FormLines bar newline lines) (hending : bar ∉ ending) {lead : List α}
    (hlead : bar ∉ lead)
    (hnone : ∀ line ∈ lines, body <:+ line.1 → ∀ more, ¬ tail <+: line.2 ++ more) :
    find (body ++ bar :: tail) (lead ++ moreLines bar newline ending lines) = none := by
  induction lines generalizing lead with
  | nil =>
      refine find_mark_of_free (fun hmem => ?_) body tail
      exact (List.mem_append.mp hmem).elim hlead hending
  | cons line lines ih =>
      rw [FormLines, List.forall_mem_cons] at hlines
      rw [List.forall_mem_cons] at hnone
      have hhead := bar_not_mem_line hbar hlead hlines.1.1
      have hmiss : ¬ (body <:+ lead ++ newline :: line.1 ∧
          tail <+: line.2 ++ moreLines bar newline ending lines) := by
        rintro ⟨hsuffix, htail⟩
        exact hnone.1 ((suffix_line_iff hnewline lead line.1).mp hsuffix) _ htail
      have hsplit : lead ++ moreLines bar newline ending (line :: lines) =
          (lead ++ newline :: line.1) ++ bar :: (line.2 ++ moreLines bar newline ending lines) := by
        rw [moreLines, List.append_assoc, List.cons_append]
      rw [hsplit, find_mark hbody hhead, if_neg hmiss, ih hlines.2 hlines.1.2.2 hnone.2]
      rfl

/-- A mark is found in the first line whose key ends with it. -/
theorem find_mark_some (hbar : bar ≠ newline) {body : List α} (hbody : bar ∉ body)
    (hnewline : newline ∉ body) {before after : List (List α × List α)}
    {line : List α × List α} (hlines : FormLines bar newline (before ++ line :: after))
    {lead : List α} (hlead : bar ∉ lead) (hnone : ∀ earlier ∈ before, ¬ body <:+ earlier.1)
    (hfound : body <:+ line.1) :
    ∃ front, lead ++ moreLines bar newline ending (before ++ line :: after) =
        front ++ (body ++ bar :: (line.2 ++ moreLines bar newline ending after)) ∧
      find (body ++ [bar]) (lead ++ moreLines bar newline ending (before ++ line :: after)) =
        some front.length ∧
      front.length ≤
        lead.length + (moreLines bar newline [] before).length + 1 + line.1.length := by
  induction before generalizing lead with
  | nil =>
      rw [FormLines, List.nil_append, List.forall_mem_cons] at hlines
      have hhead := bar_not_mem_line hbar hlead hlines.1.1
      have hsplit : lead ++ moreLines bar newline ending ([] ++ line :: after) =
          (lead ++ newline :: line.1) ++ bar :: (line.2 ++ moreLines bar newline ending after) := by
        rw [List.nil_append, moreLines, List.append_assoc, List.cons_append]
      obtain ⟨start, hstart⟩ := hfound
      refine ⟨lead ++ newline :: start, ?_, ?_, ?_⟩
      · rw [hsplit, ← hstart]
        simp only [List.append_assoc, List.cons_append]
      · have hsuffix : body <:+ lead ++ newline :: line.1 :=
          (suffix_line_iff hnewline lead line.1).mpr ⟨start, hstart⟩
        rw [hsplit, find_mark hbody hhead, if_pos ⟨hsuffix, List.nil_prefix⟩, ← hstart]
        simp only [List.length_append, List.length_cons]
        congr 1
        omega
      · rw [← hstart]
        simp only [List.length_append, List.length_cons]
        omega
  | cons earlier before ih =>
      rw [FormLines, List.cons_append, List.forall_mem_cons] at hlines
      rw [List.forall_mem_cons] at hnone
      have hhead := bar_not_mem_line hbar hlead hlines.1.1
      have hsplit : lead ++ moreLines bar newline ending (earlier :: before ++ line :: after) =
          (lead ++ newline :: earlier.1) ++ bar ::
            (earlier.2 ++ moreLines bar newline ending (before ++ line :: after)) := by
        rw [List.cons_append, moreLines, List.append_assoc, List.cons_append]
      have hmiss : ¬ (body <:+ lead ++ newline :: earlier.1 ∧ [] <+:
          earlier.2 ++ moreLines bar newline ending (before ++ line :: after)) :=
        fun h => hnone.1 ((suffix_line_iff hnewline lead earlier.1).mp h.1)
      obtain ⟨front, hfront, hfind, hlength⟩ := ih hlines.2 hlines.1.2.2 hnone.2
      refine ⟨lead ++ newline :: (earlier.1 ++ bar :: front), ?_, ?_, ?_⟩
      · rw [hsplit, hfront]
        simp only [List.append_assoc, List.cons_append]
      · rw [hsplit, find_mark hbody hhead, if_neg hmiss, hfind, Option.map_some]
        simp only [List.length_append, List.length_cons]
        congr 1
        omega
      · simp only [List.length_append, List.length_cons, moreLines] at hlength ⊢
        omega

omit [DecidableEq α] in
/-- The lines in front of a value are no longer than their number allows. -/
theorem moreLines_length_le {size : Nat} {lines : List (List α × List α)}
    (hsize : ∀ line ∈ lines, line.1.length + line.2.length + 2 ≤ size) :
    (moreLines bar newline [] lines).length ≤ lines.length * size := by
  induction lines with
  | nil => exact Nat.zero_le _
  | cons line lines ih =>
      rw [List.forall_mem_cons] at hsize
      have hrest := ih hsize.2
      simp only [moreLines, List.length_append, List.length_cons, Nat.add_mul, Nat.one_mul]
      omega

/-! ### The first line starts at once -/

/-- The lines with newlines between them, and the ending. -/
def formText (bar newline : α) (ending : List α) (lines : List (List α × List α)) : List α :=
  [newline].intercalate (lines.map fun line => line.1 ++ bar :: line.2) ++ ending

omit [DecidableEq α] in
theorem newline_cons_formText {lines : List (List α × List α)} (hsome : lines ≠ []) :
    newline :: formText bar newline ending lines = moreLines bar newline ending lines := by
  obtain ⟨first, rest, rfl⟩ := List.exists_cons_of_ne_nil hsome
  clear hsome
  induction rest generalizing first with
  | nil => simp only [formText, moreLines, List.map_cons, List.map_nil,
      List.intercalate_singleton, List.append_assoc, List.cons_append]
  | cons second rest ih =>
      rw [moreLines, ← ih second]
      simp only [formText, List.map_cons, List.intercalate_cons_cons, List.append_assoc,
        List.cons_append, List.nil_append]

/-- A mark does not start with a newline. -/
theorem find_newline_cons (hbar : bar ≠ newline) {body : List α} (hnewline : newline ∉ body)
    (tail text : List α) :
    find (body ++ bar :: tail) (newline :: text) =
      (find (body ++ bar :: tail) text).map (· + 1) := by
  rw [find_cons, if_neg]
  cases body with
  | nil => exact fun hstart => hbar (List.cons_prefix_cons.mp hstart).1
  | cons first body =>
      exact fun hstart => hnewline ((List.cons_prefix_cons.mp hstart).1 ▸ List.mem_cons_self)

theorem formText_find_none (hbar : bar ≠ newline) {body tail : List α} (hbody : bar ∉ body)
    (hnewline : newline ∉ body) {lines : List (List α × List α)} (hsome : lines ≠ [])
    (hlines : FormLines bar newline lines) (hending : bar ∉ ending)
    (hnone : ∀ line ∈ lines, body <:+ line.1 → ∀ more, ¬ tail <+: line.2 ++ more) :
    find (body ++ bar :: tail) (formText bar newline ending lines) = none := by
  have hmiss := find_mark_none hbar hbody hnewline hlines hending List.not_mem_nil hnone
  rwa [List.nil_append, ← newline_cons_formText hsome, find_newline_cons hbar hnewline,
    Option.map_eq_none_iff] at hmiss

theorem formText_find_some (hbar : bar ≠ newline) {body : List α} (hbody : bar ∉ body)
    (hnewline : newline ∉ body) {before after : List (List α × List α)}
    {line : List α × List α} (hlines : FormLines bar newline (before ++ line :: after))
    (hnone : ∀ earlier ∈ before, ¬ body <:+ earlier.1) (hfound : body <:+ line.1) :
    ∃ front, formText bar newline ending (before ++ line :: after) =
        front ++ (body ++ bar :: (line.2 ++ moreLines bar newline ending after)) ∧
      find (body ++ [bar]) (formText bar newline ending (before ++ line :: after)) =
        some front.length ∧
      front.length ≤ (moreLines bar newline [] before).length + line.1.length := by
  have hsome : before ++ line :: after ≠ [] := by simp
  obtain ⟨lead, hsplit, hfind, hlength⟩ :=
    @find_mark_some α _ bar newline ending hbar body hbody hnewline before after line hlines []
      List.not_mem_nil hnone hfound
  rw [List.nil_append, ← newline_cons_formText hsome] at hsplit hfind
  cases lead with
  | nil =>
      -- the text after the newline cannot start with the mark
      rw [find_newline_cons hbar hnewline] at hfind
      cases hrest : find (body ++ [bar]) (formText bar newline ending (before ++ line :: after)) <;>
        rw [hrest] at hfind <;> cases hfind
  | cons symbol front =>
      rw [List.cons_append, List.cons.injEq] at hsplit
      rw [find_newline_cons hbar hnewline, List.length_cons, Option.map_eq_some_iff] at hfind
      obtain ⟨position, hposition, hnext⟩ := hfind
      rw [List.length_nil, List.length_cons] at hlength
      refine ⟨front, hsplit.2, ?_, by omega⟩
      rw [hposition, Nat.succ.inj hnext]

end Forms

end SrmotionProxy.Lib.Seq
