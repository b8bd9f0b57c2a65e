/-
# Splitting at a separator and joining again

`std::getline` never delivers a final empty token. This module says what that means
for the two ways texts are put together: tokens joined by separators, and tokens that
each end in one. Joining what was split gives the text back up to a final separator.
-/

import SrmotionProxy.Lib.Text

namespace SrmotionProxy.Lib.Seq

variable {α : Type} [DecidableEq α] {separator : α}

/-- The text up to a separator is one token. -/
theorem getlines_append_cons {token : List α} (hfree : separator ∉ token) (rest : List α) :
    getlines separator (token ++ separator :: rest) = token :: getlines separator rest := by
  induction token with
  | nil => rw [List.nil_append, getlines, if_pos rfl]
  | cons symbol token ih =>
      simp only [List.mem_cons, not_or] at hfree
      rw [List.cons_append, getlines, if_neg (Ne.symm hfree.1), ih hfree.2]

/-- A text without a separator is its own token, if there is anything in it. -/
theorem getlines_of_free {token : List α} (hfree : separator ∉ token) (hsome : token ≠ []) :
    getlines separator token = [token] := by
  induction token with
  | nil => exact absurd rfl hsome
  | cons symbol token ih =>
      simp only [List.mem_cons, not_or] at hfree
      rw [getlines, if_neg (Ne.symm hfree.1)]
      by_cases hempty : token = []
      · subst hempty
        rfl
      · rw [ih hfree.2 hempty]

/-- The first token is the text up to the first separator. -/
theorem getlines_eq_cons {text : List α} (hsome : text ≠ []) :
    ∃ tokens, getlines separator text = text.takeWhile (· ≠ separator) :: tokens := by
  induction text with
  | nil => exact absurd rfl hsome
  | cons symbol rest ih =>
      rw [getlines]
      by_cases hsymbol : symbol = separator
      · rw [if_pos hsymbol, List.takeWhile_cons_of_neg (by simpa using hsymbol)]
        exact ⟨_, rfl⟩
      · rw [if_neg hsymbol, List.takeWhile_cons_of_pos (by simpa using hsymbol)]
        cases rest with
        | nil => exact ⟨[], rfl⟩
        | cons next rest =>
            obtain ⟨tokens, htokens⟩ := ih (List.cons_ne_nil _ _)
            rw [htokens]
            exact ⟨tokens, rfl⟩

/-- The first token of what follows a front is what the first token adds to the front. -/
theorem getlines_append {front : List α} (hfree : separator ∉ front) (hsome : front ≠ [])
    (rest : List α) : ∃ token tokens, getlines separator (front ++ rest) =
      (front ++ token) :: tokens ∧ token <+: rest := by
  obtain ⟨tokens, htokens⟩ :=
    @getlines_eq_cons _ _ separator (front ++ rest) (List.append_ne_nil_of_left_ne_nil hsome rest)
  have hfront : ∀ symbol ∈ front, decide (symbol ≠ separator) = true := by
    intro symbol hsymbol
    apply decide_eq_true
    rintro rfl
    exact hfree hsymbol
  rw [List.takeWhile_append_of_pos hfront] at htokens
  exact ⟨_, tokens, htokens, List.takeWhile_prefix _⟩

/-- A token is a prefix of the text if it is the first. -/
theorem getlines_head_prefix {text token : List α} {tokens : List (List α)}
    (htokens : getlines separator text = token :: tokens) : token <+: text := by
  have hsome : text ≠ [] := by
    rintro rfl
    cases htokens
  obtain ⟨others, hothers⟩ := @getlines_eq_cons _ _ separator text hsome
  rw [htokens, List.cons.injEq] at hothers
  rw [hothers.1]
  exact List.takeWhile_prefix _

theorem getlines_eq_nil_iff {text : List α} : getlines separator text = [] ↔ text = [] := by
  cases text with
  | nil => simp [getlines]
  | cons symbol text =>
      rw [getlines]
      by_cases hsymbol : symbol = separator
      · simp [hsymbol]
      · cases hrest : getlines separator text <;> simp [hsymbol]

/-- Something behind a separator is a further token. -/
theorem two_le_length_getlines {rest : List α} (hsome : rest ≠ []) (front : List α) :
    2 ≤ (getlines separator (front ++ separator :: rest)).length := by
  have hrest : getlines separator rest ≠ [] := fun hnone => hsome (getlines_eq_nil_iff.mp hnone)
  induction front with
  | nil =>
      rw [List.nil_append, getlines, if_pos rfl, List.length_cons]
      have hlength := List.length_pos_iff.mpr hrest
      omega
  | cons symbol front ih =>
      rw [List.cons_append, getlines]
      by_cases hsymbol : symbol = separator
      · rw [if_pos hsymbol, List.length_cons]
        omega
      · rw [if_neg hsymbol]
        cases htokens : getlines separator (front ++ separator :: rest) with
        | nil =>
            rw [htokens] at ih
            cases ih
        | cons token tokens =>
            rw [htokens] at ih
            exact ih

/-- A text of one token is the token, with or without a separator behind it. -/
theorem getlines_eq_singleton_iff {token text : List α} (hfree : separator ∉ token)
    (hsome : token ≠ []) :
    getlines separator text = [token] ↔ text = token ∨ text = token ++ [separator] := by
  constructor
  · intro htokens
    by_cases hmem : separator ∈ text
    · obtain ⟨front, rest, rfl, hfront⟩ := List.eq_append_cons_of_mem hmem
      rw [getlines_append_cons hfront, List.cons.injEq, getlines_eq_nil_iff] at htokens
      obtain ⟨rfl, rfl⟩ := htokens
      exact .inr rfl
    · have htext : text ≠ [] := by
        rintro rfl
        cases htokens
      rw [getlines_of_free hmem htext, List.cons.injEq] at htokens
      exact .inl htokens.1
  · rintro (rfl | rfl)
    · exact getlines_of_free hfree hsome
    · exact getlines_append_cons hfree []

/-- Tokens that each end in a separator are all delivered. -/
theorem getlines_terminated (tokens : List (List α))
    (hfree : ∀ token ∈ tokens, separator ∉ token) :
    getlines separator (tokens.flatMap fun token => token ++ [separator]) = tokens := by
  induction tokens with
  | nil => rfl
  | cons token tokens ih =>
      rw [List.flatMap_cons, List.append_assoc, List.singleton_append,
        getlines_append_cons (hfree token List.mem_cons_self),
        ih fun later hlater => hfree later (List.mem_cons_of_mem token hlater)]

/-- Joined tokens are all delivered unless the last one is empty. -/
theorem getlines_intercalate {tokens : List (List α)}
    (hfree : ∀ token ∈ tokens, separator ∉ token) (hlast : tokens.getLast? ≠ some []) :
    getlines separator ([separator].intercalate tokens) = tokens := by
  induction tokens with
  | nil => rfl
  | cons token tokens ih =>
      have htoken := hfree token List.mem_cons_self
      cases tokens with
      | nil =>
          rw [List.intercalate_singleton]
          exact getlines_of_free htoken fun hempty => hlast (by rw [hempty]; rfl)
      | cons second later =>
          rw [List.intercalate_cons_cons, List.append_assoc, List.singleton_append,
            getlines_append_cons htoken, ih]
          · exact fun other hother => hfree other (List.mem_cons_of_mem token hother)
          · rwa [List.getLast?_cons_cons] at hlast

omit [DecidableEq α] in
/-- Without the last separator, terminated tokens are joined ones. -/
theorem dropLast_terminated (tokens : List (List α)) :
    (tokens.flatMap fun token => token ++ [separator]).dropLast =
      [separator].intercalate tokens := by
  induction tokens with
  | nil => rfl
  | cons token tokens ih =>
      cases tokens with
      | nil =>
          rw [List.flatMap_cons, List.flatMap_nil, List.append_nil, List.dropLast_concat,
            List.intercalate_singleton]
      | cons second later =>
          have hsome : ((second :: later).flatMap fun token => token ++ [separator]) ≠ [] := by
            simp
          rw [List.flatMap_cons, List.dropLast_append_of_ne_nil hsome, ih,
            List.intercalate_cons_cons]

omit [DecidableEq α] in
/-- A final empty token ends the one before it. -/
theorem intercalate_append_nil {tokens : List (List α)} (hsome : tokens ≠ []) :
    [separator].intercalate (tokens ++ [[]]) =
      tokens.flatMap fun token => token ++ [separator] := by
  induction tokens with
  | nil => exact absurd rfl hsome
  | cons token tokens ih =>
      cases tokens with
      | nil =>
          rw [List.singleton_append, List.intercalate_cons_cons, List.intercalate_singleton,
            List.flatMap_singleton, List.append_nil]
      | cons second later =>
          have hrest := ih (List.cons_ne_nil second later)
          rw [List.cons_append] at hrest
          rw [List.cons_append, List.cons_append, List.intercalate_cons_cons, hrest]
          rfl

omit [DecidableEq α] in
theorem intercalate_append_separator {tokens : List (List α)} (hsome : tokens ≠ []) :
    [separator].intercalate tokens ++ [separator] =
      tokens.flatMap fun token => token ++ [separator] := by
  induction tokens with
  | nil => exact absurd rfl hsome
  | cons token tokens ih =>
      cases tokens with
      | nil => rw [List.intercalate_singleton, List.flatMap_singleton]
      | cons second later =>
          rw [List.intercalate_cons_cons, List.append_assoc, ih (List.cons_ne_nil second later)]
          rfl

omit [DecidableEq α] in
/-- Joined tokens around one of them. -/
theorem intercalate_split (front : List (List α)) (token : List α) (back : List (List α)) :
    [separator].intercalate (front ++ token :: back) =
      front.flatMap (fun token => token ++ [separator]) ++
        (token ++ back.flatMap fun token => separator :: token) := by
  induction front with
  | nil =>
      rw [List.nil_append, List.flatMap_nil, List.nil_append]
      induction back generalizing token with
      | nil => rw [List.intercalate_singleton, List.flatMap_nil, List.append_nil]
      | cons second back ih =>
          rw [List.intercalate_cons_cons, ih second, List.flatMap_cons]
          simp only [List.append_assoc, List.cons_append, List.nil_append]
  | cons first front ih =>
      obtain ⟨second, rest, hrest⟩ : ∃ second rest, front ++ token :: back = second :: rest := by
        cases front <;> exact ⟨_, _, rfl⟩
      rw [List.cons_append, hrest, List.intercalate_cons_cons, ← hrest, ih, List.flatMap_cons]
      simp only [List.append_assoc]

/-- A final empty token is not delivered. -/
theorem getlines_intercalate_append_nil {tokens : List (List α)}
    (hfree : ∀ token ∈ tokens, separator ∉ token) (hsome : tokens ≠ []) :
    getlines separator ([separator].intercalate (tokens ++ [[]])) = tokens := by
  rw [intercalate_append_nil hsome, getlines_terminated tokens hfree]

omit [DecidableEq α] in
theorem length_intercalate (separator : α) (tokens : List (List α)) :
    ([separator].intercalate tokens).length =
      (tokens.map List.length).sum + (tokens.length - 1) := by
  induction tokens with
  | nil => rfl
  | cons first tokens ih =>
      cases tokens with
      | nil => rw [List.intercalate_singleton, List.map_singleton, List.sum_singleton]; rfl
      | cons second tokens =>
          rw [List.intercalate_cons_cons, List.length_append, List.length_append, ih]
          simp only [List.map_cons, List.sum_cons, List.length_cons, List.length_nil]
          omega

/-- Joining the tokens of a text gives it back without a final separator. -/
theorem intercalate_getlines (text : List α) :
    [separator].intercalate (getlines separator text) =
      if text.getLast? = some separator then text.dropLast else text := by
  induction text with
  | nil => rfl
  | cons symbol text ih =>
      by_cases hempty : text = []
      · subst hempty
        by_cases hsymbol : symbol = separator <;> simp [getlines, hsymbol]
      have hsome : getlines separator text ≠ [] := fun h => hempty (getlines_eq_nil_iff.mp h)
      obtain ⟨first, later, htokens⟩ := List.exists_cons_of_ne_nil hsome
      have hlast : (symbol :: text).getLast? = text.getLast? := by
        obtain ⟨head, tail, rfl⟩ := List.exists_cons_of_ne_nil hempty
        exact List.getLast?_cons_cons
      have hjoin : [separator].intercalate (getlines separator (symbol :: text)) =
          symbol :: [separator].intercalate (getlines separator text) := by
        rw [getlines, htokens]
        by_cases hsymbol : symbol = separator
        · rw [if_pos hsymbol, List.intercalate_cons_cons, hsymbol]
          rfl
        · rw [if_neg hsymbol, List.intercalate_cons_cons_left]
      rw [hjoin, ih, hlast, List.dropLast_cons_of_ne_nil hempty]
      by_cases hfinal : text.getLast? = some separator
      · rw [if_pos hfinal, if_pos hfinal]
      · rw [if_neg hfinal, if_neg hfinal]

/-- The tokens of a text, one separator between two of them, are no longer than the text. -/
theorem length_getlines_le (text : List α) :
    ((getlines separator text).map List.length).sum + ((getlines separator text).length - 1) ≤
      text.length := by
  have hjoin := congrArg List.length (@intercalate_getlines α _ separator text)
  rw [length_intercalate] at hjoin
  by_cases hlast : text.getLast? = some separator
  · rw [if_pos hlast, List.length_dropLast] at hjoin
    omega
  · rw [if_neg hlast] at hjoin
    omega

end SrmotionProxy.Lib.Seq
