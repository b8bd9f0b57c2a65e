/-
# Patching a serialized text

A text of lines loses the bar of every line that ends with one. Putting a bar behind the
first place where some mark is found makes up for it exactly if one bar was lost, the
first mark is in the line that lost it, and only bars follow the mark there.
-/

import SrmotionProxy.Lib.Marks
import SrmotionProxy.Proton.RtvarLines

namespace SrmotionProxy.Proton

open SrmotionProxy.Lib

namespace Fields

/-- The line ends with an empty value. -/
def Trails (line : Fields) : Prop := line.2.getLast? = some []

instance (line : Fields) : Decidable line.Trails := inferInstanceAs (Decidable (_ = _))

/-- What `serialize` gives back of the line. -/
def kept (line : Fields) : Bytes :=
  joined (line.1 :: if line.Trails then line.2.dropLast else line.2)

theorem text_of_trails {line : Fields} (htrails : line.Trails) :
    line.text = line.kept ++ [bar] := by
  obtain ⟨before, hvalues⟩ := List.getLast?_eq_some_iff.mp htrails
  rw [text, kept, if_pos htrails, joined_cons, joined_cons, hvalues, List.dropLast_concat,
    List.flatMap_append, List.flatMap_singleton, List.append_assoc]

theorem text_of_whole {line : Fields} (hwhole : ¬ line.Trails) : line.text = line.kept := by
  rw [text, kept, if_neg hwhole]

/-- The lines in front of a line. -/
def upto (lines : List Fields) : Bytes := (lines.map text).flatMap fun line => line ++ [newline]

/-- The lines behind a line. -/
def beyond (lines : List Fields) : Bytes := (lines.map text).flatMap fun line => newline :: line

theorem texts_split (front : List Fields) (line : Fields) (back : List Fields) :
    texts (front ++ line :: back) = upto front ++ (line.text ++ beyond back) := by
  rw [texts, List.map_append, List.map_cons, Seq.intercalate_split]
  rfl

theorem map_kept {lines : List Fields} (hwhole : ∀ line ∈ lines, ¬ line.Trails) :
    lines.map kept = lines.map text :=
  List.map_congr_left fun line hline => (text_of_whole (hwhole line hline)).symm

/-- What is kept when one line trails. -/
theorem kept_split {front back : List Fields} (line : Fields)
    (hwhole : ∀ other ∈ front ++ back, ¬ other.Trails) :
    [newline].intercalate ((front ++ line :: back).map kept) =
      upto front ++ (line.kept ++ beyond back) := by
  rw [List.map_append, List.map_cons, Seq.intercalate_split,
    map_kept fun other hother => hwhole other (List.mem_append_left _ hother),
    map_kept fun other hother => hwhole other (List.mem_append_right _ hother)]
  rfl

end Fields

/-- Pairs that hold lines are serialized to what is kept of them. -/
theorem Holds.map_serialize {lines : List Fields} {pairs : List Pair}
    (hholds : Holds (lines.map fun line => decide line.Trails) lines pairs) :
    pairs.map Pair.serialize = lines.map Fields.kept := by
  induction lines generalizing pairs with
  | nil =>
      cases hholds
      rfl
  | cons line lines ih =>
      cases hholds with
      | cons hkey hsome hvalues hrest =>
          rw [List.map_cons, List.map_cons, ih hrest, Pair.serialize_eq_joined, Fields.kept, hkey,
            hvalues]
          simp only [decide_eq_true_eq]

theorem Holds.parse_fields {lines : List Line} (hlines : lines ≠ []) (ending : Bool) :
    Holds ((lines.map Line.fields).map fun line => decide line.Trails) (lines.map Line.fields)
      (Rtvar.parse (linesText lines ending)).mPairs := by
  rw [List.map_map]
  exact Holds.parse hlines ending

/-! ## Updating a value -/

/-- The pair with its first value updated, if it has one. -/
def Pair.updateHead (update : Bytes → Bytes) (pair : Pair) : Pair :=
  { pair with mValues := pair.mValues.modifyHead update }

/-- The first pair with a key, with its first value updated. -/
def Rtvar.updateValue (var : Rtvar) (key : Bytes) (update : Bytes → Bytes) : Rtvar :=
  { mPairs := modifyFirst key (Pair.updateHead update) var.mPairs }

/-- The first line with a key, with its first value updated. -/
def Fields.updateValue (key : Bytes) (update : Bytes → Bytes) : List Fields → List Fields
  | [] => []
  | line :: lines =>
      if line.1 = key then (line.1, line.2.modifyHead update) :: lines
      else line :: updateValue key update lines

section Updating

variable {update : Bytes → Bytes}

/-- A line of which a value is kept ends as before when the first one is updated. -/
theorem Fields.trails_update (hupdate : ∀ value, update value ≠ []) {line : Fields}
    (hkept : (if line.Trails then line.2.dropLast else line.2) ≠ []) :
    Fields.Trails (line.1, line.2.modifyHead update) ↔ line.Trails := by
  obtain ⟨key, values⟩ := line
  match values with
  | [] => exact Iff.rfl
  | [first] =>
      have hfirst : ¬ Fields.Trails (key, [first]) := by
        intro htrails
        rw [if_pos htrails] at hkept
        exact hkept rfl
      refine iff_of_false (fun hempty => ?_) hfirst
      exact hupdate first (Option.some.inj hempty)
  | first :: second :: rest =>
      simp only [Fields.Trails, List.modifyHead_cons, List.getLast?_cons_cons]

theorem Fields.dropLast_modifyHead (values : List Bytes) :
    values.dropLast.modifyHead update = (values.modifyHead update).dropLast := by
  match values with
  | [] => rfl
  | [_] => rfl
  | _ :: _ :: _ => rfl

/-- Updating a value that is kept does to the pairs what it does to the lines. -/
theorem Holds.updateValue (hupdate : ∀ value, update value ≠ []) {lines : List Fields} {var : Rtvar}
    {key : Bytes} (hholds : Holds (lines.map fun line => decide line.Trails) lines var.mPairs)
    (hkept : ∀ pair, var.find key = some pair → pair.mValues ≠ []) :
    Holds ((Fields.updateValue key update lines).map fun line => decide line.Trails)
      (Fields.updateValue key update lines) (var.updateValue key update).mPairs := by
  obtain ⟨pairs⟩ := var
  unfold Rtvar.find at hkept
  unfold Rtvar.updateValue
  induction lines generalizing pairs with
  | nil =>
      cases hholds
      exact .nil
  | cons line lines ih =>
      cases hholds with
      | @cons _ _ pair _ _ rest hkey hsome hvalues hrest =>
          rw [Fields.updateValue, Rtvar.modifyFirst, hkey]
          by_cases hfound : line.1 = key
          · rw [if_pos hfound, if_pos hfound]
            simp only [decide_eq_true_eq] at hvalues
            have hpair := hkept pair (List.find?_cons_of_pos (by simpa using hkey.trans hfound))
            rw [hvalues] at hpair
            refine .cons hkey ?_ ?_ hrest
            · rw [Ne, List.modifyHead_eq_nil_iff]
              exact hsome
            · simp only [decide_eq_true_eq, Fields.trails_update hupdate hpair]
              rw [Pair.updateHead, hvalues, apply_ite (List.modifyHead update),
                Fields.dropLast_modifyHead]
          · rw [if_neg hfound, if_neg hfound]
            refine .cons hkey hsome hvalues (ih rest hrest fun found hfind => ?_)
            apply hkept found
            rw [List.find?_cons_of_neg (by simpa [hkey] using hfound)]
            exact hfind

theorem Fields.map_key_updateValue (key : Bytes) (lines : List Fields) :
    (Fields.updateValue key update lines).map Prod.fst = lines.map Prod.fst := by
  induction lines with
  | nil => rfl
  | cons line lines ih =>
      rw [Fields.updateValue]
      by_cases hfound : line.1 = key
      · rw [if_pos hfound]
        rfl
      · rw [if_neg hfound, List.map_cons, ih, List.map_cons]

/-- An update that adds a bounded number of bytes adds no more to the lines. -/
theorem Fields.length_texts_updateValue_le {bound : Nat}
    (hupdate : ∀ value, (update value).length ≤ value.length + bound) (key : Bytes)
    (lines : List Fields) :
    (Fields.texts (Fields.updateValue key update lines)).length ≤
      (Fields.texts lines).length + bound := by
  have hcount := congrArg List.length (@Fields.map_key_updateValue update key lines)
  rw [List.length_map, List.length_map] at hcount
  rw [Fields.texts, Fields.texts, Seq.length_intercalate, Seq.length_intercalate,
    List.length_map, List.length_map, hcount, Nat.add_right_comm]
  refine Nat.add_le_add_right ?_ _
  clear hcount
  induction lines with
  | nil => exact Nat.le_add_right _ _
  | cons line lines ih =>
      rw [Fields.updateValue]
      by_cases hfound : line.1 = key
      · obtain ⟨name, values⟩ := line
        rw [if_pos hfound]
        simp only [List.map_cons, List.sum_cons]
        cases values with
        | nil =>
            rw [List.modifyHead_nil]
            omega
        | cons first rest =>
            have hfirst := hupdate first
            rw [Fields.text, Fields.text, joined_cons, joined_cons]
            simp only [List.modifyHead_cons, List.flatMap_cons, List.length_append,
              List.length_cons]
            omega
      · rw [if_neg hfound]
        simp only [List.map_cons, List.sum_cons]
        omega

end Updating

/-! ## Lengths -/

/-- A line is no longer than the text. -/
theorem Fields.length_text_le {line : Fields} {lines : List Fields} (hline : line ∈ lines) :
    line.text.length ≤ (Fields.texts lines).length := by
  obtain ⟨front, back, rfl⟩ := List.append_of_mem hline
  rw [Fields.texts_split]
  simp only [List.length_append]
  omega

theorem Fields.length_kept_le (line : Fields) : line.kept.length ≤ line.text.length := by
  by_cases htrails : line.Trails
  · rw [Fields.text_of_trails htrails, List.length_append]
    exact Nat.le_add_right _ _
  · rw [Fields.text_of_whole htrails]

theorem Fields.length_kept_texts_le (lines : List Fields) :
    ([newline].intercalate (lines.map Fields.kept)).length ≤ (Fields.texts lines).length := by
  rw [Fields.texts, Seq.length_intercalate, Seq.length_intercalate, List.length_map,
    List.length_map]
  refine Nat.add_le_add_right ?_ _
  induction lines with
  | nil => exact Nat.le_refl _
  | cons line lines ih =>
      simp only [List.map_cons, List.sum_cons]
      exact Nat.add_le_add line.length_kept_le ih

theorem Holds.map_mKey {cuts : List Bool} {lines : List Fields} {pairs : List Pair}
    (hholds : Holds cuts lines pairs) : pairs.map Pair.mKey = lines.map Prod.fst := by
  induction hholds with
  | nil => rfl
  | cons hkey _ _ _ ih => rw [List.map_cons, List.map_cons, hkey, ih]

/-- A key of the lines is found. -/
theorem Holds.find_isSome {cuts : List Bool} {lines : List Fields} {var : Rtvar}
    (hholds : Holds cuts lines var.mPairs) {key : Bytes} (hkey : key ∈ lines.map Prod.fst) :
    (var.find key).isSome = true := by
  rw [← hholds.map_mKey] at hkey
  obtain ⟨pair, hpair, hfound⟩ := List.mem_map.mp hkey
  exact List.find?_isSome.mpr ⟨pair, hpair, decide_eq_true hfound⟩

/-- No value that is looked up is longer than the text. -/
theorem Holds.length_get_le {lines : List Fields} {var : Rtvar}
    (hholds : Holds (lines.map fun line => decide line.Trails) lines var.mPairs)
    (hstep : var.InStep) (key : Bytes) : (var.get key).length ≤ (Fields.texts lines).length := by
  unfold Rtvar.get
  cases hfind : var.find key with
  | none => exact Nat.zero_le _
  | some pair =>
      have hpair := List.mem_of_find?_eq_some hfind
      have hserialized : pair.serialize ∈ lines.map Fields.kept := by
        rw [← hholds.map_serialize]
        exact List.mem_map_of_mem hpair
      obtain ⟨line, hline, hkept⟩ := List.mem_map.mp hserialized
      have hjoined : pair.mValue.length ≤ pair.serialize.length := by
        rw [hstep pair hpair]
        by_cases hvalues : pair.mValues = []
        · rw [hvalues]
          exact Nat.zero_le _
        · rw [Pair.serialize_eq hvalues, List.length_append, List.length_cons]
          omega
      calc pair.mValue.length
        _ ≤ pair.serialize.length := hjoined
        _ = line.kept.length := by rw [hkept]
        _ ≤ line.text.length := line.length_kept_le
        _ ≤ (Fields.texts lines).length := Fields.length_text_le hline

/-! ## Counting bars -/

theorem count_bar_intercalate (texts : List Bytes) :
    ([newline].intercalate texts).count bar = (texts.map fun text => text.count bar).sum := by
  induction texts with
  | nil => rfl
  | cons first texts ih =>
      cases texts with
      | nil => rw [List.intercalate_singleton, List.map_singleton, List.sum_singleton]
      | cons second texts =>
          have hseparator : List.count bar [newline] = 0 := by decide
          rw [List.intercalate_cons_cons, List.count_append, List.count_append, ih, hseparator,
            Nat.add_zero]
          simp only [List.map_cons, List.sum_cons]

/-- Every line that trails loses a bar. -/
theorem count_bar_texts (lines : List Fields) :
    (Fields.texts lines).count bar =
      ([newline].intercalate (lines.map Fields.kept)).count bar +
        lines.countP fun line => decide line.Trails := by
  rw [Fields.texts, count_bar_intercalate, count_bar_intercalate]
  induction lines with
  | nil => rfl
  | cons line lines ih =>
      rw [List.map_cons, List.map_cons, List.sum_cons, ih, List.map_cons, List.map_cons,
        List.sum_cons]
      by_cases htrails : line.Trails
      · have hbar : List.count bar [bar] = 1 := by decide
        rw [List.countP_cons_of_pos (by simpa using htrails), Fields.text_of_trails htrails,
          List.count_append, hbar]
        omega
      · rw [List.countP_cons_of_neg (by simpa using htrails), Fields.text_of_whole htrails]
        omega

theorem SameText.count_bar {left right : Bytes} (hsame : SameText left right) :
    left.count bar = right.count bar := by
  have hseparator : List.count bar [newline] = 0 := by decide
  rcases hsame with rfl | rfl | rfl
  · rfl
  · rw [List.count_append, hseparator, Nat.add_zero]
  · rw [List.count_append, hseparator, Nat.add_zero]

/-! ## Putting a bar back -/

/-- One line ends with a bar. It holds the first mark of the text and goes on with bars
only. -/
def Restores (mark : Bytes) (lines : List Fields) : Prop :=
  ∃ front line back start bars, lines = front ++ line :: back ∧
    (∀ other ∈ front ++ back, ¬ other.Trails) ∧ line.Trails ∧
    line.text = start ++ (mark ++ (bars ++ [bar])) ∧ (∀ symbol ∈ bars, symbol = bar) ∧
    Seq.find mark (Fields.texts lines) = some ((Fields.upto front).length + start.length)

/-- A bar put in front of some text is the bar that was taken from its end exactly if there
are only bars. -/
theorem bar_cons_eq_iff {bars : Bytes} :
    bar :: bars = bars ++ [bar] ↔ ∀ symbol ∈ bars, symbol = bar := by
  induction bars with
  | nil => simp
  | cons first bars ih =>
      rw [List.cons_append, List.cons.injEq, List.forall_mem_cons, @eq_comm _ bar]
      refine and_congr_right fun hfirst => ?_
      rw [hfirst, ih]

section Patching

variable {ending : Bytes}

/-- A text that is longer by the ending ends with it. -/
theorem SameText.eq_append {left right : Bytes} (hsame : SameText left right)
    (hending : ending = [] ∨ ending = [newline])
    (hlength : left.length = right.length + ending.length) : left = right ++ ending := by
  rcases hsame with rfl | rfl | rfl
  · rcases hending with rfl | rfl
    · rw [List.append_nil]
    · rw [List.length_singleton] at hlength
      omega
  · rcases hending with rfl | rfl
    · rw [List.length_append, List.length_nil, List.length_singleton] at hlength
      omega
    · rfl
  · rw [List.length_append, List.length_singleton] at hlength
    omega

theorem sameText_append (text : Bytes) (hending : ending = [] ∨ ending = [newline]) :
    SameText (text ++ ending) text := by
  rcases hending with rfl | rfl
  · exact .inl (List.append_nil text)
  · exact .inr (.inl rfl)

/-- A bar put behind a front of a text where one was lost at the end of a line. -/
theorem patch_line_iff {before behind lead rest : Bytes}
    (hending : ending = [] ∨ ending = [newline])
    (hbehind : behind = [] ∨ ∃ later, behind = newline :: later)
    (hsplit : before ++ (behind ++ ending) = lead ++ rest) :
    SameText (lead ++ bar :: rest) (before ++ bar :: behind) ↔
      ∃ bars, before = lead ++ bars ∧ ∀ symbol ∈ bars, symbol = bar := by
  rcases List.append_eq_append_iff.mp hsplit with ⟨excess, hlead, hrest⟩ | ⟨bars, hbefore, hrest⟩
  · cases excess with
    | nil =>
        rw [List.append_nil] at hlead
        rw [List.nil_append] at hrest
        subst hlead hrest
        have hsame := sameText_append (lead ++ bar :: behind) hending
        rw [List.append_assoc, List.cons_append] at hsame
        exact iff_of_true hsame ⟨[], (List.append_nil lead).symm, by simp⟩
    | cons symbol excess =>
        -- the front goes on behind the line that lost its bar
        have hsymbol : symbol = newline := by
          rcases hbehind with rfl | ⟨later, rfl⟩
          · rcases hending with rfl | rfl
            · cases hrest
            · rw [List.nil_append, List.cons_append, List.cons.injEq] at hrest
              exact hrest.1.symm
          · rw [List.cons_append, List.cons_append, List.cons.injEq] at hrest
            exact hrest.1.symm
        subst hlead hsymbol
        refine iff_of_false (Diverges.not_sameText
          ⟨before, behind, rfl, .inr ⟨excess ++ bar :: rest, ?_⟩⟩) ?_
        · rw [List.append_assoc, List.cons_append]
        · rintro ⟨bars, hbars, -⟩
          have hlength := congrArg List.length hbars
          simp only [List.length_append, List.length_cons] at hlength
          omega
  · subst hbefore hrest
    have hunique : (∃ others, lead ++ bars = lead ++ others ∧ ∀ symbol ∈ others, symbol = bar) ↔
        ∀ symbol ∈ bars, symbol = bar := by
      constructor
      · rintro ⟨others, hsame, hothers⟩
        rwa [List.append_cancel_left hsame]
      · exact fun hbars => ⟨bars, rfl, hbars⟩
    rw [hunique, ← bar_cons_eq_iff]
    have hleft : lead ++ bar :: (bars ++ (behind ++ ending)) =
        lead ++ ((bar :: bars) ++ (behind ++ ending)) := rfl
    have hright : lead ++ bars ++ bar :: behind = lead ++ ((bars ++ [bar]) ++ behind) := by
      simp only [List.append_assoc, List.cons_append, List.nil_append]
    rw [hleft, hright]
    constructor
    · intro hsame
      have hequal := hsame.eq_append hending (by
        simp only [List.length_append, List.length_cons, List.length_nil]
        omega)
      rw [List.append_assoc, List.append_cancel_left_eq, List.append_assoc (bars ++ [bar]),
        List.append_cancel_right_eq] at hequal
      exact hequal
    · intro hbars
      rw [hbars, ← List.append_assoc (bars ++ [bar]), ← List.append_assoc]
      exact sameText_append _ hending

/-- What follows a line: nothing or a newline. -/
theorem beyond_cases (lines : List Fields) :
    Fields.beyond lines = [] ∨ ∃ rest, Fields.beyond lines = newline :: rest := by
  cases lines with
  | nil => exact .inl rfl
  | cons line lines => exact .inr ⟨_, rfl⟩

theorem upto_cases (lines : List Fields) :
    Fields.upto lines = [] ∨ ∃ lead, Fields.upto lines = lead ++ [newline] := by
  rcases List.eq_nil_or_concat lines with rfl | ⟨front, last, rfl⟩
  · exact .inl rfl
  · refine .inr ⟨Fields.upto front ++ last.text, ?_⟩
    rw [Fields.upto, List.concat_eq_append, List.map_append, List.flatMap_append,
      List.map_singleton, List.flatMap_singleton, List.append_assoc]
    rfl

/-- What has no newline and ends the lines up to some point is in the last of them. -/
theorem suffix_upto_iff {body : Bytes} (hbody : newline ∉ body) (front : List Fields)
    (text : Bytes) : body <:+ Fields.upto front ++ text ↔ body <:+ text := by
  rcases upto_cases front with hnone | ⟨lead, hlead⟩
  · rw [hnone, List.nil_append]
  · rw [hlead, List.append_assoc, List.singleton_append]
    exact Seq.suffix_line_iff hbody lead text

/-- A patch of a text that has lost the bar of one line. -/
theorem patch_split_iff {front back : List Fields} {line : Fields} {mark : Bytes} {position : Nat}
    (hending : ending = [] ∨ ending = [newline]) (htrails : line.Trails)
    (hwhole : ∀ other ∈ front ++ back, ¬ other.Trails) (hmark : newline ∉ mark)
    (hfind : Seq.find mark ([newline].intercalate ((front ++ line :: back).map Fields.kept) ++
      ending) = some position) :
    SameText (([newline].intercalate ((front ++ line :: back).map Fields.kept) ++ ending).take
        (position + mark.length) ++ bar ::
        ([newline].intercalate ((front ++ line :: back).map Fields.kept) ++ ending).drop
          (position + mark.length)) (Fields.texts (front ++ line :: back)) ↔
      ∃ start bars, line.text = start ++ (mark ++ (bars ++ [bar])) ∧
        (∀ symbol ∈ bars, symbol = bar) ∧
        Seq.find mark (Fields.texts (front ++ line :: back)) =
          some ((Fields.upto front).length + start.length) := by
  have hser : [newline].intercalate ((front ++ line :: back).map Fields.kept) ++ ending =
      (Fields.upto front ++ line.kept) ++ (Fields.beyond back ++ ending) := by
    rw [Fields.kept_split line hwhole]
    simp only [List.append_assoc]
  have htexts : Fields.texts (front ++ line :: back) =
      (Fields.upto front ++ line.kept) ++ bar :: Fields.beyond back := by
    rw [Fields.texts_split, Fields.text_of_trails htrails]
    simp only [List.append_assoc, List.cons_append, List.nil_append]
  rw [hser] at hfind ⊢
  rw [htexts, patch_line_iff hending (beyond_cases back)
    (List.take_append_drop (position + mark.length) _).symm]
  obtain ⟨lead, rest, hsplit, hlead⟩ := Seq.find_eq_some_split hfind
  have htake : ((Fields.upto front ++ line.kept) ++ (Fields.beyond back ++ ending)).take
      (position + mark.length) = lead ++ mark := by
    rw [hsplit, ← List.append_assoc]
    exact List.take_left' (by rw [List.length_append, hlead])
  rw [htake]
  constructor
  · rintro ⟨bars, hbefore, hbars⟩
    rw [List.append_assoc] at hbefore
    have hfree : newline ∉ mark ++ bars := by
      intro hmem
      rcases List.mem_append.mp hmem with hin | hin
      · exact hmark hin
      · exact absurd (hbars newline hin) (by decide)
    have hsuffix : mark ++ bars <:+ Fields.upto front ++ line.kept := ⟨lead, hbefore.symm⟩
    obtain ⟨start, hstart⟩ := (suffix_upto_iff hfree front line.kept).mp hsuffix
    have hposition : position = (Fields.upto front).length + start.length := by
      have hlength := congrArg List.length hbefore
      rw [← hstart] at hlength
      simp only [List.length_append] at hlength
      omega
    have hfits : position + mark.length ≤ (Fields.upto front ++ line.kept).length := by
      rw [hbefore]
      simp only [List.length_append]
      omega
    refine ⟨start, bars, ?_, hbars, ?_⟩
    · rw [Fields.text_of_trails htrails, ← hstart]
      simp only [List.append_assoc]
    · rw [← hposition, Seq.find_append_left hfits, ← Seq.find_append_left hfits]
      exact hfind
  · rintro ⟨start, bars, htext, hbars, hfirst⟩
    have hkept : line.kept = start ++ (mark ++ bars) := by
      rw [Fields.text_of_trails htrails, ← List.append_assoc mark,
        ← List.append_assoc start] at htext
      exact List.append_cancel_right htext
    have hfits : (Fields.upto front).length + start.length + mark.length ≤
        (Fields.upto front ++ line.kept).length := by
      rw [hkept]
      simp only [List.length_append]
      omega
    rw [Seq.find_append_left hfits, ← Seq.find_append_left hfits (Fields.beyond back ++ ending),
      hfind, Option.some.injEq] at hfirst
    refine ⟨bars, ?_, hbars⟩
    have hsame : lead ++ (mark ++ rest) =
        (Fields.upto front ++ start) ++ (mark ++ (bars ++ (Fields.beyond back ++ ending))) := by
      rw [← hsplit, hkept]
      simp only [List.append_assoc]
    have hfront := (List.append_inj hsame (by rw [hlead, hfirst, List.length_append])).1
    rw [hfront, hkept]
    simp only [List.append_assoc]

/-- The one line that trails. -/
theorem exists_trailing {lines : List Fields}
    (hone : (lines.countP fun line => decide line.Trails) = 1) :
    ∃ front line back, lines = front ++ line :: back ∧ line.Trails ∧
      ∀ other ∈ front ++ back, ¬ other.Trails := by
  induction lines with
  | nil => cases hone
  | cons line lines ih =>
      by_cases htrails : line.Trails
      · rw [List.countP_cons_of_pos (by simpa using htrails), Nat.succ.injEq,
          List.countP_eq_zero] at hone
        exact ⟨[], line, lines, rfl, htrails, fun other hother => by simpa using hone other hother⟩
      · rw [List.countP_cons_of_neg (by simpa using htrails)] at hone
        obtain ⟨front, found, back, rfl, hfound, hwhole⟩ := ih hone
        refine ⟨line :: front, found, back, rfl, hfound, ?_⟩
        rw [List.cons_append, List.forall_mem_cons]
        exact ⟨htrails, hwhole⟩

/-- A bar behind the first mark makes up for what was lost exactly if it restores the one
line that lost a bar. -/
theorem patch_iff_restores {lines : List Fields} {mark : Bytes} {position : Nat}
    (hending : ending = [] ∨ ending = [newline]) (hmark : newline ∉ mark)
    (hfind : Seq.find mark ([newline].intercalate (lines.map Fields.kept) ++ ending) =
      some position) :
    SameText (([newline].intercalate (lines.map Fields.kept) ++ ending).take
        (position + mark.length) ++ bar ::
        ([newline].intercalate (lines.map Fields.kept) ++ ending).drop (position + mark.length))
      (Fields.texts lines) ↔ Restores mark lines := by
  constructor
  · intro hsame
    have hcount := hsame.count_bar
    have hnone : List.count bar ending = 0 := by rcases hending with rfl | rfl <;> decide
    rw [List.count_append, List.count_cons_self, ← Nat.add_assoc, ← List.count_append,
      List.take_append_drop, List.count_append, hnone, count_bar_texts, Nat.add_zero,
      Nat.add_left_cancel_iff] at hcount
    obtain ⟨front, line, back, rfl, htrails, hwhole⟩ := exists_trailing hcount.symm
    obtain ⟨start, bars, htext, hbars, hfirst⟩ :=
      (patch_split_iff hending htrails hwhole hmark hfind).mp hsame
    exact ⟨front, line, back, start, bars, rfl, hwhole, htrails, htext, hbars, hfirst⟩
  · rintro ⟨front, line, back, start, bars, rfl, hwhole, htrails, htext, hbars, hfirst⟩
    exact (patch_split_iff hending htrails hwhole hmark hfind).mpr
      ⟨start, bars, htext, hbars, hfirst⟩

end Patching

end SrmotionProxy.Proton
