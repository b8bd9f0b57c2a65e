/-
# Texts of lines that each have a value

What `parse`, `set` and `serialize` together do to a text whose lines are a key and at
least one value: the lines come out as they went in but for the values set, unless a
line ends with a bar. `getline` drops the empty value behind that bar, so the bar is
missing afterwards.
-/

import SrmotionProxy.Proton.RtvarText

namespace SrmotionProxy.Proton

open SrmotionProxy.Lib

/-! ## Lines -/

/-- A line `key|value|...`, with no separator inside a field. -/
structure Line where
  key : Bytes
  values : List Bytes
  some : values ≠ []
  free : ∀ field ∈ key :: values, bar ∉ field ∧ newline ∉ field

/-- A key and values, in which anything may stand. -/
abbrev Fields := Bytes × List Bytes

namespace Line

def fields (line : Line) : Fields := (line.key, line.values)

/-- The line ends with a bar. -/
def Trails (line : Line) : Prop := line.values.getLast? = Option.some []

instance (line : Line) : Decidable line.Trails := inferInstanceAs (Decidable (_ = _))

end Line

namespace Fields

/-- The fields with bars between them. -/
def text (fields : Fields) : Bytes := joined (fields.1 :: fields.2)

/-- Lines with newlines between them. -/
def texts (lines : List Fields) : Bytes := [newline].intercalate (lines.map text)

/-- The first value of the first line with a key, replaced. -/
def replaceValue (key value : Bytes) : List Fields → List Fields
  | [] => []
  | line :: lines =>
      if line.1 = key then (line.1, line.2.set 0 value) :: lines
      else line :: replaceValue key value lines

end Fields

/-- The text of lines, which may end in a newline. -/
def linesText (lines : List Line) (ending : Bool) : Bytes :=
  Fields.texts (lines.map Line.fields) ++ if ending then [newline] else []

/-- Two texts that are equal but for one newline at the end. -/
def SameText (left right : Bytes) : Prop :=
  left = right ∨ left = right ++ [newline] ∨ right = left ++ [newline]

/-! ## Taking a text of lines apart -/

theorem Line.bar_not_mem (line : Line) : ∀ field ∈ line.key :: line.values, bar ∉ field :=
  fun field hfield => (line.free field hfield).1

/-- The tokens of a line; a final empty value is not delivered. -/
theorem Line.getlines_text (line : Line) : Seq.getlines bar line.fields.text =
    line.key :: if line.Trails then line.values.dropLast else line.values := by
  unfold Fields.text joined Line.fields
  by_cases htrails : line.Trails
  · obtain ⟨before, hvalues⟩ := List.getLast?_eq_some_iff.mp htrails
    have hfree := line.bar_not_mem
    rw [if_pos htrails]
    simp only [hvalues, List.dropLast_concat] at hfree ⊢
    rw [← List.cons_append]
    refine Seq.getlines_intercalate_append_nil (fun token htoken => hfree token ?_)
      (List.cons_ne_nil _ _)
    rw [← List.cons_append]
    exact List.mem_append_left _ htoken
  · rw [if_neg htrails]
    apply Seq.getlines_intercalate line.bar_not_mem
    obtain ⟨first, rest, hvalues⟩ := List.exists_cons_of_ne_nil line.some
    rw [Trails] at htrails
    simp only [hvalues, List.getLast?_cons_cons] at htrails ⊢
    exact htrails

theorem Line.text_ne_nil (line : Line) : line.fields.text ≠ [] := by
  intro hempty
  have htokens := line.getlines_text
  rw [hempty] at htokens
  cases htokens

theorem Line.newline_not_mem (line : Line) : newline ∉ line.fields.text := by
  intro hmem
  rw [Fields.text, joined_cons] at hmem
  rcases List.mem_append.mp hmem with hkey | hvalues
  · exact (line.free _ List.mem_cons_self).2 hkey
  · obtain ⟨value, hvalue, hin⟩ := List.mem_flatMap.mp hvalues
    rcases List.mem_cons.mp hin with hbar | hinside
    · exact absurd hbar (by decide)
    · exact (line.free value (List.mem_cons_of_mem _ hvalue)).2 hinside

theorem getlines_linesText {lines : List Line} (hlines : lines ≠ []) (ending : Bool) :
    Seq.getlines newline (linesText lines ending) =
      lines.map fun line => line.fields.text := by
  have hfree : ∀ token ∈ lines.map fun line => line.fields.text, newline ∉ token := by
    intro token htoken
    obtain ⟨line, -, rfl⟩ := List.mem_map.mp htoken
    exact line.newline_not_mem
  have hsome : (lines.map fun line => line.fields.text) ≠ [] := by simpa using hlines
  rw [linesText, Fields.texts, List.map_map]
  change Seq.getlines newline
    ([newline].intercalate (lines.map fun line => line.fields.text) ++ _) = _
  cases ending with
  | true =>
      rw [if_pos rfl, Seq.intercalate_append_separator hsome]
      exact Seq.getlines_terminated _ hfree
  | false =>
      rw [if_neg Bool.false_ne_true, List.append_nil]
      refine Seq.getlines_intercalate hfree fun hlast => ?_
      obtain ⟨line, -, hempty⟩ := List.mem_map.mp (List.mem_of_getLast? hlast)
      exact line.text_ne_nil hempty

/-! ## What is kept of the lines -/

/-- Pairs that hold the lines, each without its last value where the flag is set. -/
inductive Holds : List Bool → List Fields → List Pair → Prop
  | nil : Holds [] [] []
  | cons {cut : Bool} {line : Fields} {pair : Pair} {cuts : List Bool} {lines : List Fields}
      {pairs : List Pair} (hkey : pair.mKey = line.1) (hsome : line.2 ≠ [])
      (hvalues : pair.mValues = if cut then line.2.dropLast else line.2)
      (hrest : Holds cuts lines pairs) : Holds (cut :: cuts) (line :: lines) (pair :: pairs)

namespace Holds

theorem parse {lines : List Line} (hlines : lines ≠ []) (ending : Bool) :
    Holds (lines.map fun line => decide line.Trails) (lines.map Line.fields)
      (Rtvar.parse (linesText lines ending)).mPairs := by
  rw [Rtvar.parse_eq, getlines_linesText hlines, List.map_map]
  clear hlines
  induction lines with
  | nil => exact .nil
  | cons line lines ih =>
      refine .cons ?_ line.some ?_ ih
      · rw [Function.comp_apply, Pair.parse_of_tokens line.getlines_text]
        rfl
      · rw [Function.comp_apply, Pair.parse_of_tokens line.getlines_text]
        simp only [decide_eq_true_eq]
        rfl

theorem set_dropLast (values : List Bytes) (value : Bytes) :
    values.dropLast.set 0 value = (values.set 0 value).dropLast := by
  cases values with
  | nil => rfl
  | cons first rest => cases rest <;> rfl

variable {cuts : List Bool} {lines : List Fields} {pairs : List Pair}

/-- Setting a value does to the pairs what replacing it does to the lines. -/
theorem modifyFirst (hholds : Holds cuts lines pairs) (key value : Bytes) :
    Holds cuts (Fields.replaceValue key value lines)
      (Rtvar.modifyFirst key (Pair.withFirst value) pairs) := by
  induction hholds with
  | nil => exact .nil
  | @cons cut line pair cuts lines pairs hkey hsome hvalues hrest ih =>
      rw [Fields.replaceValue, Rtvar.modifyFirst, hkey]
      by_cases hfound : line.1 = key
      · rw [if_pos hfound, if_pos hfound]
        refine .cons hkey (by simpa using hsome) ?_ hrest
        rw [Pair.withFirst, hvalues]
        cases cut with
        | true => exact set_dropLast line.2 value
        | false => rfl
      · rw [if_neg hfound, if_neg hfound]
        exact .cons hkey hsome hvalues ih

theorem length_eq (hholds : Holds cuts lines pairs) : pairs.length = cuts.length := by
  induction hholds with
  | nil => rfl
  | cons _ _ _ _ ih => exact congrArg Nat.succ ih

theorem values_ne_nil (hholds : Holds cuts lines pairs) (hwhole : ∀ cut ∈ cuts, cut = false) :
    ∀ pair ∈ pairs, pair.mValues ≠ [] := by
  induction hholds with
  | nil => exact fun _ hpair => absurd hpair List.not_mem_nil
  | cons hkey hsome hvalues hrest ih =>
      rw [List.forall_mem_cons] at hwhole ⊢
      rw [hwhole.1] at hvalues
      exact ⟨hvalues ▸ hsome, ih hwhole.2⟩

/-- Without a cut the pairs are the lines. -/
theorem serialize (hholds : Holds cuts lines pairs) (hwhole : ∀ cut ∈ cuts, cut = false) :
    pairs.map Pair.serialize = lines.map Fields.text := by
  induction hholds with
  | nil => rfl
  | @cons cut line pair cuts lines pairs hkey hsome hvalues hrest ih =>
      rw [List.forall_mem_cons] at hwhole
      rw [hwhole.1] at hvalues
      rw [List.map_cons, List.map_cons, ih hwhole.2, Pair.serialize_eq_joined, Fields.text, hkey,
        hvalues]
      rfl

end Holds

/-! ## Setting values -/

namespace Rtvar

theorem modifyFirst_of_not_mem {key : Bytes} {pairs : List Pair}
    (habsent : ∀ pair ∈ pairs, pair.mKey ≠ key) (update : Pair → Pair) :
    modifyFirst key update pairs = pairs := by
  induction pairs with
  | nil => rfl
  | cons pair pairs ih =>
      rw [List.forall_mem_cons] at habsent
      rw [modifyFirst, if_neg habsent.1, ih habsent.2]

/-- `set` writes the first value of the first pair with the key, if there is one. -/
theorem mPairs_set (var : Rtvar) (key value : Bytes) :
    (var.set key value).mPairs = modifyFirst key (Pair.withFirst value) var.mPairs := by
  cases hfind : var.find key with
  | none =>
      have habsent : ∀ pair ∈ var.mPairs, pair.mKey ≠ key := by
        intro pair hpair
        simpa using List.find?_eq_none.mp hfind pair hpair
      have hset : var.set key value = var := by rw [set, hfind]
      rw [hset, modifyFirst_of_not_mem habsent]
  | some pair =>
      obtain ⟨before, after, hpairs, hkey, hbefore⟩ := find_eq_some hfind
      by_cases hvalues : pair.mValues = []
      · have hsame : pair.withFirst value = pair := by
          rw [Pair.withFirst, hvalues, List.set_nil, ← hvalues]
        have hset : var.set key value = var := by
          rw [set, hfind]
          simp only [hvalues, List.length_nil, if_neg (by decide : ¬ 1 ≤ 0)]
        rw [hset, hpairs, modifyFirst_split hkey hbefore, hsame]
      · have hvar : var = { mPairs := before ++ pair :: after } := by rw [← hpairs]
        rw [hvar, set_split hkey hbefore hvalues, modifyFirst_split hkey hbefore]

/-- Several values set one after another. -/
def setAll (var : Rtvar) (values : List (Bytes × Bytes)) : Rtvar :=
  values.foldl (fun var entry => var.set entry.1 entry.2) var

end Rtvar

/-- Several values replaced one after another. -/
def Fields.replaceAll (lines : List Fields) (values : List (Bytes × Bytes)) : List Fields :=
  values.foldl (fun lines entry => replaceValue entry.1 entry.2 lines) lines

theorem Holds.setAll {cuts : List Bool} {lines : List Fields} {var : Rtvar}
    (hholds : Holds cuts lines var.mPairs) (values : List (Bytes × Bytes)) :
    Holds cuts (Fields.replaceAll lines values) (var.setAll values).mPairs := by
  induction values generalizing lines var with
  | nil => exact hholds
  | cons entry values ih =>
      apply ih
      rw [Rtvar.mPairs_set]
      exact hholds.modifyFirst entry.1 entry.2

/-! ## Where a bar is lost -/

/-- At some point one text goes on with a bar, the other with a newline or not at all. -/
def Diverges (left right : Bytes) : Prop :=
  ∃ before later, left = before ++ bar :: later ∧
    (right = before ∨ ∃ rest, right = before ++ newline :: rest)

theorem Diverges.not_sameText {left right : Bytes} (hdiverges : Diverges left right) :
    ¬ SameText right left := by
  obtain ⟨before, later, rfl, hright⟩ := hdiverges
  have hbar : bar ≠ newline := by decide
  rcases hright with rfl | ⟨rest, rfl⟩
  · rintro (h | h | h)
    · simpa using congrArg List.length h
    · have hlength := congrArg List.length h
      simp only [List.length_append, List.length_cons, List.length_nil] at hlength
      omega
    · rw [List.append_cancel_left_eq, List.cons.injEq] at h
      exact hbar h.1
  · rintro (h | h | h)
    · rw [List.append_cancel_left_eq, List.cons.injEq] at h
      exact hbar h.1.symm
    · rw [List.append_assoc, List.append_cancel_left_eq, List.cons_append, List.cons.injEq] at h
      exact hbar h.1.symm
    · rw [List.append_assoc, List.append_cancel_left_eq, List.cons_append, List.cons.injEq] at h
      exact hbar h.1

theorem Diverges.append {left right : Bytes} (hdiverges : Diverges left right) (before : Bytes) :
    Diverges (before ++ left) (before ++ right) := by
  obtain ⟨start, later, rfl, hright⟩ := hdiverges
  refine ⟨before ++ start, later, (List.append_assoc _ _ _).symm, ?_⟩
  rcases hright with rfl | ⟨rest, rfl⟩
  · exact .inl rfl
  · exact .inr ⟨rest, (List.append_assoc _ _ _).symm⟩

namespace Holds

variable {cuts : List Bool} {lines : List Fields} {pairs : List Pair}

/-- What `serialize` does after joining the lines. -/
def terminated (dropsLast : Bool) (texts : List Bytes) : Bytes :=
  if dropsLast then [newline].intercalate texts else texts.flatMap fun text => text ++ [newline]

theorem terminated_cons_cons (dropsLast : Bool) (first second : Bytes) (texts : List Bytes) :
    terminated dropsLast (first :: second :: texts) =
      first ++ [newline] ++ terminated dropsLast (second :: texts) := by
  cases dropsLast with
  | true => exact List.intercalate_cons_cons
  | false => rfl

theorem terminated_cons (dropsLast : Bool) (first : Bytes) (texts : List Bytes) :
    terminated dropsLast (first :: texts) = first ∨
      ∃ rest, terminated dropsLast (first :: texts) = first ++ newline :: rest := by
  cases texts with
  | nil =>
      cases dropsLast with
      | true => exact .inl (by rw [terminated, if_pos rfl, List.intercalate_singleton])
      | false => exact .inr ⟨[], by simp [terminated]⟩
  | cons second texts =>
      refine .inr ⟨terminated dropsLast (second :: texts), ?_⟩
      rw [terminated_cons_cons, List.append_assoc, List.singleton_append]

/-- The line that is cut has a bar where its pair has none. -/
theorem cut_text {line : Fields} {pair : Pair} (hkey : pair.mKey = line.1) (hsome : line.2 ≠ [])
    (hvalues : pair.mValues = line.2.dropLast) :
    ∃ last, line.text = pair.serialize ++ bar :: last := by
  obtain ⟨before, last, hsplit⟩ := (List.eq_nil_or_concat line.2).resolve_left hsome
  rw [hsplit, List.concat_eq_append, List.dropLast_concat] at hvalues
  refine ⟨last, ?_⟩
  rw [Fields.text, joined_cons, hsplit, List.concat_eq_append, List.flatMap_append,
    List.flatMap_singleton, ← List.append_assoc, Pair.serialize, hkey, hvalues]

/-- The texts part where the first line that is cut ends. -/
theorem diverges (hholds : Holds cuts lines pairs) (hcut : true ∈ cuts) (dropsLast : Bool) :
    Diverges (Fields.texts lines) (terminated dropsLast (pairs.map Pair.serialize)) := by
  induction hholds with
  | nil => cases hcut
  | @cons cut line pair cuts lines pairs hkey hsome hvalues hrest ih =>
      cases cut with
      | true =>
          obtain ⟨last, htext⟩ := cut_text hkey hsome hvalues
          refine ⟨pair.serialize, ?_⟩
          have hright := terminated_cons dropsLast pair.serialize (pairs.map Pair.serialize)
          rcases terminated_cons true line.text (lines.map Fields.text) with hleft | ⟨rest, hleft⟩
          · exact ⟨last, hleft.trans htext, hright⟩
          · refine ⟨last ++ newline :: rest, hleft.trans ?_, hright⟩
            rw [htext, List.append_assoc, List.cons_append]
      | false =>
          have hlater : true ∈ cuts := (List.mem_cons.mp hcut).resolve_left (by decide)
          have hline : line.text = pair.serialize := by
            rw [Pair.serialize_eq_joined, Fields.text, hkey, hvalues]
            rfl
          have hrestDiverges := ih hlater
          cases hrest with
          | nil => cases hlater
          | cons =>
              rw [Fields.texts, List.map_cons, List.map_cons, List.intercalate_cons_cons,
                List.map_cons, List.map_cons, terminated_cons_cons, hline]
              exact hrestDiverges.append _

end Holds

/-- Parsed, set and serialized, the lines are what they were with the values replaced,
exactly if none of them ends with a bar. -/
theorem setAll_sameText_iff {lines : List Line} (hlines : lines ≠ []) (ending dropsLast : Bool)
    (values : List (Bytes × Bytes)) :
    SameText (((Rtvar.parse (linesText lines ending)).setAll values).serialize dropsLast)
      (Fields.texts (Fields.replaceAll (lines.map Line.fields) values)) ↔
      ∀ line ∈ lines, ¬ line.Trails := by
  have hholds := (Holds.parse hlines ending).setAll values
  rw [Rtvar.serialize_eq]
  constructor
  · intro hsame line hline htrails
    have hcut : true ∈ lines.map fun line => decide line.Trails :=
      List.mem_map.mpr ⟨line, hline, decide_eq_true htrails⟩
    exact (hholds.diverges hcut dropsLast).not_sameText hsame
  · intro hwhole
    have htexts := hholds.serialize fun cut hcut => by
      obtain ⟨line, hline, rfl⟩ := List.mem_map.mp hcut
      exact decide_eq_false (hwhole line hline)
    rw [htexts]
    cases dropsLast with
    | true => exact .inl rfl
    | false =>
        refine .inr (.inl ?_)
        rw [if_neg Bool.false_ne_true, Fields.texts, Seq.intercalate_append_separator]
        intro hnone
        rw [← htexts, List.map_eq_nil_iff] at hnone
        have hlength := hholds.length_eq
        rw [hnone, List.length_map, List.length_nil, eq_comm, List.length_eq_zero_iff] at hlength
        exact hlines hlength

end SrmotionProxy.Proton
