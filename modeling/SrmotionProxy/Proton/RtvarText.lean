/-
# Text variables and their text

`rtvar::parse` takes a text apart line by line and field by field, `rtvar::serialize`
puts it together. This module gives both as splits and joins, and the conditions under
which one undoes the other.
-/

import SrmotionProxy.Lib.Lines
import SrmotionProxy.Proton.RtvarCopies

namespace SrmotionProxy.Proton

open SrmotionProxy.Lib

/-! ## One line -/

namespace Pair

theorem Progress.foldl_token (values : List Bytes) {progress : Progress}
    (hkey : progress.key = false) :
    (values.foldl Progress.token progress).ret.mKey = progress.ret.mKey ∧
      (values.foldl Progress.token progress).ret.mValues = progress.ret.mValues ++ values := by
  induction values generalizing progress with
  | nil => exact ⟨rfl, (List.append_nil _).symm⟩
  | cons value values ih =>
      have hnext : (progress.token value).key = false := by
        simp [Progress.token, hkey]
      obtain ⟨hsameKey, hvalues⟩ := ih hnext
      rw [List.foldl_cons, hsameKey, hvalues]
      simp [Progress.token, hkey]

/-- The first token of a line is the key, the others are the values. -/
theorem parse_of_tokens {str key : Bytes} {values : List Bytes}
    (htokens : Seq.getlines bar str = key :: values) :
    parse str = { mKey := key, mValues := values, mValue := joined values } := by
  have hstr : ¬ str.length = 0 := by
    intro hempty
    rw [List.length_eq_zero_iff] at hempty
    rw [hempty] at htokens
    cases htokens
  have hstep := parse_inStep str
  have hparse : parse str =
      (values.foldl Progress.token (Progress.token {} key)).ret := by
    rw [parse, if_neg hstr, htokens, List.foldl_cons]
  obtain ⟨hkey, hvalues⟩ := Progress.foldl_token values
    (rfl : (Progress.token {} key).key = false)
  rw [hparse] at hstep ⊢
  generalize (values.foldl Progress.token (Progress.token {} key)).ret = pair at *
  obtain ⟨mKey, mValues, mValue⟩ := pair
  simp only [InStep] at hstep
  subst hkey hvalues hstep
  rfl

/-- A line is its key and values, joined. -/
theorem serialize_eq_joined (pair : Pair) : pair.serialize = joined (pair.mKey :: pair.mValues) :=
  (joined_cons pair.mKey pair.mValues).symm

/-- A pair that a line can carry: no separator inside a field, a line that is not
empty, and a last value that `getline` delivers. -/
structure Clean (pair : Pair) : Prop where
  key : bar ∉ pair.mKey ∧ newline ∉ pair.mKey
  values : ∀ value ∈ pair.mValues, bar ∉ value ∧ newline ∉ value
  some : pair.mKey ≠ [] ∨ pair.mValues ≠ []
  last : pair.mValues.getLast? ≠ Option.some []
  inStep : pair.InStep

theorem Clean.getlines {pair : Pair} (hclean : pair.Clean) :
    Seq.getlines bar pair.serialize = pair.mKey :: pair.mValues := by
  rw [serialize_eq_joined, joined]
  refine Seq.getlines_intercalate (fun token htoken => ?_) ?_
  · rcases List.mem_cons.mp htoken with rfl | hvalue
    · exact hclean.key.1
    · exact (hclean.values token hvalue).1
  · cases hvalues : pair.mValues with
    | nil =>
        have hkey := hclean.some.resolve_right (not_not_intro hvalues)
        simpa using hkey
    | cons first rest =>
        rw [List.getLast?_cons_cons, ← hvalues]
        exact hclean.last

theorem Clean.reparse {pair : Pair} (hclean : pair.Clean) :
    parse pair.serialize = pair := by
  rw [parse_of_tokens hclean.getlines, ← hclean.inStep]

theorem Clean.serialize_ne_nil {pair : Pair} (hclean : pair.Clean) : pair.serialize ≠ [] := by
  intro hempty
  have htokens := hclean.getlines
  rw [hempty] at htokens
  cases htokens

theorem Clean.newline_not_mem {pair : Pair} (hclean : pair.Clean) :
    newline ∉ pair.serialize := by
  intro hmem
  rcases List.mem_append.mp hmem with hkey | hvalues
  · exact hclean.key.2 hkey
  · obtain ⟨value, hvalue, hin⟩ := List.mem_flatMap.mp hvalues
    rcases List.mem_cons.mp hin with hbar | hinside
    · exact absurd hbar (by decide)
    · exact (hclean.values value hvalue).2 hinside

end Pair

/-! ## All lines -/

namespace Rtvar

theorem foldl_append (lines : List Bytes) (var : Rtvar) :
    (lines.foldl append var).mPairs = var.mPairs ++ lines.map Pair.parse := by
  induction lines generalizing var with
  | nil => exact (List.append_nil _).symm
  | cons line lines ih =>
      rw [List.foldl_cons, ih, append, List.map_cons, List.append_assoc, List.singleton_append]

/-- Parsing is one pair a line. -/
theorem parse_eq (str : Bytes) :
    parse str = { mPairs := (Seq.getlines newline str).map Pair.parse } := by
  have hpairs := foldl_append (Seq.getlines newline str) {}
  rw [List.nil_append] at hpairs
  rw [parse, ← hpairs]

/-- Serializing is one line a pair, with or without the final newline. -/
theorem serialize_eq (dropsLast : Bool) (var : Rtvar) :
    var.serialize dropsLast =
      if dropsLast then [newline].intercalate (var.mPairs.map Pair.serialize)
      else (var.mPairs.map Pair.serialize).flatMap fun line => line ++ [newline] := by
  have hlines : (var.mPairs.flatMap fun pair => pair.serialize ++ [newline]) =
      (var.mPairs.map Pair.serialize).flatMap fun line => line ++ [newline] := by
    rw [List.flatMap_map]
  rw [serialize]
  simp only [hlines, Seq.dropLast_terminated]

/-- The lines of a serialized list are the lines of its pairs. -/
theorem getlines_serialize (dropsLast : Bool) {var : Rtvar}
    (hfree : ∀ pair ∈ var.mPairs, newline ∉ pair.serialize)
    (hsome : ∀ pair ∈ var.mPairs, pair.serialize ≠ []) :
    Seq.getlines newline (var.serialize dropsLast) = var.mPairs.map Pair.serialize := by
  have hlines : ∀ line ∈ var.mPairs.map Pair.serialize, newline ∉ line := by
    intro line hline
    obtain ⟨pair, hpair, rfl⟩ := List.mem_map.mp hline
    exact hfree pair hpair
  rw [serialize_eq]
  cases dropsLast with
  | false => exact Seq.getlines_terminated _ hlines
  | true =>
      refine Seq.getlines_intercalate hlines fun hlast => ?_
      obtain ⟨pair, hpair, hempty⟩ := List.mem_map.mp (List.mem_of_getLast? hlast)
      exact hsome pair hpair hempty

/-- Parsing undoes serializing, in both readings of the final erase. -/
theorem parse_serialize (dropsLast : Bool) (var : Rtvar)
    (hclean : ∀ pair ∈ var.mPairs, pair.Clean) : parse (var.serialize dropsLast) = var := by
  rw [parse_eq, getlines_serialize dropsLast (fun pair hpair => (hclean pair hpair).newline_not_mem)
    (fun pair hpair => (hclean pair hpair).serialize_ne_nil), List.map_map]
  have hpairs : ∀ pair ∈ var.mPairs, (Pair.parse ∘ Pair.serialize) pair = id pair :=
    fun pair hpair => (hclean pair hpair).reparse
  rw [List.map_congr_left hpairs, List.map_id]

/-- Keys without values, empty keys and empty inner values survive. -/
theorem parse_serialize_sample :
    let var : Rtvar := { mPairs :=
      [{ mKey := ascii "action" },
        { mKey := [], mValues := [ascii "x"], mValue := ascii "x" },
        { mKey := ascii "posXY", mValues := [[], ascii "2"], mValue := ascii "|2" }] }
    parse (var.serialize false) = var ∧ parse (var.serialize true) = var := by
  intro var
  have hclean : ∀ pair ∈ var.mPairs, pair.Clean := by
    intro pair hpair
    simp only [var, List.mem_cons, List.not_mem_nil, or_false] at hpair
    rcases hpair with rfl | rfl | rfl
    · exact ⟨by decide, by decide, by decide, by decide, rfl⟩
    · exact ⟨by decide, by decide, by decide, by decide, rfl⟩
    · exact ⟨by decide, by decide, by decide, by decide, rfl⟩
  exact ⟨parse_serialize false var hclean, parse_serialize true var hclean⟩

end Rtvar

end SrmotionProxy.Proton
