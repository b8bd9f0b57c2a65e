/-
# The two copies of the values of a field

A pair of an `rtvar` holds its values one by one in `m_values` and joined in
`m_value`. `get`, `get_int` and `validate_int` read the joined copy, `serialize` the
other one. This module asks when the two agree along a sequence of edits: parsing,
appending and removing keep them in step, `set` writes one copy only.
-/

import SrmotionProxy.Lib.Runs
import SrmotionProxy.Proton.Rtvar

namespace SrmotionProxy.Proton

open SrmotionProxy.Lib

/-- Values with a bar between any two of them. -/
def joined (values : List Bytes) : Bytes := [bar].intercalate values

theorem joined_cons (first : Bytes) (rest : List Bytes) :
    joined (first :: rest) = first ++ rest.flatMap fun value => bar :: value := by
  induction rest generalizing first with
  | nil => rw [joined, List.intercalate_singleton, List.flatMap_nil, List.append_nil]
  | cons second rest ih =>
      have hsecond := ih second
      rw [joined] at hsecond
      rw [joined, List.intercalate_cons_cons, hsecond, List.flatMap_cons, List.append_assoc]
      rfl

theorem joined_append_singleton {values : List Bytes} (hvalues : values ≠ []) (token : Bytes) :
    joined (values ++ [token]) = joined values ++ [bar] ++ token := by
  obtain ⟨first, rest, rfl⟩ := List.exists_cons_of_ne_nil hvalues
  rw [List.cons_append, joined_cons, joined_cons, List.flatMap_append, List.flatMap_singleton]
  simp only [List.append_assoc, List.singleton_append]

/-! ## Pairs -/

namespace Pair

/-- The joined copy is up to date. -/
def InStep (pair : Pair) : Prop := pair.mValue = joined pair.mValues

/-- What the loop of `pair::parse` maintains: the first value is still to come exactly
while there is none. -/
def Progress.Sound (progress : Progress) : Prop :=
  progress.ret.InStep ∧ (progress.first = true ↔ progress.ret.mValues = [])

theorem Progress.token_sound {progress : Progress} (hsound : progress.Sound) (token : Bytes) :
    (progress.token token).Sound := by
  obtain ⟨hstep, hfirst⟩ := hsound
  unfold Progress.token
  by_cases hkey : progress.key = true
  · rw [if_pos hkey]
    exact ⟨hstep, hfirst⟩
  · rw [if_neg hkey]
    refine ⟨?_, by simp⟩
    by_cases hnone : progress.ret.mValues = []
    · have hvalue : progress.ret.mValue = [] := by rw [hstep, hnone]; rfl
      simp [InStep, hfirst.mpr hnone, hnone, hvalue, joined]
    · have hlater : progress.first = false := by
        rw [← Bool.not_eq_true]
        exact fun h => hnone (hfirst.mp h)
      simp only [InStep, hlater, joined_append_singleton hnone token]
      rw [← hstep]
      rfl

theorem parse_inStep (str : Bytes) : (parse str).InStep := by
  unfold parse
  by_cases hempty : str.length = 0
  · rw [if_pos hempty]
    rfl
  · rw [if_neg hempty]
    have hrun : ∀ (tokens : List Bytes) (progress : Progress), progress.Sound →
        (tokens.foldl Progress.token progress).Sound := by
      intro tokens
      induction tokens with
      | nil => exact fun _ hsound => hsound
      | cons token tokens ih => exact fun _ hsound => ih _ (Progress.token_sound hsound token)
    exact (hrun _ {} ⟨rfl, by simp⟩).1

/-- `serialize` emits the key and the joined values. -/
theorem serialize_eq {pair : Pair} (hvalues : pair.mValues ≠ []) :
    pair.serialize = pair.mKey ++ bar :: joined pair.mValues := by
  obtain ⟨first, rest, hpair⟩ := List.exists_cons_of_ne_nil hvalues
  rw [serialize, hpair, joined_cons, List.flatMap_cons]
  rfl

/-- The pair that `set` leaves behind. -/
def withFirst (value : Bytes) (pair : Pair) : Pair :=
  { pair with mValues := pair.mValues.set 0 value }

/-- Writing the first value keeps the copies in step only if it writes what is there. -/
theorem withFirst_inStep_iff {pair : Pair} (hstep : pair.InStep) (hvalues : pair.mValues ≠ [])
    (value : Bytes) : (pair.withFirst value).InStep ↔ pair.mValues.head? = some value := by
  obtain ⟨first, rest, hpair⟩ := List.exists_cons_of_ne_nil hvalues
  rw [InStep] at hstep
  rw [InStep, withFirst, hstep, hpair, List.set_cons_zero, joined_cons, joined_cons,
    List.append_left_inj, List.head?_cons, Option.some_inj]

end Pair

/-! ## Edits of a list of pairs -/

namespace Rtvar

/-- Every pair of the list is in step. -/
def InStep (var : Rtvar) : Prop := ∀ pair ∈ var.mPairs, pair.InStep

theorem append_inStep {var : Rtvar} (hvar : var.InStep) (str : Bytes) :
    (var.append str).InStep := by
  intro pair hpair
  rcases List.mem_append.mp hpair with hold | hnew
  · exact hvar pair hold
  · rw [List.mem_singleton.mp hnew]
    exact Pair.parse_inStep str

theorem parse_inStep (str : Bytes) : (parse str).InStep := by
  have hrun : ∀ (lines : List Bytes) (var : Rtvar), var.InStep →
      (lines.foldl append var).InStep := by
    intro lines
    induction lines with
    | nil => exact fun _ hvar => hvar
    | cons line lines ih => exact fun _ hvar => ih _ (append_inStep hvar line)
  exact hrun _ {} nofun

theorem remove_inStep {var after : Rtvar} {key : Bytes} (hvar : var.InStep)
    (hremove : var.remove key = .ok after) : after.InStep := by
  unfold remove at hremove
  cases hfind : var.find key with
  | none =>
      rw [hfind] at hremove
      cases hremove
      exact hvar
  | some pair =>
      rw [hfind] at hremove
      obtain ⟨pairs, herase, hafter⟩ := except_bind_eq_ok hremove
      cases hafter
      exact fun pair hpair => hvar pair ((Remove.eraseSame_sublist herase).subset hpair)

/-- The list around the pair that `find` points to. -/
theorem find_eq_some {var : Rtvar} {key : Bytes} {pair : Pair} (hfind : var.find key = some pair) :
    ∃ before after, var.mPairs = before ++ pair :: after ∧ pair.mKey = key ∧
      ∀ earlier ∈ before, earlier.mKey ≠ key := by
  obtain ⟨hkey, before, after, hpairs, hbefore⟩ := List.find?_eq_some_iff_append.mp hfind
  exact ⟨before, after, hpairs, by simpa using hkey, fun earlier hearlier => by
    simpa using hbefore earlier hearlier⟩

theorem find_of_split {before after : List Pair} {pair : Pair} {key : Bytes}
    (hkey : pair.mKey = key) (hbefore : ∀ earlier ∈ before, earlier.mKey ≠ key) :
    find { mPairs := before ++ pair :: after } key = some pair := by
  refine List.find?_eq_some_iff_append.mpr ⟨by simpa using hkey, before, after, rfl, ?_⟩
  intro earlier hearlier
  simpa using hbefore earlier hearlier

theorem modifyFirst_split {before after : List Pair} {pair : Pair} {key : Bytes}
    (hkey : pair.mKey = key) (hbefore : ∀ earlier ∈ before, earlier.mKey ≠ key)
    (update : Pair → Pair) :
    modifyFirst key update (before ++ pair :: after) = before ++ update pair :: after := by
  induction before with
  | nil => rw [List.nil_append, modifyFirst, if_pos hkey, List.nil_append]
  | cons first before ih =>
      rw [List.cons_append, modifyFirst, if_neg (hbefore first List.mem_cons_self),
        ih fun earlier hearlier => hbefore earlier (List.mem_cons_of_mem first hearlier)]
      rfl

/-- `set` replaces the pair it finds, if that has a value, and nothing else. -/
theorem set_split {before after : List Pair} {pair : Pair} {key : Bytes}
    (hkey : pair.mKey = key) (hbefore : ∀ earlier ∈ before, earlier.mKey ≠ key)
    (hvalues : pair.mValues ≠ []) (value : Bytes) :
    set { mPairs := before ++ pair :: after } key value =
      { mPairs := before ++ pair.withFirst value :: after } := by
  have hlength : 1 ≤ pair.mValues.length := List.length_pos_iff.mpr hvalues
  rw [set, find_of_split hkey hbefore]
  simp only [if_pos hlength]
  rw [modifyFirst_split hkey hbefore]
  rfl

/-- The value is what the found pair already has in front; without such a pair or
without a value in it `set` does nothing. -/
def Harmless (var : Rtvar) (key value : Bytes) : Prop :=
  ∀ pair, var.find key = some pair → pair.mValues = [] ∨ pair.mValues.head? = some value

theorem set_inStep_iff {var : Rtvar} (hvar : var.InStep) (key value : Bytes) :
    (var.set key value).InStep ↔ var.Harmless key value := by
  cases hfind : var.find key with
  | none =>
      rw [set, hfind]
      exact ⟨fun _ pair hpair => (by rw [hfind] at hpair; cases hpair), fun _ => hvar⟩
  | some pair =>
      have hharmless : var.Harmless key value ↔
          pair.mValues = [] ∨ pair.mValues.head? = some value :=
        ⟨fun h => h pair hfind, fun h other hother => by
          rw [hfind] at hother; cases hother; exact h⟩
      rw [hharmless]
      by_cases hvalues : pair.mValues = []
      · rw [set, hfind]
        simp only [hvalues, List.length_nil, if_neg (by decide : ¬ 1 ≤ 0)]
        exact ⟨fun _ => .inl trivial, fun _ => hvar⟩
      · obtain ⟨before, after, hpairs, hkey, hbefore⟩ := find_eq_some hfind
        have hvarEq : var = { mPairs := before ++ pair :: after } := by rw [← hpairs]
        have hrest (other : Pair) (hother : other ∈ before ∨ other ∈ after) : other.InStep := by
          apply hvar other
          rw [hpairs, List.mem_append, List.mem_cons]
          tauto
        have hpair := Pair.withFirst_inStep_iff
          (hvar pair (by rw [hpairs]; simp)) hvalues value
        rw [hvarEq, set_split hkey hbefore hvalues, or_iff_right hvalues, ← hpair]
        constructor
        · intro hafter
          exact hafter _ (by simp)
        · intro hchanged other hother
          rcases List.mem_append.mp hother with hbeforeMem | hlater
          · exact hrest other (.inl hbeforeMem)
          · rcases List.mem_cons.mp hlater with rfl | hafterMem
            · exact hchanged
            · exact hrest other (.inr hafterMem)

/-- What is found under a key after `set` has written a first value. -/
theorem find_set {var : Rtvar} {key : Bytes} {pair : Pair} (hfind : var.find key = some pair)
    (hvalues : pair.mValues ≠ []) (value : Bytes) :
    (var.set key value).find key = some (pair.withFirst value) := by
  obtain ⟨before, after, hpairs, hkey, hbefore⟩ := find_eq_some hfind
  have hvar : var = { mPairs := before ++ pair :: after } := by rw [← hpairs]
  rw [hvar, set_split hkey hbefore hvalues]
  exact find_of_split hkey hbefore

/-! ## Sequences of edits -/

/-- A call of one of the mutators. -/
inductive Edit where
  | append (str : Bytes)
  | set (key value : Bytes)
  | remove (key : Bytes)
  deriving DecidableEq, Repr

/-- The list after a call, unless the call reads a value that is not there. -/
def edit (var : Rtvar) : Edit → Option Rtvar
  | .append str => some (var.append str)
  | .set key value => some (var.set key value)
  | .remove key => (var.remove key).toOption

/-- The calls that keep the copies in step. -/
def HarmlessEdit (var : Rtvar) : Edit → Prop
  | .set key value => var.Harmless key value
  | _ => True

theorem edit_inStep_iff {var next : Rtvar} (hvar : var.InStep) {change : Edit}
    (hnext : var.edit change = some next) : next.InStep ↔ var.HarmlessEdit change := by
  cases change with
  | append str =>
      cases hnext
      exact ⟨fun _ => trivial, fun _ => append_inStep hvar str⟩
  | set key value =>
      cases hnext
      exact set_inStep_iff hvar key value
  | remove key =>
      rw [edit] at hnext
      cases hremove : var.remove key with
      | error failure => rw [hremove] at hnext; cases hnext
      | ok after =>
          rw [hremove] at hnext
          cases hnext
          exact ⟨fun _ => trivial, fun _ => remove_inStep hvar hremove⟩

/-- Along a sequence of edits the two copies agree throughout exactly if every `set`
writes the value that is already there. After such a sequence a further `set` is
serialized, but `get` reads it back only if it, too, has written what was there. -/
theorem copies_agree_iff (text : Bytes) (changes : List Edit) :
    (EveryState edit InStep (parse text) changes ↔
      EveryStep edit HarmlessEdit (parse text) changes) ∧
    ∀ var, runSteps edit (parse text) changes = some var →
      EveryStep edit HarmlessEdit (parse text) changes →
      ∀ key value pair, var.find key = some pair → pair.mValues ≠ [] →
        (∃ stored, (var.set key value).find key = some stored ∧
          stored.serialize = key ++ bar :: joined (value :: pair.mValues.tail)) ∧
        ((var.set key value).get key = joined (value :: pair.mValues.tail) ↔
          pair.mValues.head? = some value) := by
  have hstart := parse_inStep text
  refine ⟨Runs.everyState_iff_everyStep (fun _ => id)
    (fun var change next hvar hharmless hnext => (edit_inStep_iff hvar hnext).mpr hharmless)
    (fun var change next hvar hharmful hnext hinStep =>
      hharmful ((edit_inStep_iff hvar hnext).mp hinStep)) changes _ hstart, ?_⟩
  intro var hrun hharmless key value pair hfind hvalues
  have hvar : var.InStep := Runs.everyState_last (Runs.everyState_of_everyStep
    (fun var change next hvar hharmless hnext => (edit_inStep_iff hvar hnext).mpr hharmless)
    changes _ hstart hharmless) hrun
  have hstored := find_set hfind hvalues value
  obtain ⟨-, -, -, hkey, -⟩ := find_eq_some hfind
  obtain ⟨first, rest, hpair⟩ := List.exists_cons_of_ne_nil hvalues
  have hnew : (pair.withFirst value).mValues = value :: rest := by
    rw [Pair.withFirst, hpair, List.set_cons_zero]
  constructor
  · refine ⟨_, hstored, ?_⟩
    rw [Pair.serialize_eq (by rw [hnew]; exact List.cons_ne_nil _ _), hnew, hpair, ← hkey]
    rfl
  · rw [get, hstored, ← Pair.withFirst_inStep_iff (hvar pair (List.mem_of_find?_eq_some hfind))
      hvalues value, Pair.InStep, hnew, hpair, List.tail_cons]

instance (var : Rtvar) : (change : Edit) → Decidable (HarmlessEdit var change)
  | .append _ => .isTrue trivial
  | .set key value =>
      decidable_of_iff ((var.find key).all fun pair =>
          pair.mValues = [] ∨ pair.mValues.head? = some value) <| by
        rw [HarmlessEdit, Harmless, Option.all_eq_true]
        simp only [decide_eq_true_eq]
  | .remove _ => .isTrue trivial

/-- A line is appended, a value written over itself and a line removed; the value written then
is the one that is there, and reads back. -/
theorem copies_agree_sample :
    EveryState edit InStep (parse (ascii "netID|4\nposXY|1|2"))
        [.append (ascii "name|Bob"), .set (ascii "name") (ascii "Bob"), .remove (ascii "netID")] ∧
      ∃ var, runSteps edit (parse (ascii "netID|4\nposXY|1|2")) [.append (ascii "name|Bob"),
          .set (ascii "name") (ascii "Bob"), .remove (ascii "netID")] = some var ∧
        var.mPairs.map Pair.mKey = [ascii "posXY", ascii "name"] ∧
        (var.set (ascii "posXY") (ascii "1")).get (ascii "posXY") = ascii "1|2" := by
  obtain ⟨hagree, hreads⟩ := copies_agree_iff (ascii "netID|4\nposXY|1|2")
    [.append (ascii "name|Bob"), .set (ascii "name") (ascii "Bob"), .remove (ascii "netID")]
  refine ⟨hagree.mpr (by decide), _, rfl, by decide, ?_⟩
  exact (hreads _ rfl (by decide) (ascii "posXY") (ascii "1")
    { mKey := ascii "posXY", mValues := [ascii "1", ascii "2"], mValue := ascii "1|2" }
    (by decide) (by decide)).2.mpr (by decide)

/-- After `set` the value read back is the old one. -/
theorem set_not_read_back :
    ¬ EveryState edit InStep (parse (ascii "key|old")) [.set (ascii "key") (ascii "new")] ∧
      ((parse (ascii "key|old")).set (ascii "key") (ascii "new")).get (ascii "key") =
        ascii "old" := by
  refine ⟨fun hevery => ?_, by decide⟩
  have hafter := hevery.2 _ rfl
  exact absurd (hafter { mKey := ascii "key", mValues := [ascii "new"], mValue := ascii "old" }
    (by decide)) (by unfold Pair.InStep; decide)

end Rtvar

end SrmotionProxy.Proton
