/-
# What the compressor predicts

The compressor without its table: for every context, the bytes that have been seen behind it.
A context is the list of the bytes before, the last one first, so a shorter context is a front
part of a longer one. `learn` walks from the longest context down, until one has the byte
already; `slots` are the shares of the coding interval that the byte gets on this way.
-/

import SrmotionProxy.ENet.Compress
import SrmotionProxy.Lib.FrequencyTree
import SrmotionProxy.Lib.RangeCoder

namespace SrmotionProxy.ENet.Compress

open SrmotionProxy.Lib
open SrmotionProxy.Lib.RangeCoder (Slot)

/-! ## One context -/

/-- What has been counted behind one context. -/
structure Statistics where
  tree : FrequencyTree := .leaf
  escapes : Nat := 0
  total : Nat := 0
  deriving DecidableEq, Repr

namespace Statistics

def add (statistics : Statistics) (value update : Nat) : Statistics :=
  { statistics with tree := statistics.tree.add value update }

def escape (statistics : Statistics) : Statistics :=
  { statistics with
    escapes := statistics.escapes + ENET_SUBCONTEXT_ESCAPE_DELTA
    total := statistics.total + ENET_SUBCONTEXT_ESCAPE_DELTA }

def rescale (statistics : Statistics) (minimum : Nat) : Statistics :=
  let escapes := statistics.escapes - statistics.escapes / 2
  let tree := statistics.tree.halve
  ⟨tree, escapes, tree.total + (escapes + 256 * minimum)⟩

/-- The total follows a count of `number`, and statistics that have got too large are halved. -/
def count (statistics : Statistics) (number delta top minimum : Nat) : Statistics :=
  let statistics := { statistics with total := statistics.total + delta }
  if top < number ∨ ENET_RANGE_CODER_BOTTOM - 0x100 < statistics.total then statistics.rescale minimum
  else statistics

def countSubcontext (statistics : Statistics) (number : Nat) : Statistics :=
  statistics.count number ENET_SUBCONTEXT_SYMBOL_DELTA (0xFF - 2 * ENET_SUBCONTEXT_SYMBOL_DELTA) 0

def countRoot (statistics : Statistics) (number : Nat) : Statistics :=
  statistics.count number ENET_CONTEXT_SYMBOL_DELTA
    (0xFF - 2 * ENET_CONTEXT_SYMBOL_DELTA + ENET_CONTEXT_SYMBOL_MINIMUM) ENET_CONTEXT_SYMBOL_MINIMUM

/-- A subcontext sees a byte it has. -/
def meet (statistics : Statistics) (value : Nat) : Statistics :=
  (statistics.add value ENET_SUBCONTEXT_SYMBOL_DELTA).countSubcontext (statistics.tree.count value)

/-- A subcontext sees a byte it has not. -/
def miss (statistics : Statistics) (value : Nat) : Statistics :=
  (statistics.add value ENET_SUBCONTEXT_SYMBOL_DELTA).escape.countSubcontext 0

/-- The root sees a byte. -/
def meetRoot (statistics : Statistics) (value : Nat) : Statistics :=
  (statistics.add value ENET_CONTEXT_SYMBOL_DELTA).countRoot
    (ENET_CONTEXT_SYMBOL_MINIMUM + statistics.tree.count value)

/-- The share of a byte that the subcontext has. -/
def slot (statistics : Statistics) (value : Nat) : Slot :=
  ⟨statistics.escapes + statistics.tree.before value, statistics.tree.count value, statistics.total⟩

/-- The share of an escape. -/
def escapeSlot (statistics : Statistics) : Slot :=
  ⟨0, statistics.escapes, statistics.total⟩

/-- Where there is nothing to escape from, an escape takes no share. -/
def escapeSlots (statistics : Statistics) : List Slot :=
  if 0 < statistics.escapes ∧ statistics.escapes < statistics.total then [statistics.escapeSlot] else []

/-- The share of a byte in the root; each byte has one part from the beginning. -/
def rootSlot (statistics : Statistics) (value : Nat) : Slot :=
  ⟨statistics.escapes + (value * ENET_CONTEXT_SYMBOL_MINIMUM + statistics.tree.before value),
    ENET_CONTEXT_SYMBOL_MINIMUM + statistics.tree.count value, statistics.total⟩

/-- What holds of every context; `minimum` is what a byte counts before it has been seen. -/
structure Sound (statistics : Statistics) (minimum : Nat) : Prop where
  ordered : statistics.tree.Ordered 0 256
  counts : statistics.tree.Counts (253 - minimum)
  total : statistics.total = statistics.escapes + statistics.tree.total + 256 * minimum
  small : statistics.total ≤ ENET_RANGE_CODER_BOTTOM - 0x100

/-- What holds of a subcontext: an escape for each byte, but not more than five. -/
structure SoundSubcontext (statistics : Statistics) : Prop extends statistics.Sound 0 where
  escapes_le : statistics.escapes ≤ ENET_SUBCONTEXT_ESCAPE_DELTA * statistics.tree.size
  escapes_pos : statistics.tree ≠ .leaf → 0 < statistics.escapes

/-- What holds of the root. -/
structure SoundRoot (statistics : Statistics) : Prop
    extends statistics.Sound ENET_CONTEXT_SYMBOL_MINIMUM where
  escapes : statistics.escapes = ENET_CONTEXT_ESCAPE_MINIMUM

variable {statistics : Statistics} {value number delta top minimum : Nat}

theorem tree_count : (statistics.count number delta top minimum).tree = statistics.tree ∨
    (statistics.count number delta top minimum).tree = statistics.tree.halve := by
  rw [count]
  split
  · exact .inr rfl
  · exact .inl rfl

theorem tree_count_has {other : Nat} :
    (statistics.count number delta top minimum).tree.Has other ↔ statistics.tree.Has other := by
  rcases @tree_count statistics number delta top minimum with htree | htree
  · rw [htree]
  · rw [htree, FrequencyTree.has_halve_iff]

/-- Counts stay below 254: one that would not has been halved. -/
theorem count_sound (hordered : statistics.tree.Ordered 0 256) (hcounts : statistics.tree.Counts 255)
    (htop : number ≤ top → statistics.tree.Counts (253 - minimum))
    (htotal : statistics.total + delta =
      statistics.escapes + statistics.tree.total + 256 * minimum)
    (hsmall : statistics.total + delta < 2 ^ 16 - 2 ^ 7) (hminimum : minimum ≤ 1) :
    (statistics.count number delta top minimum).Sound minimum := by
  have hsize := hordered.size_le
  have hhalf : 2 * statistics.tree.halve.total ≤ statistics.tree.total + statistics.tree.size :=
    FrequencyTree.total_halve_le
  rw [count]
  split
  · have hhalved := hcounts.halve
    refine ⟨hordered.halve, hhalved.mono (by omega), ?_, ?_⟩
    · simp only [rescale]
      omega
    · simp only [rescale, ENET_RANGE_CODER_BOTTOM]
      omega
  · rename_i hstays
    rw [not_or, not_lt, not_lt] at hstays
    exact ⟨hordered, htop hstays.1, htotal, hstays.2⟩

theorem tree_meet_has {other : Nat} :
    (statistics.meet value).tree.Has other ↔ other = value ∨ statistics.tree.Has other :=
  tree_count_has.trans FrequencyTree.has_add_iff

theorem tree_miss_has {other : Nat} :
    (statistics.miss value).tree.Has other ↔ other = value ∨ statistics.tree.Has other :=
  tree_count_has.trans FrequencyTree.has_add_iff

theorem tree_meetRoot_has {other : Nat} :
    (statistics.meetRoot value).tree.Has other ↔ other = value ∨ statistics.tree.Has other :=
  tree_count_has.trans FrequencyTree.has_add_iff

theorem escapes_count_le :
    (statistics.count number delta top minimum).escapes ≤ statistics.escapes := by
  rw [count]
  split
  · exact Nat.sub_le _ _
  · exact le_rfl

theorem escapes_count_pos (hescapes : 0 < statistics.escapes) :
    0 < (statistics.count number delta top minimum).escapes := by
  rw [count]
  split
  · simp only [rescale]
    omega
  · exact hescapes

theorem size_count :
    (statistics.count number delta top minimum).tree.size = statistics.tree.size := by
  rcases @tree_count statistics number delta top minimum with htree | htree
  · rw [htree]
  · rw [htree, FrequencyTree.size_halve]

section Subcontext

variable (hsound : statistics.SoundSubcontext) (hvalue : value < 256)

include hsound

/-- Every subcontext that knows a byte can be escaped from. -/
theorem SoundSubcontext.escapes_lt (hknown : statistics.tree ≠ .leaf) :
    0 < statistics.escapes ∧ statistics.escapes < statistics.total := by
  have hpositive := hsound.escapes_pos hknown
  have hsize := hsound.counts.size_le_total
  have hnonempty : 0 < statistics.tree.size := FrequencyTree.size_pos hknown
  have htotal := hsound.total
  omega

theorem SoundSubcontext.escapeSlot_fits (hknown : statistics.tree ≠ .leaf) :
    statistics.escapeSlot.Fits := by
  have hescapes := hsound.escapes_lt hknown
  have hsize := hsound.counts.size_le_total
  have hmost := hsound.escapes_le
  have htotal := hsound.total
  have hsmall := hsound.small
  simp only [ENET_RANGE_CODER_BOTTOM, ENET_SUBCONTEXT_ESCAPE_DELTA] at hsmall hmost
  refine ⟨hescapes.1, ?_, ?_, ?_⟩ <;> simp only [escapeSlot] <;> omega

theorem SoundSubcontext.escapeSlots_fit : ∀ slot ∈ statistics.escapeSlots, slot.Fits := by
  intro slot hslot
  rw [escapeSlots] at hslot
  split at hslot
  · rename_i hescapes
    rw [List.mem_singleton] at hslot
    refine hslot ▸ hsound.escapeSlot_fits fun hleaf => ?_
    have htotal := hsound.total
    rw [hleaf, FrequencyTree.total] at htotal
    omega
  · cases hslot

theorem SoundSubcontext.slot_fits (hhas : statistics.tree.Has value) :
    (statistics.slot value).Fits := by
  have hescapes := hsound.escapes_pos (FrequencyTree.ne_leaf_of_has hhas)
  have hnumber := (FrequencyTree.count_pos_iff hsound.ordered hsound.counts).mpr hhas
  have hmost : statistics.tree.count value ≤ 253 := hsound.counts.count_le
  have hinside := @FrequencyTree.before_add_count_le statistics.tree value
  have htotal := hsound.total
  have hsmall := hsound.small
  simp only [ENET_RANGE_CODER_BOTTOM] at hsmall
  refine ⟨hnumber, ?_, ?_, ?_⟩ <;> simp only [slot] <;> omega

include hvalue

theorem SoundSubcontext.meet (hhas : statistics.tree.Has value) :
    (statistics.meet value).SoundSubcontext := by
  have hmost : statistics.tree.count value ≤ 253 := hsound.counts.count_le
  have htotal := hsound.total
  have hsmall := hsound.small
  have hescapes := hsound.escapes_pos (FrequencyTree.ne_leaf_of_has hhas)
  simp only [ENET_RANGE_CODER_BOTTOM] at hsmall
  have hsize := @FrequencyTree.size_add_of_has _ value ENET_SUBCONTEXT_SYMBOL_DELTA _ _ hsound.ordered hhas
  have hcounted : (statistics.meet value).Sound 0 := by
    refine count_sound (hsound.ordered.add (Nat.zero_le _) hvalue) ?_ (fun htop => ?_) ?_ ?_
      (Nat.zero_le _)
    · exact (hsound.counts.mono (by decide)).add (by decide)
        (by simp only [ENET_SUBCONTEXT_SYMBOL_DELTA]; omega)
    · exact hsound.counts.add (by decide) (by simp only [ENET_SUBCONTEXT_SYMBOL_DELTA] at htop ⊢; omega)
    · simp only [add, FrequencyTree.total_add]
      omega
    · simp only [add, ENET_SUBCONTEXT_SYMBOL_DELTA]
      omega
  refine ⟨hcounted, escapes_count_le.trans ?_, fun _ => escapes_count_pos hescapes⟩
  rw [Statistics.meet, countSubcontext, size_count, add, hsize]
  exact hsound.escapes_le

theorem SoundSubcontext.miss (hhas : ¬ statistics.tree.Has value) :
    (statistics.miss value).SoundSubcontext := by
  have hnone : statistics.tree.count value = 0 := by
    have hpositive := (FrequencyTree.count_pos_iff hsound.ordered hsound.counts).not.mpr hhas
    omega
  have htotal := hsound.total
  have hsmall := hsound.small
  simp only [ENET_RANGE_CODER_BOTTOM] at hsmall
  have hsize := @FrequencyTree.size_add_of_not_has _ value ENET_SUBCONTEXT_SYMBOL_DELTA hhas
  have hcounted : (statistics.miss value).Sound 0 := by
    have hadded : (statistics.tree.add value ENET_SUBCONTEXT_SYMBOL_DELTA).Counts 253 :=
      hsound.counts.add (by decide) (by simp only [hnone, ENET_SUBCONTEXT_SYMBOL_DELTA]; decide)
    refine count_sound (hsound.ordered.add (Nat.zero_le _) hvalue) (hadded.mono (by decide))
      (fun _ => hadded) ?_ ?_ (Nat.zero_le _)
    · simp only [escape, add, FrequencyTree.total_add]
      omega
    · simp only [escape, add, ENET_SUBCONTEXT_SYMBOL_DELTA, ENET_SUBCONTEXT_ESCAPE_DELTA]
      omega
  refine ⟨hcounted, escapes_count_le.trans ?_, fun _ => escapes_count_pos (Nat.succ_pos _)⟩
  rw [Statistics.miss, countSubcontext, size_count, escape, add, hsize, Nat.mul_succ]
  exact Nat.add_le_add_right hsound.escapes_le _

end Subcontext

section Root

variable (hsound : statistics.SoundRoot) (hvalue : value < 256)

include hsound

theorem SoundRoot.escapeSlot_fits : statistics.escapeSlot.Fits := by
  have hescapes := hsound.escapes
  have htotal := hsound.total
  have hsmall := hsound.small
  simp only [ENET_RANGE_CODER_BOTTOM, ENET_CONTEXT_ESCAPE_MINIMUM, ENET_CONTEXT_SYMBOL_MINIMUM] at *
  refine ⟨?_, ?_, ?_, ?_⟩ <;> simp only [escapeSlot] <;> omega

include hvalue

theorem SoundRoot.rootSlot_fits : (statistics.rootSlot value).Fits := by
  have hescapes := hsound.escapes
  have hmost : statistics.tree.count value ≤ 252 := hsound.counts.count_le
  have hinside := @FrequencyTree.before_add_count_le statistics.tree value
  have htotal := hsound.total
  have hsmall := hsound.small
  simp only [ENET_RANGE_CODER_BOTTOM, ENET_CONTEXT_ESCAPE_MINIMUM, ENET_CONTEXT_SYMBOL_MINIMUM] at *
  refine ⟨?_, ?_, ?_, ?_⟩ <;> simp only [rootSlot, ENET_CONTEXT_SYMBOL_MINIMUM] <;> omega

theorem SoundRoot.meetRoot : (statistics.meetRoot value).SoundRoot := by
  have hmost : statistics.tree.count value ≤ 252 := hsound.counts.count_le
  have hescapes := hsound.escapes
  have htotal := hsound.total
  have hsmall := hsound.small
  simp only [ENET_RANGE_CODER_BOTTOM, ENET_CONTEXT_ESCAPE_MINIMUM] at hsmall hescapes
  refine ⟨?_, ?_⟩
  · refine count_sound (hsound.ordered.add (Nat.zero_le _) hvalue) ?_ (fun htop => ?_) ?_ ?_ le_rfl
    · exact (hsound.counts.mono (by decide)).add (by decide)
        (by simp only [ENET_CONTEXT_SYMBOL_DELTA]; omega)
    · exact hsound.counts.add (by decide) (by
        simp only [ENET_CONTEXT_SYMBOL_DELTA, ENET_CONTEXT_SYMBOL_MINIMUM] at htop ⊢
        omega)
    · simp only [add, FrequencyTree.total_add]
      omega
    · simp only [add, ENET_CONTEXT_SYMBOL_DELTA]
      omega
  · refine le_antisymm (escapes_count_le.trans hsound.escapes.le) ?_
    exact escapes_count_pos (hescapes ▸ Nat.one_pos)

end Root

end Statistics

/-! ## All contexts -/

abbrev Predictor := List Nat → Statistics

namespace Predictor

/-- The bytes of the path have been seen one behind the other. -/
def Known (predictor : Predictor) : List Nat → Prop
  | [] => True
  | value :: context => predictor.Known context ∧ (predictor context).tree.Has value

instance decidableKnown (predictor : Predictor) : (path : List Nat) → Decidable (predictor.Known path)
  | [] => inferInstanceAs (Decidable True)
  | value :: context =>
      have := decidableKnown predictor context
      inferInstanceAs (Decidable (predictor.Known context ∧ (predictor context).tree.Has value))

/-- What the contexts in front of the root do, from the longest one on, and the root. -/
def learn (history : List Nat) (value : Nat) : Nat → Predictor → Predictor
  | 0, predictor => Function.update predictor [] ((predictor []).meetRoot value)
  | length + 1, predictor =>
      let context := history.take (length + 1)
      if (predictor context).tree.Has value then
        Function.update predictor context ((predictor context).meet value)
      else learn history value length (Function.update predictor context ((predictor context).miss value))

/-- The shares that the byte gets. -/
def slots (history : List Nat) (value : Nat) (predictor : Predictor) : Nat → List Slot
  | 0 => [(predictor []).rootSlot value]
  | length + 1 =>
      let context := history.take (length + 1)
      if (predictor context).tree.Has value then [(predictor context).slot value]
      else (predictor context).escapeSlots ++ slots history value predictor length

/-- The number of contexts that have not had the byte and have it now. -/
def created (history : List Nat) (value : Nat) (predictor : Predictor) : Nat → Nat
  | 0 => if (predictor []).tree.Has value then 0 else 1
  | length + 1 =>
      if (predictor (history.take (length + 1))).tree.Has value then 0
      else created history value predictor length + 1

/-- What holds of the contexts. -/
structure Sound (predictor : Predictor) : Prop where
  root : (predictor []).SoundRoot
  subcontexts : ∀ context ≠ [], (predictor context).SoundSubcontext
  empty : ∀ path, ¬ predictor.Known path → predictor path = {}

variable {predictor : Predictor} {context path history : List Nat} {value length : Nat}
  {statistics : Statistics}

theorem known_congr {other : Predictor}
    (hhas : ∀ context value, (other context).tree.Has value ↔ (predictor context).tree.Has value) :
    other.Known path ↔ predictor.Known path := by
  induction path with
  | nil => rfl
  | cons value context ih => rw [Known, Known, ih, hhas]

theorem known_update_congr
    (hhas : ∀ other, statistics.tree.Has other ↔ (predictor context).tree.Has other) :
    Known (Function.update predictor context statistics) path ↔ predictor.Known path :=
  known_congr fun other value => by
    by_cases hcontext : other = context
    · rw [hcontext, Function.update_self, hhas]
    · rw [Function.update_of_ne hcontext]

theorem known_update_update {other : Statistics}
    (hhas : ∀ value, other.tree.Has value ↔ statistics.tree.Has value) :
    Known (Function.update predictor context other) path ↔
      Known (Function.update predictor context statistics) path :=
  known_congr fun another value => by
    by_cases hcontext : another = context
    · rw [hcontext, Function.update_self, Function.update_self, hhas]
    · rw [Function.update_of_ne hcontext, Function.update_of_ne hcontext]

theorem known_update_iff (hknown : predictor.Known context)
    (hhas : ∀ other, statistics.tree.Has other ↔ other = value ∨ (predictor context).tree.Has other)
    (hempty : ∀ path, ¬ predictor.Known path → predictor path = {}) :
    Known (Function.update predictor context statistics) path ↔
      predictor.Known path ∨ path = value :: context := by
  induction path with
  | nil => exact iff_of_true trivial (.inl trivial)
  | cons other path ih =>
      rw [Known, Known, ih]
      by_cases hcontext : path = context
      · subst hcontext
        rw [Function.update_self, hhas, List.cons.injEq]
        tauto
      · rw [Function.update_of_ne hcontext, List.cons.injEq]
        constructor
        · rintro ⟨hpath | rfl, hother⟩
          · exact .inl ⟨hpath, hother⟩
          · by_cases hvalue : predictor.Known (value :: context)
            · exact .inl ⟨hvalue, hother⟩
            · rw [hempty _ hvalue] at hother
              cases hother
        · rintro (⟨hpath, hother⟩ | ⟨-, hpath⟩)
          · exact ⟨.inl hpath, hother⟩
          · exact absurd hpath hcontext

theorem Sound.update (hsound : predictor.Sound) (hknown : predictor.Known context)
    (hhas : ∀ other, statistics.tree.Has other ↔ other = value ∨ (predictor context).tree.Has other)
    (hroot : context = [] → statistics.SoundRoot)
    (hsubcontext : context ≠ [] → statistics.SoundSubcontext) :
    Sound (Function.update predictor context statistics) where
  root := by
    by_cases hcontext : context = []
    · subst hcontext
      rw [Function.update_self]
      exact hroot rfl
    · rw [Function.update_of_ne (Ne.symm hcontext)]
      exact hsound.root
  subcontexts path hpath := by
    by_cases hcontext : path = context
    · subst hcontext
      rw [Function.update_self]
      exact hsubcontext hpath
    · rw [Function.update_of_ne hcontext]
      exact hsound.subcontexts path hpath
  empty path hpath := by
    rw [known_update_iff hknown hhas hsound.empty, not_or] at hpath
    rw [Function.update_of_ne, hsound.empty path hpath.1]
    rintro rfl
    exact hpath.1 hknown

theorem known_of_update (hknown : predictor.Known context)
    (hhas : ∀ other, statistics.tree.Has other ↔ other = value ∨ (predictor context).tree.Has other)
    (hempty : ∀ path, ¬ predictor.Known path → predictor path = {}) (hpath : predictor.Known path) :
    Known (Function.update predictor context statistics) path :=
  (known_update_iff hknown hhas hempty).mpr (.inl hpath)

theorem take_succ_ne_nil (hlength : length < history.length) : history.take (length + 1) ≠ [] := by
  rw [Ne, List.take_eq_nil_iff, ← List.length_eq_zero_iff]
  omega

/-- A context is not one of the shorter ones. -/
theorem take_ne_take {shorter : Nat} (hshorter : shorter ≤ length) (hlength : length < history.length) :
    history.take shorter ≠ history.take (length + 1) := fun hsame => by
  have hlengths := congrArg List.length hsame
  rw [List.length_take, List.length_take] at hlengths
  omega

theorem slots_congr {other : Predictor}
    (hsame : ∀ shorter ≤ length, other (history.take shorter) = predictor (history.take shorter)) :
    other.slots history value length = predictor.slots history value length := by
  induction length with
  | zero =>
      have hroot := hsame 0 le_rfl
      rw [List.take_zero] at hroot
      rw [slots, slots, hroot]
  | succ length ih =>
      rw [slots, slots]
      simp only [hsame (length + 1) le_rfl, ih fun shorter hshorter => hsame shorter (Nat.le_succ_of_le hshorter)]

theorem created_congr {other : Predictor}
    (hsame : ∀ shorter ≤ length, other (history.take shorter) = predictor (history.take shorter)) :
    other.created history value length = predictor.created history value length := by
  induction length with
  | zero =>
      have hroot := hsame 0 le_rfl
      rw [List.take_zero] at hroot
      rw [created, created, hroot]
  | succ length ih =>
      rw [created, created]
      simp only [hsame (length + 1) le_rfl, ih fun shorter hshorter => hsame shorter (Nat.le_succ_of_le hshorter)]

section Learning

variable (hsound : predictor.Sound) (hvalue : value < 256)

include hsound hvalue

theorem Sound.meetRoot :
    Sound (Function.update predictor [] ((predictor []).meetRoot value)) :=
  @Sound.update predictor [] value _ hsound trivial (fun _ => Statistics.tree_meetRoot_has)
    (fun _ => hsound.root.meetRoot hvalue) (absurd rfl)

theorem Sound.meet (hknown : predictor.Known context) (hcontext : context ≠ [])
    (hhas : (predictor context).tree.Has value) :
    Sound (Function.update predictor context ((predictor context).meet value)) :=
  @Sound.update predictor context value _ hsound hknown (fun _ => Statistics.tree_meet_has)
    (fun hempty => absurd hempty hcontext) fun _ => (hsound.subcontexts context hcontext).meet hvalue hhas

theorem Sound.miss (hknown : predictor.Known context) (hcontext : context ≠ [])
    (hhas : ¬ (predictor context).tree.Has value) :
    Sound (Function.update predictor context ((predictor context).miss value)) :=
  @Sound.update predictor context value _ hsound hknown (fun _ => Statistics.tree_miss_has)
    (fun hempty => absurd hempty hcontext) fun _ => (hsound.subcontexts context hcontext).miss hvalue hhas

theorem Sound.learn (hlength : length ≤ history.length)
    (hknown : ∀ length, predictor.Known (history.take length)) :
    (learn history value length predictor).Sound := by
  induction length generalizing predictor with
  | zero => exact hsound.meetRoot hvalue
  | succ length ih =>
      rw [Predictor.learn]
      have hcontext := take_succ_ne_nil hlength
      by_cases hhas : (predictor (history.take (length + 1))).tree.Has value
      · rw [if_pos hhas]
        exact hsound.meet hvalue (hknown _) hcontext hhas
      · rw [if_neg hhas]
        refine ih (hsound.miss hvalue (hknown _) hcontext hhas) (Nat.le_of_succ_le hlength) fun length => ?_
        exact @known_of_update predictor _ _ value _ (hknown _) (fun _ => Statistics.tree_miss_has)
          hsound.empty (hknown length)

/-- All shares can be coded. -/
theorem Sound.slots_fit (hlength : length ≤ history.length) :
    ∀ slot ∈ predictor.slots history value length, slot.Fits := by
  induction length with
  | zero =>
      intro slot hslot
      rw [slots, List.mem_singleton] at hslot
      exact hslot ▸ hsound.root.rootSlot_fits hvalue
  | succ length ih =>
      have hsubcontext := hsound.subcontexts _ (take_succ_ne_nil hlength)
      intro slot hslot
      rw [slots] at hslot
      by_cases hhas : (predictor (history.take (length + 1))).tree.Has value
      · rw [if_pos hhas, List.mem_singleton] at hslot
        exact hslot ▸ hsubcontext.slot_fits hhas
      · rw [if_neg hhas, List.mem_append] at hslot
        rcases hslot with hslot | hslot
        · exact hsubcontext.escapeSlots_fit slot hslot
        · exact ih (Nat.le_of_succ_le hlength) slot hslot

end Learning

/-! ### In another order -/

/-- The longest context that has the byte, or the root. -/
def bottom (predictor : Predictor) (history : List Nat) (value : Nat) : Nat → Nat
  | 0 => 0
  | length + 1 =>
      if (predictor (history.take (length + 1))).tree.Has value then length + 1
      else bottom predictor history value length

/-- The context that has the byte, or the root, learns it. -/
def found (predictor : Predictor) (context : List Nat) (value : Nat) : Predictor :=
  Function.update predictor context
    (if context = [] then (predictor context).meetRoot value else (predictor context).meet value)

/-- The contexts above learn it afterwards. -/
def patch (history : List Nat) (value bottom : Nat) : Nat → Predictor → Predictor
  | 0, predictor => predictor
  | length + 1, predictor =>
      if length + 1 ≤ bottom then predictor
      else patch history value bottom length (Function.update predictor (history.take (length + 1))
        ((predictor (history.take (length + 1))).miss value))

theorem bottom_le : predictor.bottom history value length ≤ length := by
  induction length with
  | zero => exact le_rfl
  | succ length ih =>
      rw [bottom]
      split
      · exact le_rfl
      · exact Nat.le_succ_of_le ih

theorem bottom_has (hbottom : predictor.bottom history value length ≠ 0) :
    (predictor (history.take (predictor.bottom history value length))).tree.Has value := by
  induction length with
  | zero => exact absurd rfl hbottom
  | succ length ih =>
      rw [bottom] at hbottom ⊢
      by_cases hhas : (predictor (history.take (length + 1))).tree.Has value
      · rwa [if_pos hhas]
      · rw [if_neg hhas] at hbottom ⊢
        exact ih hbottom

theorem Sound.found (hsound : predictor.Sound) (hvalue : value < 256)
    (hknown : ∀ length, predictor.Known (history.take length)) :
    (predictor.found (history.take (predictor.bottom history value length)) value).Sound := by
  rw [Predictor.found]
  by_cases hcontext : history.take (predictor.bottom history value length) = []
  · rw [if_pos hcontext, hcontext]
    exact hsound.meetRoot hvalue
  · rw [if_neg hcontext]
    refine hsound.meet hvalue (hknown _) hcontext (bottom_has fun hzero => hcontext ?_)
    rw [hzero, List.take_zero]

theorem bottom_absent {longer : Nat} (hlonger : predictor.bottom history value length < longer)
    (hlength : longer ≤ length) : ¬ (predictor (history.take longer)).tree.Has value := by
  induction length with
  | zero => exact absurd (hlonger.trans_le hlength) (Nat.not_lt_zero _)
  | succ length ih =>
      rw [bottom] at hlonger
      by_cases hhas : (predictor (history.take (length + 1))).tree.Has value
      · rw [if_pos hhas] at hlonger
        omega
      · rw [if_neg hhas] at hlonger
        rcases hlength.lt_or_eq with hless | rfl
        · exact ih hlonger (Nat.le_of_lt_succ hless)
        · exact hhas

theorem created_eq : predictor.created history value length =
    (if (predictor (history.take (predictor.bottom history value length))).tree.Has value then 0 else 1) +
      (length - predictor.bottom history value length) := by
  induction length with
  | zero => rfl
  | succ length ih =>
      rw [created, bottom]
      by_cases hhas : (predictor (history.take (length + 1))).tree.Has value
      · rw [if_pos hhas, if_pos hhas, if_pos hhas, Nat.sub_self]
      · have hbottom : predictor.bottom history value length ≤ length := bottom_le
        rw [if_neg hhas, if_neg hhas, ih]
        omega

theorem bottom_congr {other : Predictor}
    (hsame : ∀ shorter ≤ length, other (history.take shorter) = predictor (history.take shorter)) :
    other.bottom history value length = predictor.bottom history value length := by
  induction length with
  | zero => rfl
  | succ length ih =>
      rw [bottom, bottom, hsame (length + 1) le_rfl,
        ih fun shorter hshorter => hsame shorter (Nat.le_succ_of_le hshorter)]

theorem patch_self : patch history value length length predictor = predictor := by
  cases length with
  | zero => rfl
  | succ length => exact if_pos le_rfl

theorem tree_found_has {other : Nat} : (predictor.found context value context).tree.Has other ↔
    other = value ∨ (predictor context).tree.Has other := by
  rw [found, Function.update_self]
  split
  · exact Statistics.tree_meetRoot_has
  · exact Statistics.tree_meet_has

theorem known_found (hempty : ∀ path, ¬ predictor.Known path → predictor path = {})
    (hknown : predictor.Known context) : (predictor.found context value).Known (value :: context) := by
  refine (@known_update_iff predictor context _ value _ hknown (fun other => ?_) hempty).mpr (.inr rfl)
  have hhas := @tree_found_has predictor context value other
  rwa [found, Function.update_self] at hhas

theorem found_of_ne {other : List Nat} (hother : other ≠ context) :
    predictor.found context value other = predictor other :=
  Function.update_of_ne hother _ _

/-- The contexts may learn a byte in the order of a reader, who knows it only when the last one
has been read. -/
theorem learn_eq_patch (hlength : length ≤ history.length) :
    learn history value length predictor = patch history value (predictor.bottom history value length)
      length (predictor.found (history.take (predictor.bottom history value length)) value) := by
  induction length generalizing predictor with
  | zero => rfl
  | succ length ih =>
      rw [learn, bottom]
      by_cases hhas : (predictor (history.take (length + 1))).tree.Has value
      · rw [if_pos hhas, if_pos hhas, patch_self, found, if_neg (take_succ_ne_nil hlength)]
      · have hbottom : predictor.bottom history value length ≤ length := bottom_le
        have hne := take_ne_take hbottom hlength
        rw [if_neg hhas, if_neg hhas, ih (Nat.le_of_succ_le hlength), bottom_congr fun shorter hshorter =>
          Function.update_of_ne (take_ne_take hshorter hlength) _ _, patch, if_neg (by omega)]
        congr 1
        rw [found, found, Function.update_of_ne hne, Function.update_of_ne hne.symm,
          Function.update_comm hne.symm]

end Predictor

/-! ## A run over bytes -/

/-- What has been predicted so far, with the bytes that the next one depends on. -/
structure Prediction where
  predictor : Predictor
  history : List Nat
  symbols : Nat

namespace Prediction

/-- One symbol for the root, and nothing seen. -/
def start : Prediction where
  predictor context :=
    if context = [] then
      { escapes := ENET_CONTEXT_ESCAPE_MINIMUM
        total := ENET_CONTEXT_ESCAPE_MINIMUM + 256 * ENET_CONTEXT_SYMBOL_MINIMUM }
    else {}
  history := []
  symbols := 1

/-- The shares of the next byte. -/
def slots (prediction : Prediction) (value : Nat) : List Slot :=
  prediction.predictor.slots prediction.history value prediction.history.length

/-- Everything is forgotten when there might be no room for the symbols of another byte. -/
def next (prediction : Prediction) (value : Nat) : Prediction :=
  let symbols := prediction.symbols +
    prediction.predictor.created prediction.history value prediction.history.length
  if symbolLimit - ENET_SUBCONTEXT_ORDER ≤ symbols then start
  else
    ⟨prediction.predictor.learn prediction.history value prediction.history.length,
      (value :: prediction.history).take ENET_SUBCONTEXT_ORDER, symbols⟩

/-- The shares of all bytes. -/
def shares : Prediction → List Nat → List Slot
  | _, [] => []
  | prediction, value :: values => prediction.slots value ++ shares (prediction.next value) values

/-- The prediction behind some bytes. -/
def behind (prediction : Prediction) (values : List Nat) : Prediction := values.foldl next prediction

theorem start_sound : start.predictor.Sound where
  root := ⟨⟨trivial, trivial, rfl, by decide⟩, rfl⟩
  subcontexts context hcontext := by
    simp only [start, if_neg hcontext]
    exact ⟨⟨trivial, trivial, rfl, Nat.zero_le _⟩, le_rfl, fun hleaf => absurd rfl hleaf⟩
  empty path hpath := by
    refine if_neg fun hempty => hpath ?_
    rw [hempty]
    trivial

end Prediction

end SrmotionProxy.ENet.Compress
