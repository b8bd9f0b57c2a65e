/-
# A range coder without carries

A range coder narrows an interval of 32-bit numbers once for each symbol and emits the
leading bytes that can no longer change. Where the leading byte stays open while the
interval gets short, the interval is cut at the next multiple of `2 ^ 16`, so a carry never
reaches a byte that has been emitted.

The main result says that a reader who narrows the same interval finds every slot again,
and after the last one reads zeros for ever. Slots may take at most 255 parts in 256 of their
total; without this a shift can lose the upper end of the interval.
-/

import Mathlib.Tactic.Ring
import SrmotionProxy.Lib.Text

namespace SrmotionProxy.Lib.RangeCoder

/-! ## Intervals -/

/-- The numbers from `low` on, `range` of them. -/
structure Interval where
  low : Nat
  range : Nat
  deriving DecidableEq, Repr

/-- The share of a symbol: `count` out of `total` parts, with `under` parts before it. -/
structure Slot where
  under : Nat
  count : Nat
  total : Nat
  deriving DecidableEq, Repr

/-- A share that the coder can narrow to. -/
structure Slot.Fits (slot : Slot) : Prop where
  nonempty : 0 < slot.count
  inside : slot.under + slot.count ≤ slot.total
  small : slot.total < 2 ^ 16
  spare : 256 * slot.count ≤ 255 * slot.total

namespace Interval

def Contains (interval : Interval) (number : Nat) : Prop :=
  interval.low ≤ number ∧ number < interval.low + interval.range

/-- The interval ends inside the 32-bit numbers; one that reaches their end does not start
with a zero byte. -/
structure Valid (interval : Interval) : Prop where
  nonempty : 0 < interval.range
  inside : interval.low + interval.range ≤ 2 ^ 32
  lead : interval.low + interval.range = 2 ^ 32 → 2 ^ 24 ≤ interval.low

/-- The part of the interval that belongs to a slot. -/
def narrow (interval : Interval) (slot : Slot) : Interval :=
  ⟨interval.low + slot.under * (interval.range / slot.total),
    interval.range / slot.total * slot.count⟩

/-- The leading byte is still open. -/
def Open (interval : Interval) : Prop :=
  interval.low / 2 ^ 24 ≠ (interval.low + interval.range) % 2 ^ 32 / 2 ^ 24

instance (interval : Interval) : Decidable interval.Open := inferInstanceAs (Decidable (_ ≠ _))

/-- The interval up to the next multiple of `2 ^ 16`. -/
def cut (interval : Interval) : Interval :=
  ⟨interval.low, (2 ^ 32 - interval.low) % 2 ^ 16⟩

/-- The interval behind the leading byte. -/
def shift (interval : Interval) : Interval :=
  ⟨interval.low % 2 ^ 24 * 2 ^ 8, interval.range * 2 ^ 8⟩

/-- The leading byte. -/
def byte (interval : Interval) : UInt8 := UInt8.ofNat (interval.low / 2 ^ 24)

/-- Emit the leading byte. -/
def emit (interval : Interval) (rest : Option (Bytes × Interval)) : Option (Bytes × Interval) :=
  rest.map fun rest => (interval.byte :: rest.1, rest.2)

/-- Emit bytes until the interval is long and its leading byte open. -/
def settle : Nat → Interval → Option (Bytes × Interval)
  | 0, _ => none
  | fuel + 1, interval =>
      if interval.Open then
        if 2 ^ 16 ≤ interval.range then some ([], interval)
        else interval.emit (settle fuel interval.cut.shift)
      else interval.emit (settle fuel interval.shift)

end Interval

/-! ## The number a stream starts with -/

/-- The byte at a position, zero behind the end. -/
def digit (bytes : Bytes) (position : Nat) : Nat := (bytes.getD position 0).toNat

/-- The first four bytes as a number, most significant first. -/
def window (bytes : Bytes) : Nat :=
  digit bytes 0 * 2 ^ 24 + digit bytes 1 * 2 ^ 16 + digit bytes 2 * 2 ^ 8 + digit bytes 3

theorem digit_lt (bytes : Bytes) (position : Nat) : digit bytes position < 2 ^ 8 :=
  UInt8.toNat_lt _

theorem window_cons (byte : UInt8) (rest : Bytes) :
    window (byte :: rest) = byte.toNat * 2 ^ 24 + window rest / 2 ^ 8 := by
  have hlast := digit_lt rest 3
  simp only [window, digit, List.getD_cons_zero, List.getD_cons_succ] at hlast ⊢
  omega

/-- Moving the window by one byte. -/
theorem window_tail (byte : UInt8) (rest : Bytes) :
    window rest = window (byte :: rest) % 2 ^ 24 * 2 ^ 8 + digit rest 3 := by
  have h0 := digit_lt rest 0
  have h1 := digit_lt rest 1
  have h2 := digit_lt rest 2
  have h3 := digit_lt rest 3
  rw [window_cons, window]
  omega

theorem window_nil : window [] = 0 := rfl

namespace Interval

variable {interval : Interval} {slot : Slot}

theorem Valid.low_lt (hvalid : interval.Valid) : interval.low < 2 ^ 32 := by
  have := hvalid.nonempty
  have := hvalid.inside
  omega

theorem toNat_byte (hvalid : interval.Valid) : interval.byte.toNat = interval.low / 2 ^ 24 := by
  have hlow := hvalid.low_lt
  rw [byte, UInt8.toNat_ofNat']
  omega

/-! ### One byte -/

/-- Where the leading byte is settled, the interval has no other. -/
theorem length_of_not_open (hvalid : interval.Valid) (hopen : ¬ interval.Open) :
    interval.low % 2 ^ 24 + interval.range < 2 ^ 24 := by
  obtain ⟨hnonempty, hinside, hlead⟩ := hvalid
  rw [Open, not_not] at hopen
  by_cases hend : interval.low + interval.range = 2 ^ 32
  · have := hlead hend
    rw [hend] at hopen
    omega
  · rw [Nat.mod_eq_of_lt (by omega)] at hopen
    omega

theorem shift_valid (hvalid : interval.Valid) (hopen : ¬ interval.Open) : interval.shift.Valid := by
  have hshort := length_of_not_open hvalid hopen
  have hnonempty := hvalid.nonempty
  refine ⟨?_, ?_, fun hend => ?_⟩ <;> simp only [shift] at * <;> omega

/-- What starts with the leading byte and goes on inside is inside. -/
theorem contains_of_shift (hvalid : interval.Valid) {rest : Bytes}
    (hrest : interval.shift.Contains (window rest)) :
    interval.Contains (window (interval.byte :: rest)) := by
  obtain ⟨hlow, hhigh⟩ := hrest
  simp only [shift] at hlow hhigh
  rw [Contains, window_cons, toNat_byte hvalid]
  omega

/-- A short open interval is cut inside. -/
theorem cut_bounds (hvalid : interval.Valid) (hopen : interval.Open)
    (hshort : interval.range < 2 ^ 16) :
    0 < interval.cut.range ∧ interval.cut.range ≤ interval.range ∧
      interval.low % 2 ^ 24 + interval.cut.range = 2 ^ 24 := by
  obtain ⟨hnonempty, hinside, hlead⟩ := hvalid
  rw [Open] at hopen
  simp only [cut]
  omega

theorem cut_valid (hvalid : interval.Valid) (hopen : interval.Open)
    (hshort : interval.range < 2 ^ 16) : interval.cut.Valid := by
  obtain ⟨hpositive, hinner, hmultiple⟩ := cut_bounds hvalid hopen hshort
  have hinside := hvalid.inside
  refine ⟨hpositive, ?_, fun hend => ?_⟩ <;> simp only [cut] at * <;> omega

theorem contains_of_cut (hvalid : interval.Valid) (hopen : interval.Open)
    (hshort : interval.range < 2 ^ 16) {number : Nat} (hcut : interval.cut.Contains number) :
    interval.Contains number := by
  have hinner := (cut_bounds hvalid hopen hshort).2.1
  exact ⟨hcut.1, hcut.2.trans_le (Nat.add_le_add_left hinner _)⟩

/-- Behind a cut the interval ends with the 32-bit numbers. -/
theorem cut_shift_ends (hvalid : interval.Valid) (hopen : interval.Open)
    (hshort : interval.range < 2 ^ 16) :
    interval.cut.shift.low + interval.cut.shift.range = 2 ^ 32 ∧
      interval.cut.shift.range < 2 ^ 24 := by
  obtain ⟨hpositive, hinner, hmultiple⟩ := cut_bounds hvalid hopen hshort
  simp only [shift, cut] at *
  omega

theorem cut_shift_valid (hvalid : interval.Valid) (hopen : interval.Open)
    (hshort : interval.range < 2 ^ 16) : interval.cut.shift.Valid := by
  obtain ⟨hend, hlength⟩ := cut_shift_ends hvalid hopen hshort
  have hpositive := (cut_bounds hvalid hopen hshort).1
  refine ⟨?_, hend.le, fun _ => by omega⟩
  simp only [shift]
  omega

/-! ### Until the interval is long -/

/-- What `settle` leads to: a long interval, whose numbers come from the first one's. -/
structure SettlesTo (interval : Interval) (out : Bytes) (after : Interval) : Prop where
  valid : after.Valid
  long : 2 ^ 16 ≤ after.range
  contains : ∀ rest, after.Contains (window rest) → interval.Contains (window (out ++ rest))

theorem emit_eq_some {rest : Option (Bytes × Interval)} {out : Bytes} {after : Interval}
    (hemit : interval.emit rest = some (out, after)) :
    ∃ tail, rest = some (tail, after) ∧ out = interval.byte :: tail := by
  cases rest with
  | none => cases hemit
  | some pair =>
      cases hemit
      exact ⟨pair.1, rfl, rfl⟩

theorem settle_settlesTo {fuel : Nat} {out : Bytes} {after : Interval} (hvalid : interval.Valid)
    (hsettle : settle fuel interval = some (out, after)) : interval.SettlesTo out after := by
  induction fuel generalizing interval out with
  | zero => cases hsettle
  | succ fuel ih =>
      rw [settle] at hsettle
      by_cases hopen : interval.Open
      · rw [if_pos hopen] at hsettle
        by_cases hlong : 2 ^ 16 ≤ interval.range
        · rw [if_pos hlong] at hsettle
          cases hsettle
          exact ⟨hvalid, hlong, fun _ => id⟩
        · rw [if_neg hlong, not_le] at *
          obtain ⟨tail, htail, rfl⟩ := emit_eq_some hsettle
          have hrest := ih (cut_shift_valid hvalid hopen hlong) htail
          refine ⟨hrest.valid, hrest.long, fun rest hcontains => ?_⟩
          exact contains_of_cut hvalid hopen hlong
            (@contains_of_shift interval.cut (cut_valid hvalid hopen hlong) _
              (hrest.contains rest hcontains))
      · rw [if_neg hopen] at hsettle
        obtain ⟨tail, htail, rfl⟩ := emit_eq_some hsettle
        have hrest := ih (shift_valid hvalid hopen) htail
        exact ⟨hrest.valid, hrest.long, fun rest hcontains =>
          contains_of_shift hvalid (hrest.contains rest hcontains)⟩

/-- An interval that ends with the 32-bit numbers is open, unless it is long. -/
theorem settle_of_end {fuel steps : Nat} (hpositive : 0 < interval.range)
    (hend : interval.low + interval.range = 2 ^ 32)
    (hlead : interval.range ≤ 2 ^ 24) (hlong : 2 ^ 16 ≤ interval.range * 2 ^ (8 * steps))
    (hfuel : steps < fuel) : (settle fuel interval).isSome := by
  induction fuel generalizing interval steps with
  | zero => exact absurd hfuel (Nat.not_lt_zero _)
  | succ fuel ih =>
      have hopen : interval.Open := by
        rw [Open, hend]
        omega
      rw [settle, if_pos hopen]
      by_cases hdone : 2 ^ 16 ≤ interval.range
      · rw [if_pos hdone]
        rfl
      · rw [if_neg hdone, emit, Option.isSome_map]
        cases steps with
        | zero =>
            rw [Nat.mul_zero, Nat.pow_zero, Nat.mul_one] at hlong
            exact absurd hlong hdone
        | succ steps =>
            have hcut : interval.cut = interval := by
              rw [cut, show (2 ^ 32 - interval.low) % 2 ^ 16 = interval.range by omega]
            rw [hcut]
            refine @ih interval.shift steps ?_ ?_ ?_ ?_ (by omega)
            · simp only [shift]
              omega
            · simp only [shift]
              omega
            · simp only [shift]
              omega
            · rw [Nat.mul_succ, Nat.pow_add, Nat.mul_comm (2 ^ (8 * steps)), ← Nat.mul_assoc] at hlong
              exact hlong

/-- Two bytes are enough behind a cut, and each byte before it makes the interval longer. -/
theorem settle_isSome {fuel steps : Nat} (hvalid : interval.Valid)
    (hlong : 2 ^ 24 ≤ interval.range * 2 ^ (8 * steps)) (hfuel : steps + 2 < fuel) :
    (settle fuel interval).isSome := by
  induction fuel generalizing interval steps with
  | zero => exact absurd hfuel (Nat.not_lt_zero _)
  | succ fuel ih =>
      rw [settle]
      by_cases hopen : interval.Open
      · rw [if_pos hopen]
        by_cases hdone : 2 ^ 16 ≤ interval.range
        · rw [if_pos hdone]
          rfl
        · rw [if_neg hdone, emit, Option.isSome_map]
          rw [not_le] at hdone
          obtain ⟨hend, hlength⟩ := cut_shift_ends hvalid hopen hdone
          have hpositive := (cut_bounds hvalid hopen hdone).1
          refine @settle_of_end _ _ 1 ?_ hend hlength.le ?_ (by omega)
          · simp only [shift]
            omega
          · simp only [shift]
            omega
      · rw [if_neg hopen, emit, Option.isSome_map]
        have hshort := length_of_not_open hvalid hopen
        cases steps with
        | zero =>
            rw [Nat.mul_zero, Nat.pow_zero, Nat.mul_one] at hlong
            omega
        | succ steps =>
            refine @ih interval.shift steps (shift_valid hvalid hopen) ?_ (by omega)
            rw [Nat.mul_succ, Nat.pow_add, Nat.mul_comm (2 ^ (8 * steps)), ← Nat.mul_assoc] at hlong
            exact hlong

/-- Five bytes settle every interval. -/
theorem Valid.settles (hvalid : interval.Valid) :
    ∃ out after, settle 6 interval = some (out, after) := by
  have hpositive := hvalid.nonempty
  obtain ⟨⟨out, after⟩, hsettle⟩ :=
    Option.isSome_iff_exists.mp (@settle_isSome _ 6 3 hvalid (by omega) (by decide))
  exact ⟨out, after, hsettle⟩

/-! ### Narrowing -/

/-- The parts lie one behind the other inside the interval. -/
theorem narrow_inside (interval : Interval) (hfits : slot.Fits) :
    slot.under * (interval.range / slot.total) + interval.range / slot.total * slot.count ≤
      interval.range := by
  calc slot.under * (interval.range / slot.total) + interval.range / slot.total * slot.count
      = (slot.under + slot.count) * (interval.range / slot.total) := by
        rw [Nat.add_mul, Nat.mul_comm slot.count]
    _ ≤ slot.total * (interval.range / slot.total) := Nat.mul_le_mul_right _ hfits.inside
    _ ≤ interval.range := Nat.mul_div_le _ _

section Narrow

variable (hvalid : interval.Valid) (hlong : 2 ^ 16 ≤ interval.range) (hfits : slot.Fits)

include hlong hfits

theorem part_pos : 0 < interval.range / slot.total := by
  have hinside := hfits.inside
  have hnonempty := hfits.nonempty
  have hsmall := hfits.small
  exact Nat.div_pos (by omega) (by omega)

include hvalid

theorem narrow_valid : (interval.narrow slot).Valid := by
  have hpart := part_pos hlong hfits
  have hinside := narrow_inside interval hfits
  have hbound := hvalid.inside
  have hcount : 256 * (interval.range / slot.total * slot.count) ≤ 255 * interval.range := by
    calc 256 * (interval.range / slot.total * slot.count)
        = interval.range / slot.total * (256 * slot.count) := by ring
      _ ≤ interval.range / slot.total * (255 * slot.total) :=
        Nat.mul_le_mul_left _ hfits.spare
      _ = 255 * (slot.total * (interval.range / slot.total)) := by ring
      _ ≤ 255 * interval.range := Nat.mul_le_mul_left _ (Nat.mul_div_le _ _)
  have hpositive : 0 < interval.range / slot.total * slot.count :=
    Nat.mul_pos hpart hfits.nonempty
  refine ⟨hpositive, ?_, fun hend => ?_⟩ <;> simp only [narrow] at * <;> omega

omit hlong hvalid in
/-- What lies in a part lies in the interval, and the part can be read off. -/
theorem contains_of_narrow {number : Nat} (hnumber : (interval.narrow slot).Contains number) :
    interval.Contains number ∧
      slot.under ≤ (number - interval.low) / (interval.range / slot.total) ∧
      (number - interval.low) / (interval.range / slot.total) < slot.under + slot.count := by
  obtain ⟨hlow, hhigh⟩ := hnumber
  have hinside := narrow_inside interval hfits
  simp only [narrow] at hlow hhigh
  have hpart : 0 < interval.range / slot.total := by
    by_contra hzero
    rw [Nat.pos_iff_ne_zero, not_not] at hzero
    rw [hzero] at hlow hhigh
    omega
  refine ⟨⟨by omega, by omega⟩, (Nat.le_div_iff_mul_le hpart).mpr (by omega),
    (Nat.div_lt_iff_lt_mul hpart).mpr ?_⟩
  rw [Nat.add_mul, Nat.mul_comm slot.count]
  omega

end Narrow

end Interval

/-! ## Streams -/

/-- The bytes of a number up to the last one that is not zero. -/
def flush : Nat → Nat → Bytes
  | 0, _ => []
  | fuel + 1, low =>
      if low = 0 then [] else UInt8.ofNat (low / 2 ^ 24) :: flush fuel (low % 2 ^ 24 * 2 ^ 8)

/-- What a writer emits from an interval on: the settled bytes of every slot, and the last
lower end. -/
def stream : Interval → List Slot → Bytes
  | interval, [] => flush 4 interval.low
  | interval, slot :: slots =>
      match (interval.narrow slot).settle 6 with
      | none => []
      | some (out, after) => out ++ stream after slots

theorem length_flush_le (fuel low : Nat) : (flush fuel low).length ≤ fuel := by
  induction fuel generalizing low with
  | zero => exact le_rfl
  | succ fuel ih =>
      rw [flush]
      split
      · exact Nat.zero_le _
      · exact Nat.succ_le_succ (ih _)

theorem window_flush_succ {fuel low : Nat} (hlow : low < 2 ^ 32)
    (hrest : window (flush fuel (low % 2 ^ 24 * 2 ^ 8)) = low % 2 ^ 24 * 2 ^ 8) :
    window (flush (fuel + 1) low) = low := by
  rw [flush]
  by_cases hzero : low = 0
  · rw [if_pos hzero, hzero]
    rfl
  · rw [if_neg hzero, window_cons, hrest, UInt8.toNat_ofNat']
    omega

/-- A reader that finds zeros behind the end of the stream has the number back. -/
theorem window_flush {low : Nat} (hlow : low < 2 ^ 32) : window (flush 4 low) = low := by
  refine window_flush_succ hlow (window_flush_succ (by omega) (window_flush_succ (by omega)
    (window_flush_succ (by omega) ?_)))
  rw [flush, window_nil]
  omega

/-- An interval between two symbols. -/
structure Settled (interval : Interval) : Prop where
  valid : interval.Valid
  long : 2 ^ 16 ≤ interval.range

section Stream

variable {interval : Interval} {slot : Slot} {slots : List Slot}

theorem Settled.narrow_settles (hsettled : Settled interval) (hfits : slot.Fits) :
    ∃ out after, (interval.narrow slot).settle 6 = some (out, after) ∧ Settled after ∧
      ∀ rest, after.Contains (window rest) →
        (interval.narrow slot).Contains (window (out ++ rest)) := by
  have hvalid := Interval.narrow_valid hsettled.valid hsettled.long hfits
  obtain ⟨out, after, hsettle⟩ := hvalid.settles
  have hto := Interval.settle_settlesTo hvalid hsettle
  exact ⟨out, after, hsettle, ⟨hto.valid, hto.long⟩, hto.contains⟩

/-- The stream stays inside the interval it is written from. -/
theorem stream_contains (hsettled : Settled interval) (hfits : ∀ slot ∈ slots, slot.Fits) :
    interval.Contains (window (stream interval slots)) := by
  induction slots generalizing interval with
  | nil =>
      have hnonempty := hsettled.valid.nonempty
      rw [stream, window_flush hsettled.valid.low_lt]
      exact ⟨le_rfl, by omega⟩
  | cons slot slots ih =>
      rw [List.forall_mem_cons] at hfits
      obtain ⟨out, after, hsettle, hafter, hcontains⟩ := hsettled.narrow_settles hfits.1
      rw [stream, hsettle]
      exact (Interval.contains_of_narrow hfits.1 (hcontains _ (ih hafter hfits.2))).1

end Stream

/-- Writing the slots emits these bytes and leads to this interval. -/
inductive Emits : Interval → List Slot → Bytes → Interval → Prop
  | nil (interval : Interval) : Emits interval [] [] interval
  | cons {interval next after : Interval} {slot : Slot} {slots : List Slot} {out rest : Bytes}
      (hsettle : (interval.narrow slot).settle 6 = some (out, next))
      (hrest : Emits next slots rest after) : Emits interval (slot :: slots) (out ++ rest) after

section Emits

variable {interval next after : Interval} {slot : Slot} {slots more : List Slot} {out rest : Bytes}

theorem Emits.single (hsettle : (interval.narrow slot).settle 6 = some (out, next)) :
    Emits interval [slot] out next := by
  have hcons := Emits.cons hsettle (.nil next)
  rwa [List.append_nil] at hcons

theorem Emits.append (hfirst : Emits interval slots out next) (hrest : Emits next more rest after) :
    Emits interval (slots ++ more) (out ++ rest) after := by
  induction hfirst with
  | nil interval => exact hrest
  | cons hsettle _ ih =>
      rw [List.cons_append, List.append_assoc]
      exact .cons hsettle (ih hrest)

/-- The stream of a writer begins with what the first slots emit. -/
theorem Emits.stream_append (hemits : Emits interval slots out next) (more : List Slot) :
    stream interval (slots ++ more) = out ++ stream next more := by
  induction hemits with
  | nil interval => rfl
  | cons hsettle _ ih => rw [List.cons_append, stream, hsettle, List.append_assoc, ← ih]

theorem Emits.settled (hemits : Emits interval slots out next) (hsettled : Settled interval)
    (hfits : ∀ slot ∈ slots, slot.Fits) : Settled next := by
  induction hemits with
  | nil interval => exact hsettled
  | cons hsettle _ ih =>
      rw [List.forall_mem_cons] at hfits
      obtain ⟨out', next', hsettle', hnext, -⟩ := hsettled.narrow_settles hfits.1
      obtain ⟨rfl, rfl⟩ := Prod.mk.inj (Option.some.inj (hsettle.symm.trans hsettle'))
      exact ih hnext hfits.2

end Emits

/-! ## Readers -/

/-- A reader narrows an interval too, and looks at the next four bytes. -/
structure Reader where
  interval : Interval
  code : Nat
  input : Bytes
  deriving DecidableEq, Repr

namespace Reader

/-- The first byte has been looked at long enough. -/
def shift (reader : Reader) : Reader :=
  ⟨reader.interval.shift, reader.code % 2 ^ 24 * 2 ^ 8 + digit reader.input 0, reader.input.tail⟩

def cut (reader : Reader) : Reader := { reader with interval := reader.interval.cut }

def narrow (reader : Reader) (slot : Slot) : Reader :=
  { reader with interval := reader.interval.narrow slot }

/-- Follow the writer until the interval is long and its leading byte open. -/
def settle : Nat → Reader → Option Reader
  | 0, _ => none
  | fuel + 1, reader =>
      if reader.interval.Open then
        if 2 ^ 16 ≤ reader.interval.range then some reader
        else settle fuel reader.cut.shift
      else settle fuel reader.shift

/-- The part that the next four bytes lie in. -/
def read (reader : Reader) (total : Nat) : Nat :=
  (reader.code - reader.interval.low) / (reader.interval.range / total)

/-- The reader stands at the front of these bytes. -/
def Reads (reader : Reader) (bytes : Bytes) : Prop :=
  reader.code = window bytes ∧ reader.input = bytes.drop 4

/-- The reader stands where a writer that has these slots to come has got to. -/
structure Follows (reader : Reader) (slots : List Slot) : Prop where
  settled : Settled reader.interval
  reads : reader.Reads (stream reader.interval slots)

variable {reader : Reader} {slot : Slot} {slots : List Slot}

theorem Reads.shift {byte : UInt8} {rest : Bytes} (hreads : reader.Reads (byte :: rest)) :
    reader.shift.Reads rest := by
  obtain ⟨hcode, hinput⟩ := hreads
  have hdigit : digit reader.input 0 = digit rest 3 := by
    rw [hinput, List.drop_succ_cons, digit, digit, List.getD_eq_getElem?_getD,
      List.getD_eq_getElem?_getD, List.getElem?_drop]
  refine ⟨?_, ?_⟩
  · rw [window_tail byte rest, ← hcode, ← hdigit]
    rfl
  · simp only [Reader.shift, hinput, List.drop_succ_cons, List.tail_drop]

/-- The reader drops the bytes that the writer has emitted. -/
theorem settle_reads {fuel : Nat} {out : Bytes} {after : Interval}
    (hsettle : reader.interval.settle fuel = some (out, after)) {rest : Bytes}
    (hreads : reader.Reads (out ++ rest)) :
    ∃ next, reader.settle fuel = some next ∧ next.interval = after ∧ next.Reads rest := by
  induction fuel generalizing reader out with
  | zero => cases hsettle
  | succ fuel ih =>
      rw [Interval.settle] at hsettle
      rw [settle]
      by_cases hopen : reader.interval.Open
      · rw [if_pos hopen] at hsettle ⊢
        by_cases hlong : 2 ^ 16 ≤ reader.interval.range
        · rw [if_pos hlong] at hsettle ⊢
          cases hsettle
          exact ⟨reader, rfl, rfl, hreads⟩
        · rw [if_neg hlong] at hsettle ⊢
          obtain ⟨tail, htail, rfl⟩ := Interval.emit_eq_some hsettle
          exact @ih reader.cut.shift _ htail (@Reads.shift reader.cut _ _ hreads)
      · rw [if_neg hopen] at hsettle ⊢
        obtain ⟨tail, htail, rfl⟩ := Interval.emit_eq_some hsettle
        exact @ih reader.shift _ htail hreads.shift

/-- The reader reads the next slot and follows. -/
theorem Follows.step (hfollows : reader.Follows (slot :: slots))
    (hfits : ∀ slot' ∈ slot :: slots, slot'.Fits) :
    (slot.under ≤ reader.read slot.total ∧ reader.read slot.total < slot.under + slot.count) ∧
      ∃ next, (reader.narrow slot).settle 6 = some next ∧ next.Follows slots := by
  obtain ⟨hsettled, hreads⟩ := hfollows
  rw [List.forall_mem_cons] at hfits
  obtain ⟨out, after, hsettle, hafter, hcontains⟩ := hsettled.narrow_settles hfits.1
  rw [stream, hsettle] at hreads
  have hinside := hcontains _ (stream_contains hafter hfits.2)
  rw [← hreads.1] at hinside
  refine ⟨(Interval.contains_of_narrow hfits.1 hinside).2, ?_⟩
  obtain ⟨next, hnext, rfl, hrest⟩ := @settle_reads (reader.narrow slot) _ _ _ hsettle _ hreads
  exact ⟨next, hnext, hafter, hrest⟩

/-- Behind the last slot, the four bytes are the lower end. -/
theorem follows_nil_iff : reader.Follows [] ↔
    Settled reader.interval ∧ reader.code = reader.interval.low ∧ reader.input = [] := by
  constructor
  · rintro ⟨hsettled, hcode, hinput⟩
    refine ⟨hsettled, hcode.trans (window_flush hsettled.valid.low_lt), ?_⟩
    rw [hinput, stream, List.drop_eq_nil_iff]
    exact length_flush_le 4 _
  · rintro ⟨hsettled, hcode, hinput⟩
    refine ⟨hsettled, hcode.trans (window_flush hsettled.valid.low_lt).symm, ?_⟩
    rw [hinput, stream, eq_comm, List.drop_eq_nil_iff]
    exact length_flush_le 4 _

theorem Follows.read_end (hfollows : reader.Follows []) (total : Nat) : reader.read total = 0 := by
  rw [read, (follows_nil_iff.mp hfollows).2.1, Nat.sub_self, Nat.zero_div]

/-- The bytes stay the lower end while the interval is settled. -/
theorem settle_end {fuel : Nat} {out : Bytes} {after : Interval}
    (hsettle : reader.interval.settle fuel = some (out, after))
    (hcode : reader.code = reader.interval.low) (hinput : reader.input = []) :
    ∃ next, reader.settle fuel = some next ∧ next.interval = after ∧
      next.code = next.interval.low ∧ next.input = [] := by
  induction fuel generalizing reader out with
  | zero => cases hsettle
  | succ fuel ih =>
      have hshift : reader.shift.code = reader.shift.interval.low := by
        have hdigit : digit [] 0 = 0 := rfl
        simp only [shift, Interval.shift, hinput, hcode, hdigit, Nat.add_zero]
      have htail : reader.shift.input = [] := by
        rw [shift, hinput]
        rfl
      rw [Interval.settle] at hsettle
      rw [settle]
      by_cases hopen : reader.interval.Open
      · rw [if_pos hopen] at hsettle ⊢
        by_cases hlong : 2 ^ 16 ≤ reader.interval.range
        · rw [if_pos hlong] at hsettle ⊢
          cases hsettle
          exact ⟨reader, rfl, rfl, hcode, hinput⟩
        · rw [if_neg hlong] at hsettle ⊢
          obtain ⟨tail, hrest, rfl⟩ := Interval.emit_eq_some hsettle
          exact @ih reader.cut.shift _ hrest hshift htail
      · rw [if_neg hopen] at hsettle ⊢
        obtain ⟨tail, hrest, rfl⟩ := Interval.emit_eq_some hsettle
        exact @ih reader.shift _ hrest hshift htail

/-- Behind the last slot, the reader may go on with the first slot of any total. -/
theorem Follows.step_end (hfollows : reader.Follows []) (hfits : slot.Fits)
    (hfirst : slot.under = 0) :
    ∃ next, (reader.narrow slot).settle 6 = some next ∧ next.Follows [] := by
  obtain ⟨hsettled, hcode, hinput⟩ := follows_nil_iff.mp hfollows
  obtain ⟨out, after, hsettle, hafter, -⟩ := hsettled.narrow_settles hfits
  have hlow : (reader.narrow slot).code = (reader.narrow slot).interval.low := by
    simp only [narrow, Interval.narrow, hfirst, Nat.zero_mul, Nat.add_zero, hcode]
  obtain ⟨next, hnext, rfl, hend⟩ :=
    @settle_end (reader.narrow slot) _ _ _ hsettle hlow hinput
  exact ⟨next, hnext, follows_nil_iff.mpr ⟨hafter, hend⟩⟩

end Reader

end SrmotionProxy.Lib.RangeCoder
