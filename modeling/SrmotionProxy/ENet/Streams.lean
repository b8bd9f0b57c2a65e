/-
# Writing and reading numbers

The macros of the range coder work on 32-bit numbers; in arithmetic, they are the writer and
the reader of the general coder.
-/

import SrmotionProxy.ENet.Compress
import SrmotionProxy.Lib.RangeCoder

namespace SrmotionProxy.ENet.Compress

open SrmotionProxy.Lib
open SrmotionProxy.Lib.RangeCoder (Interval Slot Reader Settled digit window)

/-! ## Bits -/

theorem xor_top_iff {low high : Nat} :
    ENET_RANGE_CODER_TOP ≤ low ^^^ high ↔ low / 2 ^ 24 ≠ high / 2 ^ 24 := by
  have htop : ENET_RANGE_CODER_TOP ≤ low ^^^ high ↔ (low ^^^ high) / 2 ^ 24 ≠ 0 := by
    rw [ENET_RANGE_CODER_TOP]
    omega
  rw [htop, Nat.xor_div_two_pow, not_iff_not]
  constructor
  · intro hzero
    rw [← Nat.xor_zero (low / 2 ^ 24), ← Nat.xor_self (high / 2 ^ 24), ← Nat.xor_assoc, hzero,
      Nat.zero_xor]
  · intro hsame
    rw [hsame, Nat.xor_self]

theorem bottom_eq : ENET_RANGE_CODER_BOTTOM = 2 ^ 16 := rfl

theorem cut_range (low : Nat) :
    u32 (2 ^ 32 - low) &&& (ENET_RANGE_CODER_BOTTOM - 1) = (2 ^ 32 - low) % 2 ^ 16 := by
  rw [bottom_eq, Nat.and_two_pow_sub_one_eq_mod, u32]
  omega

theorem u32_shift (number : Nat) : u32 (number <<< 8) = number % 2 ^ 24 * 2 ^ 8 := by
  rw [u32, Nat.shiftLeft_eq]
  omega

/-! ## Writing -/

namespace Encoder

def interval (encoder : Encoder) : Interval := ⟨encoder.low, encoder.range⟩

/-- Write these bytes and go on behind them, if they fit. -/
def emit (limit : Nat) (bytes : Bytes) (after : Interval) (encoder : Encoder) :
    Except Stop Encoder :=
  if encoder.out.length + bytes.length ≤ limit then
    .ok ⟨after.low, after.range, encoder.out ++ bytes⟩
  else .error .zero

variable {limit : Nat} {encoder : Encoder} {interval after : Interval} {slot : Slot}

theorem emit_nil (hroom : encoder.out.length ≤ limit) :
    encoder.emit limit [] encoder.interval = .ok encoder := by
  rw [emit, List.length_nil, Nat.add_zero, if_pos hroom, List.append_nil]
  rfl

theorem emit_emit (bytes rest : Bytes) (after last : Interval) :
    (encoder.emit limit bytes after >>= emit limit rest last) =
      encoder.emit limit (bytes ++ rest) last := by
  simp only [emit, List.length_append]
  by_cases hfits : encoder.out.length + bytes.length ≤ limit
  · rw [if_pos hfits, except_ok_bind, emit]
    simp only [List.length_append, Nat.add_assoc, List.append_assoc]
  · rw [if_neg hfits, if_neg (by omega)]
    rfl

/-- One byte leaves the interval. -/
theorem output_eq (encoder : Encoder) (hrange : encoder.range < 2 ^ 24) :
    output limit encoder = encoder.emit limit [encoder.interval.byte] encoder.interval.shift := by
  rw [output, emit, List.length_singleton]
  by_cases hfull : limit ≤ encoder.out.length
  · rw [if_pos hfull, if_neg (by omega)]
  · rw [if_neg hfull, if_pos (by omega), u32_shift, u32_shift, Nat.mod_eq_of_lt hrange,
      Nat.shiftRight_eq_div_pow]
    rfl

/-- One byte, and then what a continuation writes. -/
theorem emit_bind {next : Interval} {byte : UInt8} {tail : Bytes} {write : Encoder → Except Stop Encoder}
    (hwrite : ∀ behind : Encoder, behind.interval = next → behind.out.length ≤ limit →
      write behind = behind.emit limit tail after) :
    (encoder.emit limit [byte] next >>= write) = encoder.emit limit (byte :: tail) after := by
  have hwhole := @emit_emit limit encoder [byte] tail next after
  rw [List.singleton_append] at hwhole
  rw [← hwhole, emit]
  by_cases hfits : encoder.out.length + [byte].length ≤ limit
  · rw [if_pos hfits, except_ok_bind, except_ok_bind]
    refine hwrite _ rfl ?_
    rw [List.length_append]
    exact hfits
  · rw [if_neg hfits]
    rfl

section Continuations

variable {α : Type} {next : Interval} {bytes tail : Bytes} {write : Except Stop Encoder}
  {rest : Encoder → Except Stop α} {result : Encoder → α}

/-- What has been written is followed by what the rest writes. -/
theorem bind_emit (hwrite : write = encoder.emit limit bytes next)
    (hrest : ∀ behind : Encoder, behind.interval = next → behind.out.length ≤ limit →
      rest behind = (behind.emit limit tail after).map result) :
    (write >>= rest) = (encoder.emit limit (bytes ++ tail) after).map result := by
  rw [hwrite, ← emit_emit bytes tail next after, emit]
  by_cases hfits : encoder.out.length + bytes.length ≤ limit
  · rw [if_pos hfits, except_ok_bind, except_ok_bind]
    refine hrest _ rfl ?_
    rw [List.length_append]
    exact hfits
  · rw [if_neg hfits]
    rfl

theorem bind_emit_ok (hwrite : write = encoder.emit limit bytes after)
    (hrest : ∀ behind : Encoder, rest behind = .ok (result behind)) :
    (write >>= rest) = (encoder.emit limit bytes after).map result := by
  rw [hwrite]
  cases encoder.emit limit bytes after with
  | error stop => rfl
  | ok behind => exact hrest behind

end Continuations

/-- The loop settles the interval. -/
theorem encodeLoop_eq {fuel : Nat} {bytes : Bytes} (hvalid : encoder.interval.Valid)
    (hroom : encoder.out.length ≤ limit)
    (hsettle : encoder.interval.settle fuel = some (bytes, after)) :
    encodeLoop limit fuel encoder = encoder.emit limit bytes after := by
  induction fuel generalizing encoder bytes with
  | zero => cases hsettle
  | succ fuel ih =>
      rw [Interval.settle] at hsettle
      rw [encodeLoop]
      have hiff : ENET_RANGE_CODER_TOP ≤ encoder.low ^^^ u32 (encoder.low + encoder.range) ↔
          encoder.interval.Open := xor_top_iff
      by_cases hopen : encoder.interval.Open
      · rw [if_pos hopen] at hsettle
        rw [if_pos (hiff.mpr hopen)]
        by_cases hlong : 2 ^ 16 ≤ encoder.interval.range
        · rw [if_pos hlong] at hsettle
          cases hsettle
          rw [← bottom_eq] at hlong
          rw [emit_nil hroom]
          exact if_pos hlong
        · rw [if_neg hlong] at hsettle
          rw [not_le] at hlong
          obtain ⟨tail, htail, rfl⟩ := Interval.emit_eq_some hsettle
          set cut : Encoder := { encoder with range := encoder.interval.cut.range } with hcut
          have hcutRange : cut.range < 2 ^ 24 :=
            (Interval.cut_bounds hvalid hopen hlong).2.1.trans_lt (hlong.trans (by decide))
          have hbottom : ¬ ENET_RANGE_CODER_BOTTOM ≤ encoder.range := by
            rw [bottom_eq]
            exact hlong.not_ge
          rw [if_neg hbottom, cut_range]
          change (output limit cut >>= encodeLoop limit fuel) = _
          rw [output_eq cut hcutRange]
          have hinterval : cut.interval = encoder.interval.cut := rfl
          refine emit_bind fun behind hnext hfits => ih ?_ hfits ?_
          · rw [hnext, hinterval]
            exact Interval.cut_shift_valid hvalid hopen hlong
          · rw [hnext, hinterval]
            exact htail
      · rw [if_neg hopen] at hsettle
        obtain ⟨tail, htail, rfl⟩ := Interval.emit_eq_some hsettle
        have hshort := Interval.length_of_not_open hvalid hopen
        have hrange : encoder.range < 2 ^ 24 := (Nat.le_add_left _ _).trans_lt hshort
        rw [if_neg (hiff.not.mpr hopen), output_eq encoder hrange]
        exact emit_bind fun behind hnext hfits =>
          ih (hnext ▸ Interval.shift_valid hvalid hopen) hfits (hnext ▸ htail)

/-- A share is written as the general coder writes it, whatever has been written before. -/
theorem encode_eq (limit : Nat) (hsettled : Settled interval) (hfits : slot.Fits) : ∃ bytes after,
    (interval.narrow slot).settle 6 = some (bytes, after) ∧ Settled after ∧
      ∀ encoder : Encoder, encoder.interval = interval → encoder.out.length ≤ limit →
        encoder.encode limit slot.under slot.count slot.total = encoder.emit limit bytes after := by
  obtain ⟨bytes, after, hsettle, hafter, -⟩ := hsettled.narrow_settles hfits
  have hvalid := Interval.narrow_valid hsettled.valid hsettled.long hfits
  have hinside := hvalid.inside
  have hpositive := hvalid.nonempty
  have hlead := hvalid.lead
  have htotal : slot.total ≠ 0 := by
    have := hfits.nonempty
    have := hfits.inside
    omega
  refine ⟨bytes, after, hsettle, hafter, fun encoder hinterval hroom => ?_⟩
  subst hinterval
  rw [encode, if_neg htotal]
  simp only [Interval.narrow, Encoder.interval] at hinside hpositive hlead
  have hunder : u32 (slot.under * (encoder.range / slot.total)) =
      slot.under * (encoder.range / slot.total) := Nat.mod_eq_of_lt (by omega)
  have hlow : u32 (encoder.low + slot.under * (encoder.range / slot.total)) =
      encoder.low + slot.under * (encoder.range / slot.total) := Nat.mod_eq_of_lt (by omega)
  have hrange : u32 (encoder.range / slot.total * slot.count) =
      encoder.range / slot.total * slot.count := Nat.mod_eq_of_lt (by omega)
  simp only [hunder, hlow, hrange]
  exact @encodeLoop_eq limit ⟨_, _, encoder.out⟩ after 6 bytes hvalid hroom hsettle

/-- The last bytes, up to the last one that is not zero. -/
theorem flush_eq {fuel : Nat} (hlow : 2 ^ (8 * (4 - fuel)) ∣ encoder.low) (hfuel : fuel ≤ 4)
    (hsmall : encoder.low < 2 ^ 32) (hroom : encoder.out.length ≤ limit) :
    (encoder.flush limit (fuel + 1)).map (fun encoder => encoder.out) =
      if encoder.out.length + (RangeCoder.flush fuel encoder.low).length ≤ limit then
        .ok (encoder.out ++ RangeCoder.flush fuel encoder.low)
      else .error .zero := by
  induction fuel generalizing encoder with
  | zero =>
      have hzero : encoder.low = 0 := Nat.eq_zero_of_dvd_of_lt hlow hsmall
      rw [flush, if_pos hzero, RangeCoder.flush, List.length_nil, Nat.add_zero, if_pos hroom,
        List.append_nil]
      rfl
  | succ fuel ih =>
      rw [flush, RangeCoder.flush]
      by_cases hzero : encoder.low = 0
      · rw [if_pos hzero, if_pos hzero, List.length_nil, Nat.add_zero, if_pos hroom, List.append_nil]
        rfl
      · rw [if_neg hzero, if_neg hzero, output]
        by_cases hfull : limit ≤ encoder.out.length
        · rw [if_pos hfull, if_neg (by rw [List.length_cons]; omega)]
          rfl
        · rw [if_neg hfull, except_ok_bind, u32_shift]
          have hnext : 2 ^ (8 * (4 - fuel)) ∣ encoder.low % 2 ^ 24 * 2 ^ 8 := by
            rw [show 8 * (4 - fuel) = 8 * (4 - (fuel + 1)) + 8 by omega, Nat.pow_add]
            refine Nat.mul_dvd_mul ?_ dvd_rfl
            rw [Nat.dvd_mod_iff (Nat.pow_dvd_pow 2 (by omega))]
            exact hlow
          have hrest := @ih ⟨encoder.low % 2 ^ 24 * 2 ^ 8, u32 (encoder.range <<< 8),
            encoder.out ++ [UInt8.ofNat (encoder.low >>> 24)]⟩ hnext (by omega)
            (by simp only; omega) (by rw [List.length_append, List.length_singleton]; omega)
          rw [hrest, List.length_append, List.length_singleton, List.length_cons, List.append_assoc,
            Nat.shiftRight_eq_div_pow]
          simp only [List.singleton_append, Nat.add_assoc, Nat.add_comm 1]

end Encoder

/-! ## Reading -/

namespace Decoder

def reader (decoder : Decoder) : Reader := ⟨⟨decoder.low, decoder.range⟩, decoder.code, decoder.input⟩

variable {decoder : Decoder} {slot : Slot} {slots : List Slot}

/-- The next byte is added, zero behind the end. -/
theorem take_eq (decoder : Decoder) {places : Nat} (hplaces : 2 ^ (places + 8) ∣ decoder.code) :
    decoder.take places = { decoder with
      code := decoder.code + digit decoder.input 0 * 2 ^ places, input := decoder.input.tail } := by
  obtain ⟨low, range, code, input⟩ := decoder
  cases input with
  | nil => simp [take, digit]
  | cons byte input =>
      obtain ⟨leading, hleading⟩ := hplaces
      have hbyte : byte.toNat * 2 ^ places < 2 ^ (places + 8) := by
        rw [Nat.pow_add, Nat.mul_comm]
        exact Nat.mul_lt_mul_of_pos_left byte.toNat_lt (Nat.two_pow_pos _)
      simp only at hleading
      simp only [take, digit, List.getD_cons_zero, List.tail_cons, Nat.shiftLeft_eq, hleading,
        Nat.two_pow_add_eq_or_of_lt hbyte]

theorem digit_tail (bytes : Bytes) (position : Nat) :
    digit bytes.tail position = digit bytes (position + 1) := by
  cases bytes with
  | nil => rfl
  | cons byte rest => rfl

/-- The seed is the first four bytes. -/
theorem seed_eq (input : Bytes) :
    (seed input).reader = ⟨⟨0, 2 ^ 32 - 1⟩, window input, input.drop 4⟩ := by
  have hdrop : input.tail.tail.tail.tail = input.drop 4 := by
    simp only [← List.drop_one, List.drop_drop]
  have hfirst := take_eq ({ input := input } : Decoder) (dvd_zero (2 ^ (24 + 8)))
  rw [seed, hfirst, @take_eq _ 16 (by simp only; omega), @take_eq _ 8 (by simp only; omega),
    @take_eq _ 0 (by simp only; omega)]
  simp only [reader, digit_tail, hdrop, window]
  rw [Nat.zero_add, Nat.pow_zero, Nat.mul_one]

theorem shift_eq (hrange : decoder.range < 2 ^ 24) :
    decoder.shift.reader = decoder.reader.shift := by
  rw [shift, take_eq _ (by simp only [u32_shift]; omega)]
  simp only [reader, Reader.shift, Interval.shift, u32_shift, Nat.pow_zero, Nat.mul_one,
    Nat.mod_eq_of_lt hrange]

/-- The loop settles the reader. -/
theorem decodeLoop_eq {fuel : Nat} {next : Reader} (hvalid : decoder.reader.interval.Valid)
    (hsettle : decoder.reader.settle fuel = some next) :
    ∃ after, decodeLoop fuel decoder = .ok after ∧ after.reader = next := by
  induction fuel generalizing decoder with
  | zero => cases hsettle
  | succ fuel ih =>
      rw [Reader.settle] at hsettle
      rw [decodeLoop]
      have hiff : ENET_RANGE_CODER_TOP ≤ decoder.low ^^^ u32 (decoder.low + decoder.range) ↔
          decoder.reader.interval.Open := xor_top_iff
      by_cases hopen : decoder.reader.interval.Open
      · rw [if_pos hopen] at hsettle
        rw [if_pos (hiff.mpr hopen)]
        by_cases hlong : 2 ^ 16 ≤ decoder.reader.interval.range
        · rw [if_pos hlong] at hsettle
          cases hsettle
          rw [← bottom_eq] at hlong
          exact ⟨decoder, if_pos hlong, rfl⟩
        · rw [if_neg hlong] at hsettle
          rw [not_le] at hlong
          set cut : Decoder := { decoder with range := decoder.reader.interval.cut.range } with hcut
          have hcutRange : cut.range < 2 ^ 24 :=
            (Interval.cut_bounds hvalid hopen hlong).2.1.trans_lt (hlong.trans (by decide))
          have hbottom : ¬ ENET_RANGE_CODER_BOTTOM ≤ decoder.range := by
            rw [bottom_eq]
            exact hlong.not_ge
          rw [if_neg hbottom, cut_range]
          have hreader : cut.shift.reader = decoder.reader.cut.shift := shift_eq hcutRange
          refine @ih cut.shift ?_ ?_
          · rw [hreader]
            exact Interval.cut_shift_valid hvalid hopen hlong
          · rw [hreader]
            exact hsettle
      · rw [if_neg hopen] at hsettle
        have hshort := Interval.length_of_not_open hvalid hopen
        have hrange : decoder.range < 2 ^ 24 := (Nat.le_add_left _ _).trans_lt hshort
        rw [if_neg (hiff.not.mpr hopen)]
        have hreader : decoder.shift.reader = decoder.reader.shift := shift_eq hrange
        refine @ih decoder.shift ?_ ?_
        · rw [hreader]
          exact Interval.shift_valid hvalid hopen
        · rw [hreader]
          exact hsettle

section Slots

variable (hsettled : Settled decoder.reader.interval) (hfits : slot.Fits)

include hsettled hfits

theorem read_eq (hlow : decoder.low ≤ decoder.code) (hcode : decoder.code < 2 ^ 32)
    (hread : decoder.reader.read slot.total < slot.total) :
    decoder.read slot.total = .ok (decoder.reader.read slot.total,
      { decoder with range := decoder.range / slot.total }) := by
  have hpart : 0 < decoder.range / slot.total := Interval.part_pos hsettled.long hfits
  have hsmall := hfits.small
  have hcodes : u32 (decoder.code + (2 ^ 32 - decoder.low)) = decoder.code - decoder.low := by
    rw [u32]
    omega
  rw [read, if_neg (by omega)]
  simp only [hpart.ne', if_false, hcodes]
  rw [u16, Nat.mod_eq_of_lt]
  · rfl
  · exact hread.trans hsmall

theorem decode_eq {next : Reader} (hsettle : (decoder.reader.narrow slot).settle 6 = some next) :
    ∃ after, ({ decoder with range := decoder.range / slot.total } : Decoder).decode slot.under
      slot.count = .ok after ∧ after.reader = next := by
  have hvalid := Interval.narrow_valid hsettled.valid hsettled.long hfits
  have hinside := hvalid.inside
  have hpositive := hvalid.nonempty
  have hlead := hvalid.lead
  simp only [Interval.narrow, reader] at hinside hpositive hlead
  have hunder : u32 (slot.under * (decoder.range / slot.total)) =
      slot.under * (decoder.range / slot.total) := Nat.mod_eq_of_lt (by omega)
  have hlow : u32 (decoder.low + slot.under * (decoder.range / slot.total)) =
      decoder.low + slot.under * (decoder.range / slot.total) := Nat.mod_eq_of_lt (by omega)
  have hrange : u32 (decoder.range / slot.total * slot.count) =
      decoder.range / slot.total * slot.count := Nat.mod_eq_of_lt (by omega)
  simp only [decode, hunder, hlow, hrange]
  exact @decodeLoop_eq ⟨_, _, decoder.code, decoder.input⟩ 6 next hvalid hsettle

end Slots

/-- What is read lies in the next slot, and decoding the slot follows the writer. -/
theorem read_decode (hfollows : decoder.reader.Follows (slot :: slots))
    (hfits : ∀ slot' ∈ slot :: slots, slot'.Fits) :
    ∃ code divided after, decoder.read slot.total = .ok (code, divided) ∧
      slot.under ≤ code ∧ code < slot.under + slot.count ∧
      divided.decode slot.under slot.count = .ok after ∧ after.reader.Follows slots := by
  have hslot := hfits slot List.mem_cons_self
  have hinside := RangeCoder.stream_contains hfollows.settled hfits
  rw [← hfollows.reads.1] at hinside
  obtain ⟨⟨hfirst, hlast⟩, next, hsettle, hnext⟩ := hfollows.step hfits
  obtain ⟨after, hdecode, rfl⟩ := decode_eq hfollows.settled hslot hsettle
  have hvalid := hfollows.settled.valid.inside
  refine ⟨_, _, after, read_eq hfollows.settled hslot hinside.1 (hinside.2.trans_le hvalid)
    (hlast.trans_le hslot.inside), hfirst, hlast, hdecode, hnext⟩

/-- Behind the last slot, zeros are read. -/
theorem read_decode_end (hfollows : decoder.reader.Follows []) (hfits : slot.Fits)
    (hfirst : slot.under = 0) :
    ∃ divided after, decoder.read slot.total = .ok (0, divided) ∧
      divided.decode 0 slot.count = .ok after ∧ after.reader.Follows [] := by
  obtain ⟨hsettled, hcode, -⟩ := Reader.follows_nil_iff.mp hfollows
  obtain ⟨next, hsettle, hnext⟩ := hfollows.step_end hfits hfirst
  obtain ⟨after, hdecode, rfl⟩ := decode_eq hsettled hfits hsettle
  have hcode' : decoder.code = decoder.low := hcode
  have hread := read_eq hsettled hfits hcode'.ge (hcode' ▸ hsettled.valid.low_lt) (by
    rw [hfollows.read_end]
    exact hfits.nonempty.trans_le (Nat.le_of_add_left_le hfits.inside))
  rw [hfollows.read_end] at hread
  rw [hfirst] at hdecode
  exact ⟨_, after, hread, hdecode, hnext⟩

end Decoder

end SrmotionProxy.ENet.Compress
