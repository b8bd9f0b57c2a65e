/-
# Byte buffers: little-endian words, a checked read cursor, writes at an offset

A read cursor is the list of bytes from the current pointer to the end of the
buffer. Reading past the end is undefined behaviour in C, so every read returns
`Except Abort`; the inversion lemmas say that a read which succeeds has consumed
exactly the bytes it returned.
-/

import SrmotionProxy.Lib.Text
import Mathlib.Tactic.IntervalCases

namespace SrmotionProxy.Lib

/-! ## Little-endian words -/

/-- The four bytes of a 32-bit word, least significant first. -/
def le32 (word : UInt32) : Bytes :=
  [UInt8.ofNat word.toNat, UInt8.ofNat (word.toNat / 256),
    UInt8.ofNat (word.toNat / 65536), UInt8.ofNat (word.toNat / 16777216)]

/-- The word that four bytes denote. -/
def word32 (b0 b1 b2 b3 : UInt8) : UInt32 :=
  UInt32.ofNat (b0.toNat + 256 * b1.toNat + 65536 * b2.toNat + 16777216 * b3.toNat)

@[simp]
theorem length_le32 (word : UInt32) : (le32 word).length = 4 := rfl

theorem le32_word32 (b0 b1 b2 b3 : UInt8) : le32 (word32 b0 b1 b2 b3) = [b0, b1, b2, b3] := by
  have h0 := b0.toNat_lt
  have h1 := b1.toNat_lt
  have h2 := b2.toNat_lt
  have h3 := b3.toNat_lt
  have hword : (word32 b0 b1 b2 b3).toNat =
      b0.toNat + 256 * b1.toNat + 65536 * b2.toNat + 16777216 * b3.toNat := by
    rw [word32, UInt32.toNat_ofNat']
    omega
  have hbyte (number : Nat) (byte : UInt8) (heq : number % 256 = byte.toNat) :
      UInt8.ofNat number = byte := by
    apply UInt8.toNat_inj.mp
    rw [UInt8.toNat_ofNat']
    exact heq
  rw [le32, hword, hbyte _ b0 (by omega), hbyte _ b1 (by omega), hbyte _ b2 (by omega),
    hbyte _ b3 (by omega)]

/-- Write a word, read it back. -/
theorem word32_bytes (word : UInt32) :
    word32 (UInt8.ofNat word.toNat) (UInt8.ofNat (word.toNat / 256))
      (UInt8.ofNat (word.toNat / 65536)) (UInt8.ofNat (word.toNat / 16777216)) = word := by
  have hword := word.toNat_lt
  apply UInt32.toNat_inj.mp
  rw [word32, UInt32.toNat_ofNat']
  simp only [UInt8.toNat_ofNat']
  omega

/-! ## The checked cursor -/

/-- `*(p++)`. -/
def readByte : Bytes → Except Abort (UInt8 × Bytes)
  | [] => .error .undefinedBehaviour
  | byte :: rest => .ok (byte, rest)

/-- `memcpy(&word, p, 4); p += 4`. -/
def readWord : Bytes → Except Abort (UInt32 × Bytes)
  | b0 :: b1 :: b2 :: b3 :: rest => .ok (word32 b0 b1 b2 b3, rest)
  | _ => .error .undefinedBehaviour

/-- `memcpy(buffer, p, count); p += count`. -/
def readBytes (count : Nat) (cursor : Bytes) : Except Abort (Bytes × Bytes) :=
  if count ≤ cursor.length then .ok (cursor.take count, cursor.drop count)
  else .error .undefinedBehaviour

@[simp]
theorem readByte_cons (byte : UInt8) (rest : Bytes) :
    readByte (byte :: rest) = .ok (byte, rest) := rfl

theorem readByte_eq_ok {cursor rest : Bytes} {byte : UInt8}
    (hread : readByte cursor = .ok (byte, rest)) : cursor = byte :: rest := by
  cases cursor with
  | nil => cases hread
  | cons first tail => cases hread; rfl

@[simp]
theorem readWord_le32_append (word : UInt32) (rest : Bytes) :
    readWord (le32 word ++ rest) = .ok (word, rest) := by
  simp only [le32, List.cons_append, List.nil_append, readWord, word32_bytes]

theorem readWord_eq_ok {cursor rest : Bytes} {word : UInt32}
    (hread : readWord cursor = .ok (word, rest)) : cursor = le32 word ++ rest := by
  match cursor, hread with
  | b0 :: b1 :: b2 :: b3 :: tail, hread =>
      simp only [readWord, Except.ok.injEq, Prod.mk.injEq] at hread
      obtain ⟨rfl, rfl⟩ := hread
      rw [le32_word32]
      rfl

theorem readBytes_append {text : Bytes} {count : Nat} (hcount : text.length = count)
    (rest : Bytes) : readBytes count (text ++ rest) = .ok (text, rest) := by
  subst hcount
  rw [readBytes, if_pos (by simp), List.take_left, List.drop_left]

theorem readBytes_eq_ok {cursor text rest : Bytes} {count : Nat}
    (hread : readBytes count cursor = .ok (text, rest)) :
    cursor = text ++ rest ∧ text.length = count := by
  by_cases hcount : count ≤ cursor.length
  · rw [readBytes, if_pos hcount] at hread
    simp only [Except.ok.injEq, Prod.mk.injEq] at hread
    obtain ⟨rfl, rfl⟩ := hread
    exact ⟨(List.take_append_drop count cursor).symm, by simp [hcount]⟩
  · rw [readBytes, if_neg hcount] at hread
    cases hread

/-! ## Writes at an offset -/

/-- `memset(buffer, 0, count)` on a fresh allocation. -/
def zeros (count : Nat) : Bytes := List.replicate count 0

/-- `memcpy(buffer + offset, bytes, bytes.length)`. -/
def overwrite (buffer : Bytes) (offset : Nat) (bytes : Bytes) : Bytes :=
  buffer.take offset ++ bytes ++ buffer.drop (offset + bytes.length)

theorem length_overwrite {buffer bytes : Bytes} {offset : Nat}
    (hfits : offset + bytes.length ≤ buffer.length) :
    (overwrite buffer offset bytes).length = buffer.length := by
  simp only [overwrite, List.length_append, List.length_take, List.length_drop]
  omega

@[simp]
theorem length_zeros (count : Nat) : (zeros count).length = count := List.length_replicate

/-- Writing over a fresh block at the front. -/
theorem overwrite_zeros (count : Nat) {bytes : Bytes} (hlength : bytes.length = count)
    (after : Bytes) : overwrite (zeros count ++ after) 0 bytes = bytes ++ after := by
  rw [overwrite, List.take_zero, List.nil_append, Nat.zero_add, hlength,
    List.drop_left' (length_zeros count)]

/-- Writing behind a block leaves the block alone. -/
theorem overwrite_skip (size : Nat) {before : Bytes} (hsize : before.length = size)
    (after : Bytes) (offset : Nat) (bytes : Bytes) :
    overwrite (before ++ after) (offset + size) bytes =
      before ++ overwrite after offset bytes := by
  have hoffset : offset + size = before.length + offset := by omega
  have hend : offset + size + bytes.length = before.length + (offset + bytes.length) := by omega
  rw [overwrite, hend, hoffset, List.take_length_add_append, List.drop_length_add_append,
    overwrite]
  simp only [List.append_assoc]

/-- Writing the same bytes once more changes nothing. -/
theorem overwrite_twice {buffer bytes : Bytes} {offset : Nat}
    (hfits : offset + bytes.length ≤ buffer.length) :
    overwrite (overwrite buffer offset bytes) offset bytes = overwrite buffer offset bytes := by
  have htake : (buffer.take offset).length = offset := List.length_take_of_le (by omega)
  have hfront : (buffer.take offset ++ bytes).length = offset + bytes.length := by
    rw [List.length_append, htake]
  unfold overwrite
  rw [List.drop_left' hfront, List.append_assoc (buffer.take offset), List.take_left' htake,
    List.append_assoc]

theorem zeros_add (first second : Nat) : zeros (first + second) = zeros first ++ zeros second :=
  List.replicate_append_replicate.symm

/-- The little-endian word at an offset. -/
def wordAt (buffer : Bytes) (offset : Nat) : UInt32 :=
  word32 (buffer.getD offset 0) (buffer.getD (offset + 1) 0) (buffer.getD (offset + 2) 0)
    (buffer.getD (offset + 3) 0)

theorem wordAt_here (word : UInt32) (after : Bytes) : wordAt (le32 word ++ after) 0 = word :=
  word32_bytes word

/-- Reading behind a block does not look at the block. -/
theorem wordAt_skip (size : Nat) {before : Bytes} (hsize : before.length = size)
    (after : Bytes) (offset : Nat) :
    wordAt (before ++ after) (offset + size) = wordAt after offset := by
  subst hsize
  have hskip (index : Nat) : (before ++ after).getD (index + before.length) 0 =
      after.getD index 0 := by
    simp [List.getD_eq_getElem?_getD, List.getElem?_append_right]
  have hbyte (index : Nat) :
      offset + before.length + index = offset + index + before.length := by omega
  rw [wordAt, wordAt, hbyte 1, hbyte 2, hbyte 3, hskip, hskip, hskip, hskip]

/-- The bytes from an offset on start with the word at that offset. -/
theorem drop_eq_word_append {buffer : Bytes} {offset : Nat} (hlength : offset + 4 ≤ buffer.length) :
    buffer.drop offset = le32 (wordAt buffer offset) ++ buffer.drop (offset + 4) := by
  have hbefore : (buffer.take offset).length = offset := by
    rw [List.length_take]
    omega
  have hword : wordAt buffer offset = wordAt (buffer.drop offset) 0 := by
    have hskip := wordAt_skip offset hbefore (buffer.drop offset) 0
    rwa [List.take_append_drop, Nat.zero_add] at hskip
  have hafter : 4 ≤ (buffer.drop offset).length := by
    rw [List.length_drop]
    omega
  rw [hword, ← List.drop_drop]
  generalize buffer.drop offset = tail at hafter
  match tail, hafter with
  | b0 :: b1 :: b2 :: b3 :: rest, _ =>
      have hbytes : wordAt (b0 :: b1 :: b2 :: b3 :: rest) 0 = word32 b0 b1 b2 b3 := rfl
      rw [hbytes, le32_word32]
      rfl

example : wordAt (overwrite (zeros 8) 2 (le32 0x01020304)) 2 = 0x01020304 := by decide

/-! ## Frames -/

/-- The buffers have the same length and agree at every offset that is not touched. -/
structure SameOutside (touched : Nat → Prop) (before after : Bytes) : Prop where
  length : after.length = before.length
  byte : ∀ i, ¬ touched i → after[i]? = before[i]?

namespace SameOutside

variable {touched : Nat → Prop} {before middle after : Bytes}

theorem refl (touched : Nat → Prop) (buffer : Bytes) : SameOutside touched buffer buffer :=
  ⟨rfl, fun _ _ => rfl⟩

theorem trans (hfirst : SameOutside touched before middle)
    (hsecond : SameOutside touched middle after) : SameOutside touched before after :=
  ⟨hsecond.length.trans hfirst.length, fun i hi => (hsecond.byte i hi).trans (hfirst.byte i hi)⟩

theorem mono {wider : Nat → Prop} (hsame : SameOutside touched before after)
    (hwider : ∀ i, touched i → wider i) : SameOutside wider before after :=
  ⟨hsame.length, fun i hi => hsame.byte i fun htouched => hi (hwider i htouched)⟩

theorem getD (hsame : SameOutside touched before after) {i : Nat} (hi : ¬ touched i) :
    after.getD i 0 = before.getD i 0 := by
  rw [List.getD_eq_getElem?_getD, List.getD_eq_getElem?_getD, hsame.byte i hi]

/-- A word that is not touched reads the same. -/
theorem wordAt (hsame : SameOutside touched before after) {offset : Nat}
    (hfree : ∀ i, offset ≤ i → i < offset + 4 → ¬ touched i) :
    Lib.wordAt after offset = Lib.wordAt before offset := by
  unfold Lib.wordAt
  rw [hsame.getD (hfree offset (by omega) (by omega)),
    hsame.getD (hfree (offset + 1) (by omega) (by omega)),
    hsame.getD (hfree (offset + 2) (by omega) (by omega)),
    hsame.getD (hfree (offset + 3) (by omega) (by omega))]

/-- A write inside the buffer touches the bytes it writes. -/
theorem overwrite {buffer bytes : Bytes} {offset : Nat}
    (hfits : offset + bytes.length ≤ buffer.length)
    (htouched : ∀ i, offset ≤ i → i < offset + bytes.length → touched i) :
    SameOutside touched buffer (overwrite buffer offset bytes) := by
  refine ⟨length_overwrite hfits, fun i hi => ?_⟩
  have htake : (buffer.take offset).length = offset := List.length_take_of_le (by omega)
  rw [Lib.overwrite, List.append_assoc]
  by_cases hbefore : i < offset
  · rw [List.getElem?_append_left (by omega), List.getElem?_take_of_lt hbefore]
  · have hbehind : offset + bytes.length ≤ i := by
      by_contra hinside
      exact hi (htouched i (by omega) (by omega))
    rw [List.getElem?_append_right (by omega), List.getElem?_append_right (by omega),
      List.getElem?_drop]
    congr 1
    omega

end SameOutside

end SrmotionProxy.Lib
