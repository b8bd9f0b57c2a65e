/-
# What the views of a packet check and change

`get_text` and `get_struct` are called on almost every packet before anything is
decided about it. Both write into the packet, and the length check of `get_struct` is
the only thing that keeps later readers inside it. This module says exactly when that
check is right and exactly what the two calls change.
-/

import SrmotionProxy.Packet

namespace SrmotionProxy

open SrmotionProxy.Lib SrmotionProxy.Proton

/-! ## The length check -/

/-- The check is sound: `get_struct` stays inside the packet, and a pointer it returns
has its whole header and, if flagged, its whole payload inside the packet. -/
def StructInside (packet : Bytes) : Prop :=
  ∃ result, getStruct packet = .ok result ∧
    ∀ struct, result = some struct → 60 ≤ packet.length ∧
      (Packet.mPacketFlags packet &&& 8 ≠ 0 →
        60 + (Packet.mDataSize packet).toNat ≤ packet.length)

/-- The 32-bit sum of the check wraps around for the last sixty sizes. -/
theorem toNat_dataSize_add (size : UInt32) :
    (size + 60).toNat = if size.toNat + 60 < 2 ^ 32 then size.toNat + 60
      else size.toNat + 60 - 2 ^ 32 := by
  have hsize := size.toNat_lt
  rw [UInt32.toNat_add]
  change (size.toNat + 60) % 2 ^ 32 = _
  split <;> omega

theorem getStruct_of_long {packet : Bytes} (hlong : 60 ≤ packet.length) :
    getStruct packet =
      if Packet.mPacketFlags packet &&& 8 ≠ 0 then
        if packet.length < (Packet.mDataSize packet + 60).toNat then .ok none
        else .ok (some packet)
      else .ok (some (Packet.setDataSize packet 0)) := by
  rw [getStruct, if_neg (by simp only [sizeofGameUpdatePacket]; omega), if_neg (by omega)]

/-- The check is sound exactly for packets that are shorter than the part of the header
it asks for, and for those that hold the whole header and whose payload is not flagged,
does not make the sum wrap around, or lies inside the packet. -/
theorem structInside_iff (packet : Bytes) :
    StructInside packet ↔ packet.length < 56 ∨
      (60 ≤ packet.length ∧ (Packet.mPacketFlags packet &&& 8 = 0 ∨
        (Packet.mDataSize packet).toNat + 60 < 2 ^ 32 ∨
        60 + (Packet.mDataSize packet).toNat ≤ packet.length)) := by
  have hcheck : sizeofGameUpdatePacket - 4 = 56 := rfl
  by_cases hshort : packet.length < 56
  · refine iff_of_true ⟨none, ?_, nofun⟩ (.inl hshort)
    rw [getStruct, if_pos (by omega)]
  by_cases hcut : packet.length < 60
  · refine iff_of_false ?_ (by omega)
    rintro ⟨result, hresult, -⟩
    rw [getStruct, if_neg (by omega), if_pos hcut] at hresult
    cases hresult
  have hlong : 60 ≤ packet.length := by omega
  rw [StructInside, getStruct_of_long hlong, or_iff_right hshort]
  simp only [hlong, true_and]
  by_cases hflag : Packet.mPacketFlags packet &&& 8 = 0
  · rw [if_neg (by simpa using hflag)]
    exact iff_of_true ⟨_, rfl, fun _ _ h => absurd hflag h⟩ (.inl hflag)
  rw [if_pos hflag, or_iff_right hflag, toNat_dataSize_add]
  have hsize := (Packet.mDataSize packet).toNat_lt
  by_cases hwrap : (Packet.mDataSize packet).toNat + 60 < 2 ^ 32
  · rw [if_pos hwrap]
    refine iff_of_true ?_ (.inl hwrap)
    by_cases hsmall : packet.length < (Packet.mDataSize packet).toNat + 60
    · exact ⟨none, by rw [if_pos hsmall], nofun⟩
    · exact ⟨some packet, by rw [if_neg hsmall], fun _ _ _ => by omega⟩
  · rw [if_neg hwrap, or_iff_right hwrap, if_neg (by omega)]
    constructor
    · rintro ⟨result, hresult, hinside⟩
      cases hresult
      exact hinside packet rfl hflag
    · intro hinside
      exact ⟨some packet, rfl, fun _ _ _ => hinside⟩

/-- The check for 56 bytes does not cover the size field behind them. -/
theorem getStruct_leaves_packet : ¬ StructInside (zeros 56) := by
  rintro ⟨result, hresult, -⟩
  have herror : getStruct (zeros 56) = .error .undefinedBehaviour := rfl
  rw [herror] at hresult
  cases hresult

end SrmotionProxy
