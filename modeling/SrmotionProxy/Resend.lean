/-
# Lists that are sent on

What the client finds in a packet that the proxy has built from a list: the slots of
that list and the addressing it was sent with. A list with strings no longer than a
few packets can always be sent.
-/

import SrmotionProxy.Events.In
import SrmotionProxy.Framing

namespace SrmotionProxy

open SrmotionProxy.Lib SrmotionProxy.ENet SrmotionProxy.Proton

/-- A slot contributes its string and at most eighteen bytes more. -/
theorem length_encoding_le_slots (list : VariantList) : list.encoding.length ≤
    127 + ([0, 1, 2, 3, 4, 5, 6].map fun slot => (list slot).mString.length).sum := by
  have hslots (slots : List (Fin 7)) :
      ((slots.filterMap list.itemAt).flatMap Item.bytes).length ≤
        18 * slots.length + (slots.map fun slot => (list slot).mString.length).sum := by
    induction slots with
    | nil => exact Nat.le_refl 0
    | cons slot slots ih =>
        rw [List.map_cons, List.sum_cons, List.length_cons]
        by_cases htype : (list slot).mType.carried = true
        · have hitem : list.itemAt slot = some ⟨slot, (list slot).value⟩ := if_pos htype
          have hpayload : (list slot).value.payload.length ≤ 16 + (list slot).mString.length := by
            rw [Variant.value]
            cases (list slot).mType <;> simp [Value.payload, length_le32] <;> omega
          rw [List.filterMap_cons_some hitem, List.flatMap_cons, List.length_append,
            Item.length_bytes]
          simp only []
          omega
        · have hitem : list.itemAt slot = none := if_neg htype
          rw [List.filterMap_cons_none hitem]
          omega
  have hlength := hslots (List.finRange 7)
  have hseven : (List.finRange 7).map (fun slot => (list slot).mString.length) =
      [0, 1, 2, 3, 4, 5, 6].map fun slot => (list slot).mString.length := rfl
  rw [hseven, List.length_finRange] at hlength
  rw [VariantList.encoding, List.length_cons, VariantList.usedItems]
  omega

/-- Strings of bounded length have a bounded encoding, and one may be longer than the rest. -/
theorem length_encoding_le_text {list : VariantList} {bound wider : Nat}
    (hbound : ∀ slot, slot ≠ 1 → (list slot).mString.length ≤ bound)
    (hwider : (list 1).mString.length ≤ wider) :
    list.encoding.length ≤ 127 + 6 * bound + wider := by
  have hlength := length_encoding_le_slots list
  have h0 := hbound 0 (by decide)
  have h2 := hbound 2 (by decide)
  have h3 := hbound 3 (by decide)
  have h4 := hbound 4 (by decide)
  have h5 := hbound 5 (by decide)
  have h6 := hbound 6 (by decide)
  simp only [List.map_cons, List.map_nil, List.sum_cons, List.sum_nil] at hlength
  omega

/-- Seven strings of bounded length have a bounded encoding. -/
theorem length_encoding_le {list : VariantList} {bound : Nat}
    (hbound : ∀ slot, (list slot).mString.length ≤ bound) :
    list.encoding.length ≤ 127 + 7 * bound := by
  have hlength := length_encoding_le_text (fun slot _ => hbound slot) (hbound 1)
  omega

/-- The packet of a list gives the list back, with the addressing it was sent with. -/
theorem callFunctionPacket_decodes {list : VariantList} (hsendable : list.Sendable)
    (hfits : list.encoding.length < 2 ^ 31) {netid delay : Int}
    (hnetid : intMin ≤ netid ∧ netid ≤ intMax) (hdelay : intMin ≤ delay ∧ delay ≤ intMax) :
    ∃ packet received, callFunctionPacket list netid delay = .ok packet ∧
      getPacketType packet = NET_MESSAGE_GAME_PACKET ∧
      getStruct packet = .ok (some packet) ∧
      Packet.mType packet = PACKET_CALL_FUNCTION ∧
      Packet.mPlayerFlags packet = netid ∧ Packet.mIntData packet = delay ∧
      Events.In.decodeCall packet = .ok received ∧ received.values = list.values := by
  have hsize : (UInt32.ofNat list.encoding.length).toNat = list.encoding.length := by
    rw [UInt32.toNat_ofNat', Nat.mod_eq_of_lt (by omega)]
  have hparse := serializeFromMem_encoding list hfits []
  rw [List.append_nil] at hparse
  refine ⟨_, storeItems .fresh list.usedItems, callFunctionPacket_eq list netid delay hfits,
    CallPacket.getPacketType_eq .., CallPacket.getStruct_eq _ _ _ _ hsize hfits,
    CallPacket.mType_eq .., CallPacket.mPlayerFlags_eq _ _ _ _ hnetid.1 hnetid.2,
    CallPacket.mIntData_eq _ _ _ _ hdelay.1 hdelay.2, ?_,
    values_storeItems_usedItems list hsendable hfits⟩
  rw [Events.In.decodeCall, CallPacket.extended_eq, hparse]
  rfl

/-! ## A list with another text -/

theorem sendable_withText {list : VariantList} (hsendable : list.Sendable) (slot : Fin 7)
    (text : Bytes) : (list.modify slot (Variant.setString text)).Sendable := by
  intro other
  by_cases hslot : other = slot
  · subst hslot
    rw [VariantList.modify_same]
    exact .inr rfl
  · rw [VariantList.modify_of_ne _ _ hslot]
    exact hsendable other

/-- A list whose strings come from a packet, with slot 1 set to a text of up to a
gigabyte, can be sent, and what arrives is that list. -/
theorem withText_decodes {varlist : VariantList} (hsendable : varlist.Sendable)
    (hstrings : ∀ slot, (varlist slot).mString.length ≤ maximumPacketSize) {text : Bytes}
    (htext : text.length ≤ 32 * maximumPacketSize) {netid delay : Int}
    (hnetid : intMin ≤ netid ∧ netid ≤ intMax) (hdelay : intMin ≤ delay ∧ delay ≤ intMax) :
    ∃ packet received,
      callFunctionPacket (varlist.modify 1 (Variant.setString text)) netid delay = .ok packet ∧
      getPacketType packet = NET_MESSAGE_GAME_PACKET ∧
      getStruct packet = .ok (some packet) ∧
      Packet.mType packet = PACKET_CALL_FUNCTION ∧
      Packet.mPlayerFlags packet = netid ∧ Packet.mIntData packet = delay ∧
      Events.In.decodeCall packet = .ok received ∧
      received.values = (varlist.modify 1 (Variant.setString text)).values := by
  have hfits := @length_encoding_le_text (varlist.modify 1 (Variant.setString text))
    maximumPacketSize (32 * maximumPacketSize) (fun slot hslot => by
      rw [VariantList.modify_of_ne _ _ hslot]
      exact hstrings slot) (by rw [VariantList.modify_same]; exact htext)
  unfold maximumPacketSize at hfits
  exact callFunctionPacket_decodes (sendable_withText hsendable 1 text) (by omega) hnetid hdelay

/-- The slots that arrive: the text in slot 1, and the others as they were. -/
theorem withText_values {varlist received : VariantList} {text : Bytes}
    (hvalues : received.values = (varlist.modify 1 (Variant.setString text)).values) :
    (received 1).value = .string text ∧
      ∀ slot, slot ≠ 1 → (received slot).value = (varlist slot).value := by
  have hslot (slot : Fin 7) : (received slot).value =
      (varlist.modify 1 (Variant.setString text) slot).value := congrFun hvalues slot
  refine ⟨?_, fun slot hone => ?_⟩
  · rw [hslot, VariantList.modify_same]
    rfl
  · rw [hslot, VariantList.modify_of_ne _ _ hone]

end SrmotionProxy
