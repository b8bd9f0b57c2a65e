/-
# World names in map data

`events::in::sendmapdata` takes the name of a world from a packet: a signed length of 16
bits and as many bytes. The world is emptied first, and nothing relates the length to the
packet, so that only a name that fits leaves the world in order.
-/

import SrmotionProxy.Events.Roster

namespace SrmotionProxy.Events.In

open SrmotionProxy.Lib SrmotionProxy.Proton SrmotionProxy.Handler

/-! ## Names in packets -/

/-- A length of 16 bits. -/
def le16 (length : Nat) : Bytes := [UInt8.ofNat (length % 256), UInt8.ofNat (length / 256)]

/-- Behind six bytes of the payload stand a length that is not negative and a name of this
length. -/
def HoldsName (packet name : Bytes) : Prop :=
  name.length < 2 ^ 15 ∧
    ∃ header rest, packet.drop 60 = header ++ (le16 name.length ++ (name ++ rest)) ∧
      header.length = 6

theorem toNat_le16 {length : Nat} (hlength : length < 2 ^ 15) :
    (UInt8.ofNat (length % 256)).toNat + 256 * (UInt8.ofNat (length / 256)).toNat = length := by
  rw [UInt8.toNat_ofNat', UInt8.toNat_ofNat']
  omega

theorem le16_toNat (low high : UInt8) : le16 (low.toNat + 256 * high.toNat) = [low, high] := by
  have hlow := low.toNat_lt
  have hhigh := high.toNat_lt
  have hmod : (low.toNat + 256 * high.toNat) % 256 = low.toNat := by omega
  have hdiv : (low.toNat + 256 * high.toNat) / 256 = high.toNat := by omega
  rw [le16, hmod, hdiv, UInt8.ofNat_toNat, UInt8.ofNat_toNat]

/-- The bytes that the handler reads the length from. -/
theorem drop_extended (packet : Bytes) :
    ((getExtended packet).drop 4).drop 6 = (packet.drop 60).drop 6 := by
  simp only [getExtended, List.drop_drop]

/-- A name that is held is read, up to its first NUL. -/
theorem mapName_of_holds {packet name : Bytes} (hholds : HoldsName packet name) :
    mapName packet = .ok (cStr name) := by
  obtain ⟨hlength, header, rest, hpayload, hheader⟩ := hholds
  have hword := toNat_le16 hlength
  have hpositive : name.length < 32768 := hlength
  rw [mapName, drop_extended, hpayload, ← hheader, List.drop_left]
  simp only [le16, List.cons_append, List.nil_append, readByte_cons, except_ok_bind, hword,
    if_pos hpositive]
  rw [if_neg (by omega), if_neg (by omega), Int.toNat_natCast, readBytes_append rfl]
  rfl

/-- What is read is the start of a name that the packet holds. -/
theorem holds_of_mapName {packet text : Bytes} (hread : mapName packet = .ok text) :
    ∃ name, HoldsName packet name ∧ text = cStr name := by
  rw [mapName, drop_extended] at hread
  obtain ⟨⟨low, behindLow⟩, hlow, hread⟩ := except_bind_eq_ok hread
  obtain ⟨⟨high, behindHigh⟩, hhigh, hread⟩ := except_bind_eq_ok hread
  have hdata : (packet.drop 60).drop 6 = low :: high :: behindHigh := by
    rw [readByte_eq_ok hlow, readByte_eq_ok hhigh]
  have hword := le16_toNat low high
  have hrange : low.toNat + 256 * high.toNat < 65536 := by
    have hlowRange := low.toNat_lt
    have hhighRange := high.toNat_lt
    omega
  dsimp only at hread
  generalize low.toNat + 256 * high.toNat = word at hread hword hrange
  by_cases hpositive : word < 32768
  · rw [if_pos hpositive, if_neg (by omega), if_neg (by omega), Int.toNat_natCast] at hread
    obtain ⟨⟨name, rest⟩, hname, htext⟩ := except_bind_eq_ok hread
    obtain ⟨hsplit, hlength⟩ := readBytes_eq_ok hname
    have hlong : 6 ≤ (packet.drop 60).length := by
      have hcount := congrArg List.length hdata
      rw [List.length_drop, List.length_cons] at hcount
      omega
    refine ⟨name, ⟨by omega, (packet.drop 60).take 6, rest, ?_, ?_⟩, (Except.ok.inj htext).symm⟩
    · rw [hlength, hword, ← hsplit]
      calc
        packet.drop 60 = (packet.drop 60).take 6 ++ (packet.drop 60).drop 6 :=
          (List.take_append_drop 6 _).symm
        _ = (packet.drop 60).take 6 ++ ([low, high] ++ behindHigh) := by rw [hdata]; rfl
    · rw [List.length_take]
      omega
  · rw [if_neg hpositive] at hread
    by_cases hsmall : (word : Int) - 65536 < -1
    · rw [if_pos hsmall] at hread
      cases hread
    · rw [if_neg hsmall, if_pos (by omega)] at hread
      cases hread

/-! ## Map data -/

/-- The handler stays within the packet. The world is the named one if the packet holds a
name, and else what it was. -/
def ParsesInside (packet : Bytes) (state : ProxyState) : Prop :=
  ∃ verdict after, (sendmapdata packet).code.run state = .ok verdict after ∧
    (∀ name, HoldsName packet name →
      after.server.mWorld = { name := cStr name, connected := true }) ∧
    ((∀ name, ¬ HoldsName packet name) → after.server.mWorld = state.server.mWorld)

/-- Nothing is taken in as it should without a name. -/
theorem holdsName_of_parsesInside {packet : Bytes} {state : ProxyState}
    (hinside : ParsesInside packet state) : ∃ name, HoldsName packet name := by
  obtain ⟨verdict, after, hrun, -, -⟩ := hinside
  obtain ⟨_, cleared, -, hrest⟩ := Confined.bind_eq_ok hrun
  obtain ⟨text, named, hlift, -⟩ := Confined.bind_eq_ok hrest
  obtain ⟨name, hholds, -⟩ := holds_of_mapName (Confined.ofExcept_eq_ok hlift).1
  exact ⟨name, hholds⟩

/-- Map data are taken in as they should exactly if they hold a name. -/
theorem parsesInside_iff (packet : Bytes) (state : ProxyState) :
    ParsesInside packet state ↔ ∃ name, HoldsName packet name := by
  refine ⟨holdsName_of_parsesInside, ?_⟩
  rintro ⟨name, hholds⟩
  have hread := mapName_of_holds hholds
  have hrun : (sendmapdata packet).code.run state = .ok false { state with
      server := { state.server with mWorld := { name := cStr name, connected := true } } } := by
    unfold sendmapdata
    rw [hread]
    rfl
  refine ⟨false, _, hrun, fun other hother => ?_, fun hnone => absurd hholds (hnone name)⟩
  have hsame := Except.ok.inj (hread.symm.trans (mapName_of_holds hother))
  rw [hsame]

/-- A packet of map data without a payload. -/
def emptyMapData : Bytes := overwrite (zeros 60) 0 [4, 0, 0, 0, PACKET_SEND_MAP_DATA]

/-- It is accepted, and read beyond its end. -/
theorem emptyMapData_escapes :
    getStruct emptyMapData = .ok (some emptyMapData) ∧
      Packet.mType emptyMapData = PACKET_SEND_MAP_DATA ∧ ¬ ParsesInside emptyMapData {} := by
  refine ⟨by decide, by decide, ?_⟩
  intro hinside
  obtain ⟨name, -, header, rest, hpayload, hheader⟩ := holdsName_of_parsesInside hinside
  have hlength := congrArg List.length hpayload
  simp only [List.length_append, hheader] at hlength
  have hempty : (emptyMapData.drop 60).length = 0 := by decide
  omega

end SrmotionProxy.Events.In
