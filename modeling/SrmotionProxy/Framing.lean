/-
# Framing

What the receiver of a packet built by `server::send` sees. The buffer writes of the
builder add up to one layout: message type, a 56-byte header with five non-zero
fields, and the encoded list. Every view of the receive path is then a matter of
skipping blocks of that layout.
-/

import SrmotionProxy.Server

namespace SrmotionProxy

open SrmotionProxy.Lib SrmotionProxy.ENet SrmotionProxy.Proton

/-! ## Layout of a text packet -/

theorem textPacket_eq (text : Bytes) (type : Int) :
    textPacket text type = le32 (UInt32.ofInt type) ++ (text ++ [0]) := by
  have hzeros : zeros (text.length + 5) = zeros 4 ++ (zeros text.length ++ (zeros 1 ++ [])) := by
    rw [List.append_nil, ← zeros_add, ← zeros_add]
    congr 1
    omega
  have hend : 4 + text.length = 0 + text.length + 4 := by omega
  unfold textPacket
  simp only []
  rw [hzeros, overwrite_zeros 4 rfl, overwrite_skip 4 rfl, overwrite_zeros text.length rfl,
    hend, overwrite_skip 4 rfl, overwrite_skip text.length rfl, overwrite_zeros 1 rfl,
    List.append_nil]

/-! ## Layout of a call-function packet -/

/-- The header of a call: the `gameupdatepacket_t` up to its data. -/
def callHeader (netid delay : Int) (dataSize : UInt32) : Bytes :=
  [PACKET_CALL_FUNCTION, 0, 0, 0] ++ (le32 (UInt32.ofInt netid) ++ (zeros 4 ++ (le32 8 ++
    (zeros 4 ++ (le32 (UInt32.ofInt delay) ++ (zeros 28 ++ le32 dataSize))))))

theorem length_callHeader (netid delay : Int) (dataSize : UInt32) :
    (callHeader netid delay dataSize).length = 56 := rfl

/-- A whole call packet. -/
def callPacket (netid delay : Int) (dataSize : UInt32) (data : Bytes) : Bytes :=
  le32 NET_MESSAGE_GAME_PACKET.toUInt32 ++ (callHeader netid delay dataSize ++ data)

theorem callFunctionPacket_eq (list : VariantList) (netid delay : Int)
    (hfits : list.encoding.length < 2 ^ 31) :
    callFunctionPacket list netid delay =
      .ok (callPacket netid delay (UInt32.ofNat list.encoding.length) list.encoding) := by
  have hsize : (UInt32.ofNat list.encoding.length).toNat = list.encoding.length := by
    rw [UInt32.toNat_ofNat', Nat.mod_eq_of_lt (by omega)]
  have hupdate : zeros (sizeofGameUpdatePacket + list.encoding.length) =
      zeros 4 ++ (zeros 4 ++ (zeros 4 ++ (zeros 4 ++ (zeros 4 ++ (zeros 4 ++ (zeros 28 ++
        (zeros 4 ++ (zeros list.encoding.length ++ zeros 4)))))))) := by
    simp only [← zeros_add, sizeofGameUpdatePacket]
    congr 1
    omega
  have hgame : zeros (5 + sizeofGameUpdatePacket + list.encoding.length) =
      zeros 4 ++ (zeros (sizeofGameUpdatePacket + list.encoding.length) ++ zeros 1) := by
    simp only [← zeros_add]
    congr 1
    omega
  have htype (rest : Bytes) : overwrite (zeros 4 ++ rest) 0 [PACKET_CALL_FUNCTION] =
      [PACKET_CALL_FUNCTION, 0, 0, 0] ++ rest := rfl
  unfold callFunctionPacket
  rw [serializeToMem_eq list hfits]
  simp only [except_ok_bind, hsize]
  have hskipType (after : Bytes) (offset : Nat) (bytes : Bytes) :=
    overwrite_skip 4 (rfl : [PACKET_CALL_FUNCTION, 0, 0, 0].length = 4) after offset bytes
  have hskipWord (word : UInt32) (after : Bytes) (offset : Nat) (bytes : Bytes) :=
    overwrite_skip 4 (length_le32 word) after offset bytes
  have hskipZeros (after : Bytes) (offset : Nat) (bytes : Bytes) :=
    overwrite_skip 4 (length_zeros 4) after offset bytes
  have hskipGap (after : Bytes) (offset : Nat) (bytes : Bytes) :=
    overwrite_skip 28 (length_zeros 28) after offset bytes
  have hwrite (word : UInt32) (after : Bytes) :=
    overwrite_zeros 4 (length_le32 word) after
  have hflags (rest : Bytes) :
      wordAt ([PACKET_CALL_FUNCTION, 0, 0, 0] ++ (le32 (UInt32.ofInt netid) ++ (zeros 4 ++
        (zeros 4 ++ rest)))) 12 ||| 8 = 8 := by
    have hzero : wordAt (zeros 4 ++ rest) 0 = 0 := wordAt_here 0 rest
    rw [wordAt_skip 4 rfl, wordAt_skip 4 rfl, wordAt_skip 4 rfl, hzero]
    decide
  simp only [hupdate, htype, hskipType, hskipWord, hskipZeros, hskipGap, hwrite, hflags,
    overwrite_zeros list.encoding.length rfl]
  -- the finished update packet is copied behind the message type
  generalize hdone : ([PACKET_CALL_FUNCTION, 0, 0, 0] ++ (le32 (UInt32.ofInt netid) ++
    (zeros 4 ++ (le32 8 ++ (zeros 4 ++ (le32 (UInt32.ofInt delay) ++ (zeros 28 ++
      (le32 (UInt32.ofNat list.encoding.length) ++ (list.encoding ++ zeros 4))))))))) = update
  have hlayout : update = callHeader netid delay (UInt32.ofNat list.encoding.length) ++
      list.encoding ++ zeros 4 := by
    rw [← hdone, callHeader]
    simp only [List.append_assoc]
  have hlength : update.length = sizeofGameUpdatePacket + list.encoding.length := by
    rw [hlayout, List.length_append, List.length_append, length_callHeader]
    simp only [sizeofGameUpdatePacket, length_zeros]
    omega
  have htake : list.encoding.length + sizeofGameUpdatePacket =
      4 + (callHeader netid delay (UInt32.ofNat list.encoding.length) ++
        list.encoding).length := by
    rw [List.length_append, length_callHeader, sizeofGameUpdatePacket]
    omega
  rw [hgame, overwrite_zeros 4 (length_le32 _), overwrite_skip 4 (length_le32 _),
    overwrite_zeros _ hlength, htake, hlayout, List.append_assoc _ (zeros 4) (zeros 1),
    List.take_append, length_le32, Nat.add_sub_cancel_left, List.take_left]
  rfl

/-! ## What the receiver sees -/

/-- An `int` survives the trip through its two's complement word. -/
theorem wrapInt_ofInt {value : Int} (hmin : intMin ≤ value) (hmax : value ≤ intMax) :
    wrapInt (UInt32.ofInt value).toNat = value := by
  unfold intMin at hmin
  unfold intMax at hmax
  rw [UInt32.ofInt, UInt32.toNat_ofNat', wrapInt]
  omega

namespace CallPacket

variable (netid delay : Int) (dataSize : UInt32) (data : Bytes)

theorem length : (callPacket netid delay dataSize data).length = data.length + 60 := by
  rw [callPacket, List.length_append, List.length_append, length_callHeader, length_le32]
  omega

theorem getPacketType_eq :
    getPacketType (callPacket netid delay dataSize data) = NET_MESSAGE_GAME_PACKET := by
  rw [getPacketType, length, if_pos (by omega)]
  rfl

theorem mType_eq : Packet.mType (callPacket netid delay dataSize data) = PACKET_CALL_FUNCTION :=
  rfl

/-- The words of the header, found by skipping what stands in front of them. -/
theorem words :
    wordAt (callPacket netid delay dataSize data) 8 = UInt32.ofInt netid ∧
    wordAt (callPacket netid delay dataSize data) 16 = 8 ∧
    wordAt (callPacket netid delay dataSize data) 24 = UInt32.ofInt delay ∧
    wordAt (callPacket netid delay dataSize data) 56 = dataSize := by
  have hword (word : UInt32) (after : Bytes) (offset : Nat) :=
    wordAt_skip 4 (length_le32 word) after offset
  have hzeros (after : Bytes) (offset : Nat) :=
    wordAt_skip 4 (length_zeros 4) after offset
  have hgap (after : Bytes) (offset : Nat) :=
    wordAt_skip 28 (length_zeros 28) after offset
  have htype (after : Bytes) (offset : Nat) :=
    wordAt_skip 4 (rfl : [PACKET_CALL_FUNCTION, 0, 0, 0].length = 4) after offset
  simp only [callPacket, callHeader, List.append_assoc, hword, hzeros, hgap, htype,
    wordAt_here, and_self]

theorem mPlayerFlags_eq (hmin : intMin ≤ netid) (hmax : netid ≤ intMax) :
    Packet.mPlayerFlags (callPacket netid delay dataSize data) = netid := by
  rw [Packet.mPlayerFlags, Packet.intAt, (words netid delay dataSize data).1,
    wrapInt_ofInt hmin hmax]

theorem mIntData_eq (hmin : intMin ≤ delay) (hmax : delay ≤ intMax) :
    Packet.mIntData (callPacket netid delay dataSize data) = delay := by
  rw [Packet.mIntData, Packet.intAt, (words netid delay dataSize data).2.2.1,
    wrapInt_ofInt hmin hmax]

theorem mDataSize_eq : Packet.mDataSize (callPacket netid delay dataSize data) = dataSize :=
  (words netid delay dataSize data).2.2.2

/-- `get_struct` accepts the packet and leaves it alone. -/
theorem getStruct_eq (hsize : dataSize.toNat = data.length) (hfits : data.length < 2 ^ 31) :
    getStruct (callPacket netid delay dataSize data) =
      .ok (some (callPacket netid delay dataSize data)) := by
  have hflags : Packet.mPacketFlags (callPacket netid delay dataSize data) &&& 8 ≠ 0 := by
    rw [Packet.mPacketFlags, (words netid delay dataSize data).2.1]
    decide
  have hsum : (dataSize + 60).toNat = data.length + 60 := by
    rw [UInt32.toNat_add, hsize]
    exact Nat.mod_eq_of_lt (by simp only [UInt32.toNat_ofNat]; omega)
  rw [getStruct, length, mDataSize_eq, hsum, if_neg (by simp only [sizeofGameUpdatePacket]; omega),
    if_neg (by omega), if_pos hflags, if_neg (by omega)]

/-- Behind the data size stand the data. -/
theorem extended_eq : (getExtended (callPacket netid delay dataSize data)).drop 4 = data := by
  rw [getExtended, List.drop_drop]
  rfl

end CallPacket

theorem getPacketType_textPacket (text : Bytes) {type : Nat} (htype : type ≤ 255) :
    getPacketType (textPacket text type) = UInt8.ofNat type := by
  have hword : (UInt32.ofInt (type : Int)).toNat = type := by
    rw [UInt32.ofInt, UInt32.toNat_ofNat']
    omega
  rw [textPacket_eq, getPacketType, if_pos (by simp; omega), le32, hword]
  rfl

theorem textPacket_injective {text other : Bytes} {type : Int}
    (hsame : textPacket text type = textPacket other type) : text = other := by
  rw [textPacket_eq, textPacket_eq, List.append_cancel_left_eq,
    List.append_cancel_right_eq] at hsame
  exact hsame

theorem getText_textPacket {text : Bytes} (hfree : 0 ∉ text) (type : Int) :
    getText (textPacket text type) = .ok (text, textPacket text type) := by
  have hlength : (textPacket text type).length - 1 = 0 + text.length + 4 := by
    rw [textPacket_eq]
    simp only [List.length_append, length_le32, List.length_singleton]
    omega
  have hsame : overwrite (textPacket text type) ((textPacket text type).length - 1) [0] =
      textPacket text type := by
    rw [hlength, textPacket_eq, overwrite_skip 4 rfl, overwrite_skip text.length rfl]
    rfl
  have hbehind : (textPacket text type).drop 4 = text ++ [0] := by
    rw [textPacket_eq]
    rfl
  have hlong : 4 < (textPacket text type).length := by omega
  rw [getText]
  simp only [hsame]
  rw [if_pos hlong, hbehind, cStr_append_nul hfree]

/-! ## Round trip -/

/-- What `send` delivers, the receive path reads back: the list with its addressing
behind a call-function header, and the text behind its message type. -/
theorem send_read_back {state : ProxyState} {client : Bool} {peer : Peer} {host : Host}
    (htarget : state.target client = some (peer, host)) (list : VariantList)
    (hsendable : list.Sendable) (hfits : list.encoding.length ≤ maximumPacketSize)
    (netid delay : Int) (hnetid : intMin ≤ netid ∧ netid ≤ intMax)
    (hdelay : intMin ≤ delay ∧ delay ≤ intMax) (text : Bytes) (hfree : 0 ∉ text)
    (type : Nat) (htype : type ≤ 255) :
    (∃ packet struct data parsed,
      (Handler.sendVariant client list netid delay).code.run state =
        .ok () (state.sendAndFlush .built peer host packet) ∧
      getPacketType packet = NET_MESSAGE_GAME_PACKET ∧
      getStruct packet = .ok (some struct) ∧
      Packet.mType struct = PACKET_CALL_FUNCTION ∧
      Packet.mPlayerFlags struct = netid ∧
      Packet.mIntData struct = delay ∧
      serializeToMem list = .ok (data, Packet.mDataSize struct) ∧
      serializeFromMem ((getExtended struct).drop 4) .fresh = .ok parsed ∧
      parsed.accepted = true ∧
      parsed.read = (Packet.mDataSize struct).toNat ∧
      parsed.list.values = list.values) ∧
    (∃ packet cleared,
      (Handler.sendText client text type).code.run state =
        .ok () (state.sendAndFlush .built peer host packet) ∧
      getPacketType packet = UInt8.ofNat type ∧
      getText packet = .ok (text, cleared)) := by
  have hsmall : list.encoding.length < 2 ^ 31 := by
    unfold maximumPacketSize at hfits
    omega
  have hsize : (UInt32.ofNat list.encoding.length).toNat = list.encoding.length := by
    rw [UInt32.toNat_ofNat', Nat.mod_eq_of_lt (by omega)]
  have hparse := serializeFromMem_encoding list hsmall []
  rw [List.append_nil] at hparse
  refine ⟨⟨_, _, list.encoding,
    ⟨true, list.encoding.length, storeItems .fresh list.usedItems⟩,
    Handler.sendVariant_run htarget (callFunctionPacket_eq list netid delay hsmall),
    CallPacket.getPacketType_eq .., CallPacket.getStruct_eq _ _ _ _ hsize hsmall,
    CallPacket.mType_eq .., CallPacket.mPlayerFlags_eq _ _ _ _ hnetid.1 hnetid.2,
    CallPacket.mIntData_eq _ _ _ _ hdelay.1 hdelay.2, ?_, ?_, rfl, ?_, ?_⟩,
    ⟨_, _, Handler.sendText_run htarget text type, getPacketType_textPacket text htype,
      getText_textPacket hfree type⟩⟩
  · rw [CallPacket.mDataSize_eq, serializeToMem_eq list hsmall]
  · rw [CallPacket.extended_eq]
    exact hparse
  · rw [CallPacket.mDataSize_eq, hsize]
  · exact values_storeItems_usedItems list hsendable hsmall

/-- A call of every kind of value, sent to a connected client. -/
theorem send_read_back_example :
    let state : ProxyState :=
      { server := { mGtPeer := some ⟨0, 3⟩, mProxyServer := some 0 } }
    let list : VariantList := ((VariantList.ofString (ascii "OnSetPos")).modify 1
      (Variant.setVector2 0x42800000 0xC2000000)).modify 3 (Variant.setInt32 7)
    ∃ packet struct data parsed,
      (Handler.sendVariant true list (-1) 500).code.run state =
        .ok () (state.sendAndFlush .built ⟨0, 3⟩ 0 packet) ∧
      getPacketType packet = NET_MESSAGE_GAME_PACKET ∧
      getStruct packet = .ok (some struct) ∧
      Packet.mType struct = PACKET_CALL_FUNCTION ∧
      Packet.mPlayerFlags struct = -1 ∧
      Packet.mIntData struct = 500 ∧
      serializeToMem list = .ok (data, Packet.mDataSize struct) ∧
      serializeFromMem ((getExtended struct).drop 4) .fresh = .ok parsed ∧
      parsed.accepted = true ∧
      parsed.read = (Packet.mDataSize struct).toNat ∧
      parsed.list.values = list.values := by
  intro state list
  have hsendable : list.Sendable := by decide
  have hfits : list.encoding.length ≤ maximumPacketSize := by decide
  exact (send_read_back (rfl : state.target true = some (⟨0, 3⟩, 0)) list hsendable hfits
    (-1) 500 (by decide) (by decide) (ascii "action|quit") (by decide) 3 (by decide)).1

end SrmotionProxy
