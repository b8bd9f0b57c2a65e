/-
# Packets

The bytes of an `ENetPacket` and the views the proxy takes of them: the message
type, the text behind it, and the `gameupdatepacket_t` that starts at offset 4
(`packet.h`, `utils.cpp`). A view that leaves the packet is undefined behaviour.
The second part builds packets the way the three overloads of `server::send` do,
one buffer write after another.
-/

import SrmotionProxy.Proton.Wire

namespace SrmotionProxy

open SrmotionProxy.Lib SrmotionProxy.Proton

/-! ## Constants -/

/-- The `NET_MESSAGE_*` numbers. -/
def NET_MESSAGE_GENERIC_TEXT : UInt8 := 2
def NET_MESSAGE_GAME_MESSAGE : UInt8 := 3
def NET_MESSAGE_GAME_PACKET : UInt8 := 4
def NET_MESSAGE_TRACK : UInt8 := 6
def NET_MESSAGE_CLIENT_LOG_REQUEST : UInt8 := 7
def NET_MESSAGE_CLIENT_LOG_RESPONSE : UInt8 := 8

/-- The `PACKET_*` numbers. -/
def PACKET_STATE : UInt8 := 0
def PACKET_CALL_FUNCTION : UInt8 := 1
def PACKET_SEND_MAP_DATA : UInt8 := 4
def PACKET_SEND_INVENTORY_STATE : UInt8 := 9
def PACKET_PING_REPLY : UInt8 := 21
def PACKET_PING_REQUEST : UInt8 := 22
def PACKET_APP_INTEGRITY_FAIL : UInt8 := 25
def PACKET_DISCONNECT : UInt8 := 26

/-- `sizeof(gameupdatepacket_t)`. -/
def sizeofGameUpdatePacket : Nat := 60

/-! ## Fields

Offsets count from the start of the packet, four more than from the start of the
struct. Signed fields are integers; floats are bit patterns. -/

namespace Packet

/-- A little-endian `int32_t` field. -/
def intAt (packet : Bytes) (offset : Nat) : Int := wrapInt (wordAt packet offset).toNat

def mType (packet : Bytes) : UInt8 := packet.getD 4 0
def mCount (packet : Bytes) : UInt8 := packet.getD 7 0
def mPlayerFlags (packet : Bytes) : Int := intAt packet 8
def mPacketFlags (packet : Bytes) : UInt32 := wordAt packet 16
def mIntData (packet : Bytes) : Int := intAt packet 24
def mVecX (packet : Bytes) : UInt32 := wordAt packet 28
def mVecY (packet : Bytes) : UInt32 := wordAt packet 32
def mDataSize (packet : Bytes) : UInt32 := wordAt packet 56

def setJumpAmount (packet : Bytes) (value : UInt8) : Bytes := overwrite packet 6 [value]
def setCount (packet : Bytes) (value : UInt8) : Bytes := overwrite packet 7 [value]
def setPlayerFlags (packet : Bytes) (value : Int) : Bytes :=
  overwrite packet 8 (le32 (UInt32.ofInt value))
def setVecX (packet : Bytes) (value : UInt32) : Bytes := overwrite packet 28 (le32 value)
def setVecY (packet : Bytes) (value : UInt32) : Bytes := overwrite packet 32 (le32 value)
def setVec2X (packet : Bytes) (value : UInt32) : Bytes := overwrite packet 36 (le32 value)
def setVec2Y (packet : Bytes) (value : UInt32) : Bytes := overwrite packet 40 (le32 value)
def setDataSize (packet : Bytes) (value : UInt32) : Bytes := overwrite packet 56 (le32 value)

end Packet

open Packet

/-! ## Views -/

/-- `get_packet_type`. -/
def getPacketType (packet : Bytes) : UInt8 :=
  if 3 < packet.length then packet.getD 0 0 else 0

/-- `utils::get_text`: the text, and the packet with its last byte cleared. -/
def getText (packet : Bytes) : Except Abort (Bytes × Bytes) :=
  let packet := overwrite packet (packet.length - 1) [0]
  if 4 < packet.length then .ok (cStr (packet.drop 4), packet)
  else .error .undefinedBehaviour

/-- `utils::get_struct`: `none` for the null pointer, otherwise the packet as the
call leaves it. The data size lies behind the 56 bytes that are checked for. -/
def getStruct (packet : Bytes) : Except Abort (Option Bytes) :=
  if packet.length < sizeofGameUpdatePacket - 4 then .ok none
  else if packet.length < 60 then .error .undefinedBehaviour
  else if mPacketFlags packet &&& 8 ≠ 0 then
    if packet.length < (mDataSize packet + 60).toNat then .ok none else .ok (some packet)
  else .ok (some (setDataSize packet 0))

/-- `utils::get_extended`: the bytes from the data size on. -/
def getExtended (packet : Bytes) : Bytes := packet.drop 56

/-! ## Building packets -/

/-- The packet of `server::send(client, type, data, len)`. -/
def rawPacket (type : Int) (data : Bytes) : Bytes :=
  let packet := zeros (data.length + 5)
  let packet := overwrite packet 0 (le32 (UInt32.ofInt type))
  let packet := overwrite packet 4 data
  overwrite packet (4 + data.length) [0]

/-- The packet of `server::send(client, text, type)`. -/
def textPacket (text : Bytes) (type : Int) : Bytes :=
  let packet := zeros (text.length + 5)
  let packet := overwrite packet 0 (le32 (UInt32.ofInt type))
  let packet := overwrite packet 4 text
  overwrite packet (4 + text.length) [0]

/-- The packet of `server::send(client, list, netid, delay)`. -/
def callFunctionPacket (list : VariantList) (netid delay : Int) : Except Abort Bytes := do
  let (data, dataSize) ← serializeToMem list
  let n := dataSize.toNat
  let update := zeros (sizeofGameUpdatePacket + n)
  let update := overwrite update 0 [PACKET_CALL_FUNCTION]
  let update := overwrite update 4 (le32 (UInt32.ofInt netid))
  let update := overwrite update 12 (le32 (wordAt update 12 ||| 8))
  let update := overwrite update 20 (le32 (UInt32.ofInt delay))
  let update := overwrite update 56 data
  let update := overwrite update 52 (le32 dataSize)
  let game := zeros (5 + sizeofGameUpdatePacket + n)
  let game := overwrite game 0 (le32 NET_MESSAGE_GAME_PACKET.toUInt32)
  let game := overwrite game 4 update
  return game.take (n + sizeofGameUpdatePacket)

end SrmotionProxy
