/-
# Packets from the game client

The handlers of `events::out`. A handler that returns `true` keeps the packet from
being forwarded; the ones that edit the packet return its bytes.
-/

import SrmotionProxy.Events.Commands
import SrmotionProxy.Lib.Binary32

namespace SrmotionProxy.Events.Out

open SrmotionProxy.Lib SrmotionProxy.Proton SrmotionProxy.Handler

/-! ## Game packets -/

/-- `events::out::variantlist`: the list it decodes for printing. `get_extended` points
at the data size, so the four size bytes are read as the start of the list. -/
def variantlist (packet : Bytes) : Except Abort VariantList := do
  let parsed ← serializeFromMem (getExtended packet) .fresh
  return parsed.list

/-- `events::out::pingreply`: the packet with gravity, speed, range, jump and flags set. -/
def pingreply (packet : Bytes) : Bytes :=
  let packet := Packet.setVec2X packet 0x447A0000
  let packet := Packet.setVec2Y packet 0x437A0000
  let packet := Packet.setVecX packet 0x42800000
  let packet := Packet.setVecY packet 0x42800000
  let packet := Packet.setJumpAmount packet 0
  Packet.setPlayerFlags packet 0

/-- The name shown while the tile position is on display. -/
def positionName (bruh : Player) : Bytes :=
  bruh.name ++ ascii " `4[" ++ toDecimal (Binary32.truncScaled bruh.pos.1 5) ++ ascii "," ++
    toDecimal (Binary32.truncScaled bruh.pos.2 5) ++ ascii "]" ++ ascii " `4[" ++
    toDecimal bruh.netid ++ ascii "]``" ++ ascii " `#[" ++ toDecimal bruh.userid ++
    ascii "]``"

/-- `events::out::state`. -/
def state (packet : Bytes) : Handler Bool := do
  let world ← getWorld
  if world.connected = false then
    return false
  else
    let out ← getSettings
    if out.autohosts then
      let bruh := world.localPlayer
      let va := (VariantList.ofString (ascii "OnNameChanged")).modify 1
        (Variant.setString (positionName bruh))
      sendVariant true va bruh.netid (-1)
    modifyWorld fun world =>
      { world with
        localPlayer := { world.localPlayer with
          pos := (Packet.mVecX packet, Packet.mVecY packet) } }
    let gt ← getGt
    return gt.ghost

/-! ## Generic texts -/

/-- The reply to a wrench dialog in the current mode. -/
def wrenchReply (mode : Bytes) (choice : String) (button : String) (netid : Bytes) :
    Handler Unit := do
  if mode = ascii choice then
    sendServer (ascii "action|dialog_return\ndialog_name|popup\nnetID|" ++ netid ++
      ascii "|\nnetID|" ++ netid ++ ascii "|\nbuttonClicked|" ++ ascii button)
  else
    return ()

/-- The wrench section: the packet is passed on, answered and swallowed. -/
def wrenchText (packet : Bytes) : Handler Bool := do
  sendServer packet
  let str ← lift (restBehind packet (ascii "netid|") 6)
  let gta5 ← lift (substr str 0 (findPos str (ascii "|")))
  let out ← getSettings
  wrenchReply out.mode "`5Pull" "pull" gta5
  wrenchReply out.mode "`4Kick" "kick" gta5
  wrenchReply out.mode "`4Ban" "worldban" gta5
  let varlist := (VariantList.ofString (ascii "OnTextOverlay")).modify 1
    (Variant.setString (ascii "Successfuly " ++ out.mode ++ ascii "`` netID: " ++ gta5))
  sendVariant true varlist (-1) 0
  return true

/-- A random `int` as text. -/
def randomInt : Handler Bytes := do
  let value ← random intMin intMax
  return toDecimal value

/-- The login section: the identity fields are replaced and the text is sent anew. -/
def loginText (packet : Bytes) : Handler Bool := do
  let var := Rtvar.parse packet
  let mac ← generateMac
  let hashStr := mac ++ ascii "RT"
  let hash2 := hash hashStr hashStr.length
  let var := var.set (ascii "mac") mac
  let var := var.set (ascii "wk") (← generateRid)
  let var := var.set (ascii "rid") (← generateRid)
  let var := var.set (ascii "fz") (← randomInt)
  let var := var.set (ascii "zf") (← randomInt)
  let var := var.set (ascii "hash") (← randomInt)
  let var := var.set (ascii "hash2") (toDecimal hash2.toNat)
  let gt ← getGt
  let var := var.set (ascii "country") gt.flag
  let var := var.set (ascii "player_age") (ascii "20")
  match var.find (ascii "tankIDName") with
  | none => pure ()
  | some pair =>
      let name ← lift (pair.valueAt 0)
      modifySettings fun out => { out with name := name }
  let env := (← getState).env
  modifyGt fun gt => { gt with inGame := false }
  sendServer (var.serialize env.eraseDropsLast)
  return true

/-- `events::out::generictext`. -/
def generictext (packet : Bytes) : Handler Bool := do
  let var := Rtvar.parse packet
  if var.valid = false then
    return false
  else
    runSections packet formSections
    let out ← getSettings
    if out.wrenchpull && contains packet (ascii "action|wrench") then
      wrenchText packet
    else
      let head ← lift (var.getIndex 0)
      if head.mKey = ascii "action" ∧ head.mValue = ascii "input" then
        inputText packet var
      else if contains packet (ascii "game_version|") then
        if out.loggedin = 1 then loginText packet else return false
      else
        return false

/-- `events::out::gamemessage`. -/
def gamemessage (packet : Bytes) : Handler Bool := do
  if packet = ascii "action|quit" then
    quit
    return true
  else
    return false

end SrmotionProxy.Events.Out
