/-
# The roster of the world

The handlers that keep `m_world`: entering and leaving worlds, players that appear,
move and disappear. `OnRemove` erases with a reference into the vector; `OnSpawn`
follows the pointers that `rtvar::find` returns, null or not.
-/

import SrmotionProxy.Events.Common
import SrmotionProxy.Lib.Binary32

namespace SrmotionProxy.Events.In

open SrmotionProxy.Lib SrmotionProxy.Proton SrmotionProxy.Handler

/-! ## Worlds -/

/-- The `OnRequestWorldSelectMenu` case. -/
def onRequestWorldSelectMenu : Handler Bool := do
  modifyWorld fun world =>
    { world with players := [], localPlayer := {}, connected := false, name := ascii "EXIT" }
  return false

/-- The world name in map data: a signed 16-bit length at offset 6 of the payload and
the bytes behind it. A length below -1 makes `new` throw; at -1 the copy runs wild. -/
def mapName (packet : Bytes) : Except Abort Bytes := do
  let data := ((getExtended packet).drop 4).drop 6
  let (low, data) ← readByte data
  let (high, data) ← readByte data
  let word := low.toNat + 256 * high.toNat
  let nameLength : Int := if word < 32768 then word else (word : Int) - 65536
  if nameLength < -1 then throw .runtimeError
  else if nameLength = -1 then throw .undefinedBehaviour
  else
    let (name, _) ← readBytes nameLength.toNat data
    return cStr name

/-- `events::in::sendmapdata`. The world is cleared before the name is read. -/
def sendmapdata (packet : Bytes) : Handler Bool := do
  modifyWorld fun _ => {}
  let name ← lift (mapName packet)
  modifyWorld fun world => { world with name := name, connected := true }
  return false

/-! ## Movement -/

/-- The loop of `events::in::state`: the first player with the netid moves. -/
def movePlayer (netid : Int) (pos : UInt32 × UInt32) : List Player → List Player
  | [] => []
  | player :: players =>
      if player.netid = netid then { player with pos := pos } :: players
      else player :: movePlayer netid pos players

/-- `events::in::state`. -/
def state (packet : Bytes) : Handler Bool := do
  let world ← getWorld
  if world.connected = false then return false
  else if Packet.mPlayerFlags packet = -1 then return false
  else
    modifyWorld fun world =>
      { world with
        players := movePlayer (Packet.mPlayerFlags packet)
          (Packet.mVecX packet, Packet.mVecY packet) world.players }
    return false

/-! ## Leaving players -/

/-- The loop of `OnRemove`: the first player with the netid, and whoever compares equal
to the cell it sits in, is erased. -/
def erasePlayer (netid : Int) (players : List Player) : Except Abort (List Player) :=
  match players.find? fun player => player.netid = netid with
  | none => .ok players
  | some player =>
      eraseSame (fun left right => .ok (left.same right)) players
        (players.findIdx fun player => player.netid = netid) player

/-- The `OnRemove` case. -/
def onRemove (varlist : VariantList) : Handler Bool := do
  let text := (varlist 1).getString
  if Seq.find (ascii "netID|") text = some 0 then
    let rest ← lift (substrFrom text 6)
    let netid := atoi rest
    let world ← getWorld
    if netid = world.localPlayer.netid then
      modifyWorld fun world => { world with localPlayer := {} }
    let players ← lift (erasePlayer netid world.players)
    modifyWorld fun world => { world with players := players }
  return false

/-! ## Appearing players -/

/-- `pair->m_value` through a pointer that may be null. -/
def deref (pair : Option Pair) : Except Abort Pair :=
  match pair with
  | some pair => .ok pair
  | none => .error .undefinedBehaviour

/-- The position in a spawn text, if it has two values. -/
def spawnPos (var : Rtvar) : UInt32 × UInt32 :=
  match var.find (ascii "posXY") with
  | some pair =>
      match pair.mValues with
      | x :: y :: _ => (Binary32.ofInt (atoi x), Binary32.ofInt (atoi y))
      | _ => (0, 0)
  | none => (0, 0)

/-- The record of an ordinary player, before the fields that all players share. -/
def visiblePlayer (var : Rtvar) (name : Pair) : Player :=
  { name := name.mValue, country := var.get (ascii "country"), pos := spawnPos var }

/-- What `autohosts` appends to the name in the text. -/
def idSuffix (netid userid : Pair) : Bytes :=
  ascii " `4[" ++ netid.mValue ++ ascii "]``" ++ ascii " `#[" ++ userid.mValue ++ ascii "]``"

/-- `var.find(key)->m_values[0] = update(...)`. -/
def updateFirst (var : Rtvar) (key : Bytes) (update : Bytes → Bytes) : Except Abort Rtvar := do
  let pair ← deref (var.find key)
  let changed ← pair.setFirst update
  return { mPairs := Rtvar.modifyFirst key (fun _ => changed) var.mPairs }

/-- The record an `OnSpawn` text describes, and the text variables as edited on the
way. -/
def spawnPlayer (autohosts : Bool) (var : Rtvar) (name netid : Pair) (userid : Option Pair) :
    Except Abort (Player × Rtvar) := do
  let invis ← deref (var.find (ascii "invis"))
  let (ply, var) ←
    if invis.mValue ≠ ascii "1" then do
      let ply := visiblePlayer var name
      if autohosts then do
        let userid ← deref userid
        let var ← updateFirst var (ascii "name") (· ++ idSuffix netid userid)
        pure (ply, var)
      else pure (ply, var)
    else pure ({ mod := true, invis := true }, var)
  let moderator := var.get (ascii "mstate") = ascii "1" ∨ var.get (ascii "smstate") = ascii "1"
  let ply := if moderator then { ply with mod := true } else ply
  let userid ← var.getInt (ascii "userID")
  let netid ← var.getInt (ascii "netID")
  return ({ ply with userid := userid, netid := netid }, var)

/-- The unlock list that names with `` `^ `` are entered in. -/
def noteUnaccess (name : Pair) (userid : Option Pair) : Handler Unit := do
  if contains name.mValue (ascii "`^") then
    let userid ← lift (deref userid)
    let line := ascii "\ncheckbox_" ++ userid.mValue ++ ascii "|0"
    let out ← getSettings
    if contains out.unaccesspaketi line then return ()
    else modifySettings fun out => { out with unaccesspaketi := out.unaccesspaketi ++ line }

/-- The `OnSpawn` case. -/
def onSpawn (varlist : VariantList) : Handler Bool := do
  let meme := (varlist 1).getString
  let var := Rtvar.parse meme
  let userid := var.find (ascii "userID")
  let name ← lift (deref (var.find (ascii "name")))
  noteUnaccess name userid
  match var.find (ascii "netID"), var.find (ascii "onlineID") with
  | some netid, some _ =>
      let out ← getSettings
      let (ply, var) ← lift (spawnPlayer out.autohosts var name netid userid)
      if ply.invis then
        sendLog (ascii "Moderator entered the world. 1/2")
      let isLocal := contains meme (ascii "type|local")
      let var ← lift (if isLocal then updateFirst var (ascii "mstate") (fun _ => ascii "1")
        else .ok var)
      if isLocal then
        modifyWorld fun world => { world with localPlayer := ply }
      modifyWorld fun world => { world with players := world.players ++ [ply] }
      let env := (← getState).env
      let str := replace (var.serialize env.eraseDropsLast) (ascii "onlineID")
        (ascii "onlineID|")
      sendVariant true (varlist.modify 1 (Variant.setString str)) (-1) (-1)
      return true
  | _, _ => return false

end SrmotionProxy.Events.In
