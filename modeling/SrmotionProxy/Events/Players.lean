/-
# Handlers that walk over the roster

`events::out::worldoptions`, which pulls, kicks or bans everybody, and the loop of
the `/tp` command. Both strip the two colour bytes from every name they meet.
-/

import SrmotionProxy.Events.Common

namespace SrmotionProxy.Events

open SrmotionProxy.Lib SrmotionProxy.Proton SrmotionProxy.Handler

/-! ## World options -/

/-- `name.substr(2).substr(0, length - 4)`. -/
def coreName (name : Bytes) (length : Nat) : Except Abort Bytes := do
  let stripped ← substrFrom name 2
  substr stripped 0 (subSize length 4)

/-- One of the three `if (option == ...)` blocks. -/
def orderPlayer (option : Bytes) (verb : String) (player bruh : Player) : Handler Unit := do
  if option = ascii verb then
    let plyr ← lift (coreName player.name player.name.length)
    let own ← lift (coreName bruh.name player.name.length)
    if plyr ≠ own then
      sendServer (ascii "action|input\n|text|/" ++ ascii verb ++ ascii " " ++ plyr)
    else
      return ()
  else
    return ()

/-- The body of the loop of `worldoptions`. -/
def worldoptionsPlayer (option : Bytes) (bruh player : Player) : Handler Unit := do
  let name2 ← lift (substrFrom player.name 2)
  if Seq.find (ascii "all") (lower name2) ≠ some 0 then
    orderPlayer option "pull" player bruh
    orderPlayer option "kick" player bruh
    orderPlayer option "ban" player bruh
  else
    return ()

/-- The loop of `worldoptions`. -/
def worldoptionsLoop (option : Bytes) (bruh : Player) : List Player → Handler Unit
  | [] => return ()
  | player :: players => do
      worldoptionsPlayer option bruh player
      worldoptionsLoop option bruh players

/-- `events::out::worldoptions`. -/
def worldoptions (option : Bytes) : Handler Bool := do
  let world ← getWorld
  worldoptionsLoop option world.localPlayer world.players
  return true

/-! ## Teleporting -/

/-- What `/tp` does with the player it has found. -/
def teleportTo (player : Player) : Handler Unit := do
  sendLog (ascii "Teleporting to " ++ player.name)
  let varlist := (VariantList.ofString (ascii "OnSetPos")).modify 1
    (Variant.setVector2 player.pos.1 player.pos.2)
  modifyWorld fun world =>
    { world with localPlayer := { world.localPlayer with pos := player.pos } }
  let world ← getWorld
  sendVariant true varlist world.localPlayer.netid (-1)

/-- The loop of `/tp`, which stops at the first name with the given start. -/
def tpLoop (name : Bytes) : List Player → Handler Unit
  | [] => return ()
  | player :: players => do
      let name2 ← lift (substrFrom player.name 2)
      if Seq.find name (lower name2) = some 0 then teleportTo player
      else tpLoop name players

/-- `/tp`. -/
def tpCommand (chat : Bytes) : Handler Bool := do
  let name ← lift (substrFrom chat 4)
  let world ← getWorld
  tpLoop (lower name) world.players
  return true

end SrmotionProxy.Events
