/-
# Messages from the server

Console messages and talk bubbles, which may announce a wheel spin that the player
wants to see differently, and the plain texts: game messages and tracking packets.
-/

import SrmotionProxy.Events.Commands

namespace SrmotionProxy.Events.In

open SrmotionProxy.Lib SrmotionProxy.Proton SrmotionProxy.Handler

/-! ## Wheel spins -/

/-- The start of the announcement that the player has spun the wheel. -/
def spunTheWheel (color : String) (name : Bytes) : Bytes :=
  ascii "`7[```" ++ ascii color ++ name ++ ascii "`` spun the wheel and got"

/-- The announcement with the number the player has chosen. -/
def spinResult (color : String) (out : Settings) : Bytes :=
  spunTheWheel color out.name ++
    (if toDecimal out.ruletsayi = ascii "0" then ascii " `2" else ascii " `4") ++
    toDecimal out.ruletsayi ++ ascii "``!`7]``"

/-- Show the list with another announcement in `slot`. -/
def showSpin (varlist : VariantList) (slot : Fin 7) (color : String) : Handler Bool := do
  let out ← getSettings
  sendVariant true (varlist.modify slot (Variant.setString (spinResult color out))) (-1) 1900
  return true

/-- Show a console message behind the prefix of the proxy. -/
def showPrefixed (varlist : VariantList) : Handler Bool := do
  let out ← getSettings
  sendVariant true
    (varlist.modify 1 (Variant.setString (out.packets ++ (varlist 1).getString))) (-1) 0
  return true

/-- The `OnConsoleMessage` case. -/
def onConsoleMessage (varlist : VariantList) : Handler Bool := do
  let wry := (varlist 1).getString
  let out ← getSettings
  if out.worldbanjoinmod && contains wry (ascii "Removed your access from all locks.") then
    sendLog (ascii ("`$Leaving the world due to having Mod bypass on and due to having a " ++
      "`#mod `$in the world!"))
    joinRequest (ascii "exit")
  if out.visualspin then
    if contains wry (spunTheWheel "w" out.name) then showSpin varlist 1 "w"
    else if contains wry (spunTheWheel "2" out.name) then showSpin varlist 1 "2"
    else showPrefixed varlist
  else
    showPrefixed varlist

/-- The `OnTalkBubble` case. -/
def onTalkBubble (varlist : VariantList) : Handler Bool := do
  let wry := (varlist 2).getString
  let out ← getSettings
  if out.visualspin then
    if contains wry (spunTheWheel "w" out.name) then showSpin varlist 2 "w"
    else if contains wry (spunTheWheel "2" out.name) then showSpin varlist 2 "2"
    else return false
  else
    sendVariant true varlist (-1) 0
    return true

/-! ## Plain texts -/

/-- `events::in::gamemessage`. -/
def gamemessage (packet : Bytes) : Handler Bool := do
  let gt ← getGt
  if gt.resolvingUid2 then
    if contains packet (ascii "PERSON IGNORED") then
      sendServer (ascii
        "action|dialog_return\ndialog_name|friends_guilds\nbuttonClicked|showfriend")
      sendServer (ascii
        "action|dialog_return\ndialog_name|friends\nbuttonClicked|friend_all")
    else if contains packet (ascii "Nobody is currently online with the name") then
      modifyGt fun gt => { gt with resolvingUid2 := false }
      sendLog (ascii "Target is offline, cant find uid.")
    else if contains packet (ascii "Clever perhaps") then
      modifyGt fun gt => { gt with resolvingUid2 := false }
      sendLog (ascii "Target is a moderator, can't ignore them.")
  return false

/-- `events::in::generictext`. -/
def generictext (_packet : Bytes) : Handler Bool := return false

/-- The tracking event of a login. -/
def authenticationEvent (packet : Bytes) : Handler Unit := do
  if contains packet (ascii "eventName|102_PLAYER.AUTHENTICATION") then
    let wlbalance ← lift (restBehind packet (ascii "Worldlock_balance|") 18)
    if contains wlbalance (ascii "PLAYER.") then
      sendLog (ascii "`9World Lock Balance: `#0")
    else
      sendLog (ascii "`9World Lock Balance: `#" ++ wlbalance)
    if contains packet (ascii "Authenticated|1") then
      sendLog (ascii "`9Player Authentication `2Successfuly.")
    else
      sendLog (ascii "`9Player Authentication `4Failed.")

/-- The tracking event of a game start. -/
def startEvent (packet : Bytes) : Handler Unit := do
  if contains packet (ascii "eventName|100_MOBILE.START") then
    let gem ← lift (restBehind packet (ascii "Gems_balance|") 13)
    let level ← lift (restBehind packet (ascii "Level|") 6)
    let uidd ← lift (restBehind packet (ascii "GrowId|") 7)
    sendLog (ascii "`9Gems Balance: `#" ++ gem)
    sendLog (ascii "`9Account Level: `#" ++ level)
    sendLog (ascii "`9Your Current UID: `#" ++ uidd)
    modifySettings fun out => { out with currentuid := uidd }

/-- The tracking event of a world visit. -/
def visitEvent (packet : Bytes) : Handler Unit := do
  if contains packet (ascii "eventName|300_WORLD_VISIT") then
    if contains packet (ascii "Locked|0") then
      sendLog (ascii "`4This world is not locked by a world lock.")
    else
      sendLog (ascii "`2This world is locked by a world lock.")
      if contains packet (ascii "World_owner|") then
        let uidd ← lift (restBehind packet (ascii "World_owner|") 12)
        sendLog (ascii "`9World Owner UID: `#" ++ uidd)
        modifySettings fun out => { out with owneruid := uidd }

/-- `events::in::tracking`. -/
def tracking (packet : Bytes) : Handler Bool := do
  authenticationEvent packet
  startEvent packet
  visitEvent packet
  return true

end SrmotionProxy.Events.In
