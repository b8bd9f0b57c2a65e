/-
# Chat commands

The commands `events::out::generictext` understands, each under the name the player
types, and the two `else if` chains they form. The chains are separated by the
auto-pull switch, which takes every other chat line while it is on.
-/

import SrmotionProxy.Events.Form

namespace SrmotionProxy.Events

open SrmotionProxy.Lib SrmotionProxy.Proton SrmotionProxy.Handler

/-! ## Commands of the first chain -/

/-- `/name `. -/
def nameCommand (chat : Bytes) : Handler Bool := do
  let argument ← lift (substrFrom chat 6)
  let name := ascii "``" ++ argument ++ ascii "``"
  let va := (VariantList.ofString (ascii "OnNameChanged")).modify 1 (Variant.setString name)
  let world ← getWorld
  sendVariant true va world.localPlayer.netid (-1)
  sendLog (ascii "name set to: " ++ name)
  return true

/-- `/flag `. -/
def flagCommand (chat : Bytes) : Handler Bool := do
  let argument ← lift (substrFrom chat 6)
  let flag := atoi argument
  let va := VariantList.ofString (ascii "OnGuildDataChanged")
  let va := va.modify 1 (Variant.setInt32 1)
  let va := va.modify 2 (Variant.setInt32 2)
  let va := va.modify 3 (Variant.setInt32 (UInt32.ofInt flag))
  let va := va.modify 4 (Variant.setInt32 3)
  let world ← getWorld
  sendVariant true va world.localPlayer.netid (-1)
  sendLog (ascii "flag set to item id: " ++ toDecimal flag)
  return true

/-- `/ghost`. -/
def ghostCommand : Handler Bool := do
  modifyGt fun gt => { gt with ghost := !gt.ghost }
  let gt ← getGt
  if gt.ghost then sendLog (ascii "Ghost is now enabled.")
  else sendLog (ascii "Ghost is now disabled.")
  return true

/-- The dialog of `/casino`. -/
def casinoPage (out : Settings) : Bytes :=
  ({} : Dialog)
    |>.addLabelWithIcon (ascii "Auto Tax System") 758 .big
    |>.addSpacer .small
    |>.addCheckbox (ascii "autotax") (ascii "Enable Auto Tax") out.taxsystem
    |>.addCheckbox (ascii "fastmode") (ascii "Fast Drop Mode") out.fastmmode
    |>.addInputBox (ascii "taxamount") (ascii "Tax Amount: %") (toDecimal out.yuzde) 2
    |>.addQuickExit
    |>.endDialog (ascii "end") (ascii "OK") (ascii "Cancel")
    |>.finishDialog

/-- The dialog of `/account`. -/
def accountPage (out : Settings) : Bytes :=
  texts [
    "add_label_with_icon|big|Account Page|left|2480| \nadd_spacer|small\n",
    "add_textbox|`oAccount Expire Time:",
    " Never|left|\n",
    "add_textbox|`oAccount Type:",
    " "] ++ out.type ++ texts [
    "|left|\n",
    "add_textbox|`oLastest Logged IP:",
    " "] ++ out.ip ++ texts [
    "|left|\n",
    "add_spacer|small|\n",
    "\nadd_button|manageacc|`wManage Account``|noflags|0|0|",
    "\nend_dialog|end|Cancel|Okay|"]

/-- The dialog of `/wrench`. -/
def wrenchPage (out : Settings) : Bytes :=
  ascii "add_label_with_icon|big|Wrench Mode: " ++ out.mode ++ texts [
    "|left|2480| \nadd_spacer|small\n",
    "\nadd_button|kicj|`4Kick``|noflags|0|0|",
    "\nadd_button|bannj|`4Ban``|noflags|0|0|",
    "\nadd_button|iso11pul1|`5Pull``|noflags|0|0|",
    "\nend_dialog|end|Cancel|Okay|"]

/-- A command that shows a dialog made from the settings. -/
def pageCommand (page : Settings → Bytes) : Handler Bool := do
  let out ← getSettings
  showDialog (page out)
  return true

/-- The commands in front of the auto-pull switch. -/
def firstCommands (chat : Bytes) : List (String × Handler Bool) :=
  [("name ", nameCommand chat), ("flag ", flagCommand chat), ("ghost", ghostCommand),
    ("casino", pageCommand casinoPage), ("options", pageCommand optionsPage),
    ("account", pageCommand accountPage), ("wrench", pageCommand wrenchPage)]

/-! ## Auto pull -/

/-- What happens to a chat line while auto pull is on. -/
def autopullChat (packet : Bytes) : Handler Bool := do
  if contains packet (ascii "/options") then
    return true
  else if contains packet (ascii "text|") then
    let str ← lift (restBehind packet (ascii "text|") 5)
    sendServer (ascii "action|input\n|text|/pull " ++ str)
    return true
  else
    return true

/-! ## Commands of the second chain -/

/-- The dialog of `/country`. -/
def countryPage (out : Settings) : Bytes :=
  texts [
    "add_label_with_icon|big|Country|left|3394| \nadd_spacer|small\n",
    "\nadd_text_input|countryzz|CountryID|"] ++ out.country ++ texts [
    "|2|",
    "\nadd_button|countrylist|`wCountry List``|noflags|0|0|",
    "\nadd_quick_exit|",
    "\nend_dialog|end|Cancel|Okay|"]

/-- `/server`. -/
def serverCommand : Handler Bool := do
  let server := (← getState).server
  showDialog (texts [
    "add_label_with_icon|big|Server Settings|left|32|\nadd_spacer|small\n",
    "\nadd_text_input|serverip|Server IP|"] ++ server.mServer ++ texts [
    "|15|",
    "\nadd_text_input|serverport|Server Port|"] ++ toDecimal server.mPort ++ texts [
    "|5|",
    "\nend_dialog|end|Cancel|Okay|"])
  return true

/-- The dialog of `/vault`. -/
def vaultPage (out : Settings) : Bytes :=
  texts [
    "add_label_with_icon|big|Safe Vault Bypass|left|8878| \nadd_spacer|small\n",
    "\nadd_text_input|xvault111|PosX|"] ++ toDecimal out.posx ++ texts [
    "|3|",
    "\nadd_text_input|2vault222|PosY|"] ++ toDecimal out.posy ++ texts [
    "|3|",
    "\nadd_text_input|iditemzz1|ItemID|"] ++ toDecimal out.iditemm ++ texts [
    "|6|",
    "\nadd_spacer|small",
    "\nend_dialog|end|Cancel|Set|"]

/-- `/bypassvault`. -/
def bypassvaultCommand : Handler Bool := do
  let out ← getSettings
  sendServer (
    ascii "action|dialog_return\ndialog_name|storageboxxtreme\ntilex|" ++
    toDecimal out.posx ++ ascii "|\ntiley|" ++ toDecimal out.posy ++ ascii "|\nitemid|" ++
    toDecimal out.iditemm ++ ascii "|\nbuttonClicked|do_add\nitemcount|1")
  return true

/-- `/setuid `. Only the last branch catches what `stoi` throws. -/
def setuidCommand (chat : Bytes) : Handler Bool := do
  let chateyazilan ← lift (substrFrom chat 7)
  let out ← getSettings
  if contains chateyazilan (ascii "owner") then
    let uid ← lift (stoi out.owneruid)
    modifySettings fun out => { out with uidz := uid }
    sendLog (ascii "`9Target UID Successfuly set to owner uid `#" ++ toDecimal uid)
    return true
  else if contains chateyazilan (ascii "current") || contains chateyazilan (ascii "Current") ||
      contains chateyazilan (ascii "CURRENT") then
    let uid ← lift (stoi out.currentuid)
    modifySettings fun out => { out with uidz := uid }
    sendLog (ascii "`9Target UID Successfuly set to current uid `#" ++ toDecimal uid)
    return true
  else
    catchException
      (do
        let uid ← lift (stoi chateyazilan)
        modifySettings fun out => { out with uidz := uid }
        sendLog (ascii "`9Target UID Successfuly set to `#" ++ toDecimal uid))
      (sendLog numbersOnly)
    return true

/-- `/wlt`. -/
def wltCommand : Handler Bool := do
  let out ← getSettings
  if out.wltroll = false then
    modifySettings fun out => { out with wltroll := true }
    sendLog (ascii "`9worldlock`` trolling mode is now `2on")
  else
    sendLog (ascii "`9worldlock`` trolling mode is now `4off")
    modifySettings fun out => { out with wltroll := false }
  return true

/-- `/dicemode`. -/
def dicemodeCommand : Handler Bool := do
  let out ← getSettings
  if out.dicemod = false then
    modifySettings fun out => { out with dicemod := true }
    sendLog (ascii "`9AntiSpeed`` mode is now `2on")
  else
    sendLog (ascii "`9AntiSpeed`` mode is now `4off")
    modifySettings fun out => { out with dicemod := false }
  return true

/-- `/crash`; the branch that sends something does not swallow the chat line. -/
def crashCommand : Handler Bool := do
  let out ← getSettings
  let world ← getWorld
  if 2 < out.type2 then
    if contains world.name (ascii "ACE") then
      sendLog (ascii "`9You cant do in this world sorry :( if you have a problem pm " ++ out.dc)
      return true
    else
      sendLog (ascii "`9Please use VPN For doesn't get `#SHADOW `4BAN!")
      sendServer (ascii "action|input\n|text|`eCrashed by " ++ out.dc)
      return false
  else
    sendLog (ascii "`9You dont have permissions. You need `4Buyer+`` Role.")
    return true

/-- The dialog of `/whitelist`. -/
def whitelistPage : Bytes :=
  ({} : Dialog)
    |>.addLabelWithIcon (ascii "Whitelist") 3394 .big
    |>.addTextBox (ascii "Whitelisted Player List")
    |>.addQuickExit
    |>.endDialog (ascii "end") (ascii "Okay") (ascii "Close")
    |>.finishDialog

/-- One line of the `/logs` page that shows a switch. -/
def switchLine (on : Bool) (label yes no : String) (page : Dialog) : Dialog :=
  page.addTextBox (ascii label ++ ascii (if on then yes else no))

/-- The dialog of `/logs`. -/
def logsPage (gt : Gt) (out : Settings) : Bytes :=
  let page : Dialog := {}
  let page := page.addLabelWithIcon (ascii "Logs Page") 5016 .big
  let page := page.addSpacer .small
  let page := page.addLabelWithIcon (ascii "Hacks") 32 .small
  let page := switchLine gt.ghost "Ghost Mode``: " "`2ON" "`4OFF" page
  let page := switchLine out.dicespeed "Dice Speed``: " "`2ON" "`4OFF" page
  let page := page.addLabelWithIcon (ascii "Door Bypass") 12 .small
  let page := page.addTextBox
    (ascii "The current `2tileX`` position is `2" ++ toDecimal out.setx)
  let page := page.addTextBox
    (ascii "The current `2tileY`` position is `2" ++ toDecimal out.sety)
  let page := page.addTextBox (ascii "The current `2DoorID`` is `2" ++ toDecimal out.id)
  let page := page.addLabelWithIcon (ascii "Safe Vault") 8878 .small
  let page := page.addTextBox
    (ascii "The current `2tileX`` position is `2" ++ toDecimal out.posx)
  let page := page.addTextBox
    (ascii "The current `2tileY`` position is `2" ++ toDecimal out.posy)
  let page := page.addTextBox (ascii "The current `2ItemID`` is `2" ++ toDecimal out.iditemm)
  let page := page.addLabelWithIcon (ascii "Wrench Logs") 32 .small
  let page := switchLine out.wrenchpull "The `5Wrench Opinions`` is " "`2ON" "`4OFF" page
  let page := page.addTextBox
    (ascii "The Current `2Wrench Mode ``is " ++ out.mode ++ ascii "``")
  let page := page.addLabelWithIcon (ascii "Tax Mode Options") 758 .small
  let page := switchLine out.taxsystem "The `2Tax System`` is " "`2ON" "`2OFF" page
  let page := page.addTextBox (ascii "The current tax is `2%" ++ toDecimal out.yuzde)
  let page := page.addLabelWithIcon (ascii "Casino Options") 758 .small
  let page := switchLine out.worldbanjoinmod "The `2Exit world when mod joins " "`2ON" "`4OFF"
    page
  let page := switchLine out.visualspin "The `2Visual Spin`` is " "`2ON" "`4OFF" page
  let page := page.addTextBox
    (ascii "The `2Visual Spin`` Number is " ++
      ascii (if !out.visualspin && out.ruletsayi == 0 then "`2" else "`4") ++
      toDecimal out.ruletsayi)
  let page := page.addLabelWithIcon (ascii "Skip Dialogs") 18 .small
  let page := switchLine out.fasttrash "The `2Fast Trash`` is " "`2ON" "`4OFF" page
  let page := switchLine out.fastdrop "The `2Fast Drop`` is " "`2ON" "`4OFF" page
  let page := switchLine out.autopull "The `2Auto Pull`` is " "`2ON" "`4OFF" page
  let page := page.addLabelWithIcon (ascii "Visuals") 3394 .small
  let page := page.addTextBox (ascii "The current `2Country`` is `4" ++ out.country)
  let page := page.endDialog (ascii "end") (ascii "OK") []
  page.finishDialog

/-- `/logs`. -/
def logsCommand : Handler Bool := do
  let gt ← getGt
  let out ← getSettings
  showDialog (logsPage gt out)
  return true

/-- The commands that store a number if the role allows it. -/
def roleNumberCommand (chat : Bytes) (label : String) (store : Int → Settings → Settings) :
    Handler Bool := do
  let out ← getSettings
  if 2 < out.type2 then
    catchException
      (do
        let argument ← lift (substrFrom chat 6)
        let value ← lift (stoi argument)
        modifySettings (store value)
        sendLog (ascii label ++ toDecimal value ++ ascii "`` successfuly"))
      (sendLog numbersOnly)
    return true
  else
    return true

/-- `/setx `. -/
def setxCommand (chat : Bytes) : Handler Bool :=
  roleNumberCommand chat "Set tileX to `5" fun value out => { out with setx := value }

/-- `/sety `. -/
def setyCommand (chat : Bytes) : Handler Bool :=
  roleNumberCommand chat "Set tileY to `5" fun value out => { out with sety := value }

/-- `/setid `. -/
def setidCommand (chat : Bytes) : Handler Bool :=
  roleNumberCommand chat "Set DoorID to `5" fun value out => { out with id := value }

/-- `/bypassdoor` and `/bypasspath`, which send different texts. -/
def bypassCommand (request : Settings → Bytes) : Handler Bool := do
  let out ← getSettings
  if 2 < out.type2 then
    sendServer (request out)
    sendLog (ascii "Hacking the door of ID of tileX `5" ++ toDecimal out.setx ++
      ascii " ``and tileY `5" ++ toDecimal out.sety)
    sendLog (ascii "Please do /logs to check your `2ID")
    return true
  else
    return true

/-- The text of `/bypassdoor`. -/
def doorRequest (out : Settings) : Bytes :=
  ascii "action|dialog_return\ndialog_name|door_edit\ntilex|" ++ toDecimal out.setx ++
  ascii "|\ntiley|" ++ toDecimal out.sety ++
  ascii "|\ndoor_name|SrMotion\ndoor_target|SrMotion:123\ndoor_id|" ++ toDecimal out.id ++
  ascii "\ncheckbox_locked|1"

/-- The text of `/bypasspath`. -/
def pathRequest (out : Settings) : Bytes :=
  ascii "action|dialog_return\ndialog_name|sign_edit\ntilex|" ++ toDecimal out.setx ++
  ascii "|\ntiley|" ++ toDecimal out.sety ++ ascii "|\nsign_text|" ++ toDecimal out.id

/-- `/visdice`. -/
def visdiceCommand : Handler Bool := do
  let out ← getSettings
  if out.visdice = false then
    modifySettings fun out => { out with visdice := true }
    sendLog (ascii "`9Dice Visual Mode `#Enabled")
  else
    modifySettings fun out => { out with visdice := false }
    sendLog (ascii "`9Dice Visual Mode `4Disabled")
  return true

/-- `/dset `. -/
def dsetCommand (chat : Bytes) : Handler Bool := do
  catchException
    (do
      let argument ← lift (substrFrom chat 5)
      let value ← lift (stoi argument)
      modifySettings fun out => { out with sayi := wrapInt (value - 1) }
      sendLog (ascii "`9Number set to `#" ++ argument))
    (sendLog (ascii "Critical error: use number"))
  return true

/-- A `join_request`. -/
def joinRequest (name : Bytes) : Handler Unit :=
  sendText false (ascii "action|join_request\nname|" ++ name) 3

/-- `/save`. -/
def saveCommand : Handler Bool := do
  let out ← getSettings
  joinRequest out.saveworld
  return true

/-- `/warp `. -/
def warpCommand (chat : Bytes) : Handler Bool := do
  let argument ← lift (substrFrom chat 5)
  joinRequest argument
  sendLog (ascii "`9Warping to `#" ++ argument)
  return true

/-- `/skin `. -/
def skinCommand (chat : Bytes) : Handler Bool := do
  let argument ← lift (substrFrom chat 5)
  let va := (VariantList.ofString (ascii "OnChangeSkin")).modify 1
    (Variant.setInt32 (UInt32.ofInt (atoi argument)))
  let world ← getWorld
  sendVariant true va world.localPlayer.netid (-1)
  return true

/-- `/uid `. -/
def uidCommand (chat : Bytes) : Handler Bool := do
  let name ← lift (substrFrom chat 5)
  sendLog (ascii "resolving uid for " ++ name)
  sendServer (ascii "action|input\n|text|/ignore /" ++ name)
  sendServer (ascii "action|friends")
  modifyGt fun gt => { gt with resolvingUid2 := true }
  return true

/-- The dialog of `/world`. -/
def worldPage : Bytes := texts [
  "\nadd_label_with_icon|big|World Commands|left|32|",
  "\nadd_spacer|small",
  "\nadd_button|killall|`4Kill All``|noflags|0|0|",
  "\nadd_button|banall|`4Ban All``|noflags|0|0|",
  "\nadd_button|pullall|`5Pull All``|noflags|0|0|",
  "\nadd_button|ubaworld|`5Unban World``|noflags|0|0|",
  "\nadd_textbox|`4IMPORTANT: `oDiscord: SrMotion#0069.|left|2480|",
  "\nadd_quick_exit|",
  "\nend_dialog|end|Cancel|Okay|"]

/-- The dialog of `/proxy`. -/
def proxyPage : Bytes := texts [
  "\nadd_label_with_icon|big|Proxy Commands|left|32|",
  "\nadd_spacer|small",
  "\nadd_textbox|`9/proxy `#(shows commands)|left|2480|",
  "\nadd_textbox|`9/world `#(shows commands)|left|2480|",
  "\nadd_textbox|`9/bypassvault `#(bypassing safe vault)|left|2480|",
  "\nadd_textbox|`9/bypassdoor `#(bypassing the doorid /setid (set door id))|left|2480|",
  "\nadd_textbox|`9/bypasspath `#(bypassing the path marker)|left|2480|",
  "\nadd_textbox|`9/tp [name] `#(teleports to a player in the world) |left|2480|",
  "\nadd_textbox|`9/ghost `#(toggles ghost, you wont move for others when its enabled)|left|2480|",
  "\nadd_textbox|`9/uid [name] `#(resolves name to uid)|left|2480|",
  "\nadd_textbox|`9/warp [world] `#(warp's the world)|left|2480|",
  "\nadd_textbox|`9/flag [id] `#(sets flag to item id)|left|2480|",
  "\nadd_textbox|`9/skin [id] `#(sets your skin)|left|2480|",
  "\nadd_textbox|`9/name [name] `#(sets name to name)|left|2480|",
  "\nadd_textbox|`9/options `#(features)|left|2480|",
  "\nadd_textbox|`9/country `#(Changes your country flag)|left|2480|",
  "\nadd_textbox|`9/whitelist `#(Show's Whitelisted Players)|left|2480|",
  "\nadd_textbox|`9/blacklist `#(Show's Blacklisted Players)|left|2480|",
  "\nadd_textbox|`9/server `#(You Can Change Server Informations)|left|2480|",
  "\nadd_textbox|`9/account `#(See your account credentials)|left|2480|",
  "\nadd_textbox|`9/setuid `#(set uid for world lock troll)|left|2480|",
  "\nadd_textbox|`9/wlt `#(open/close worldlock troll)|left|2480|",
  "\nadd_textbox|`9/crash `#(You can Crash World)|left|2480|",
  "\nadd_textbox|`9/vault `#(Safe Vault Bypass with /bypassvault)|left|2480|",
  "\nadd_textbox|`9/visdice `#(Open Visual Dice Mode and /dset [number] to set number)|left|2480|",
  "\nadd_textbox|`9/antidice `#(Open Anti Dice Speed Mode)|left|2480|",
  "\nadd_textbox|`9/token `#(token exploit you need mentorship ticket you can buy with /buym ",
  "and set netid to /setnid)|left|2480|",
  "\nadd_textbox|`9/name [name] `#(Change's your gt name visual)|left|2480|",
  "\nadd_quick_exit|",
  "\nend_dialog|end|Cancel|Okay|"]

/-- The commands behind the auto-pull switch. -/
def secondCommands (chat : Bytes) : List (String × Handler Bool) :=
  [("country", pageCommand countryPage), ("server", serverCommand),
    ("vault", pageCommand vaultPage), ("bypassvault", bypassvaultCommand),
    ("setuid ", setuidCommand chat), ("wlt", wltCommand), ("dicemode", dicemodeCommand),
    ("crash", crashCommand), ("whitelist", pageCommand fun _ => whitelistPage),
    ("tp ", tpCommand chat), ("logs", logsCommand), ("setx ", setxCommand chat),
    ("sety ", setyCommand chat), ("setid ", setidCommand chat),
    ("bypassdoor", bypassCommand doorRequest), ("bypasspath", bypassCommand pathRequest),
    ("visdice", visdiceCommand), ("dset ", dsetCommand chat), ("save", saveCommand),
    ("warp ", warpCommand chat), ("skin ", skinCommand chat), ("uid ", uidCommand chat),
    ("dropentire", pure true), ("world", pageCommand fun _ => worldPage),
    ("proxy", pageCommand fun _ => proxyPage)]

/-! ## A chat line -/

/-- The two chains around the auto-pull switch. -/
def chatLine (packet chat : Bytes) : Handler Bool :=
  commandChain chat
    (do
      let out ← getSettings
      if out.autopull then autopullChat packet
      else commandChain chat (return false) (secondCommands chat))
    (firstCommands chat)

/-- The `action|input` part of `generictext`. -/
def inputText (packet : Bytes) (var : Rtvar) : Handler Bool := do
  if var.size < 2 then
    return false
  else
    let line ← lift (var.getIndex 1)
    let world ← getWorld
    if line.mValues.length < 2 then return false
    else if world.connected = false then return false
    else
      let chat ← lift (line.valueAt 1)
      chatLine packet chat

end SrmotionProxy.Events
