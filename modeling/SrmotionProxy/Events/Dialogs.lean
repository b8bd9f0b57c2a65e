/-
# Dialogs and captchas from the server

`gt::solve_captcha`, the `onShowCaptcha` case and the `OnDialogRequest` case of
`events::in::variantlist`. A dialog request runs through a series of sections; each
either decides what happens to the packet or leaves it to the next one.
-/

import SrmotionProxy.Events.Common

namespace SrmotionProxy.Events.In

open SrmotionProxy.Lib SrmotionProxy.Proton SrmotionProxy.Handler

/-! ## Captchas -/

/-- `gt::solve_captcha`. -/
def solveCaptcha (text : Bytes) : Handler Unit := do
  let text := replace text (texts [
    "set_default_color|`o\nadd_label_with_icon|big|`wAre you Human?``|left|206|\n",
    "add_spacer|small|\nadd_textbox|What will be the sum of the following ",
    "numbers|left|\nadd_textbox|"]) []
  let text := replace text (texts [
    "|left|\nadd_text_input|captcha_answer|Answer:||32|\n",
    "end_dialog|captcha_submit||Submit|"]) []
  let number1 ← lift (substr text 0 (findPos text (ascii " +")))
  let number2 ← lift (substr text (number1.length + 3) text.length)
  let result := wrapInt (atoi number1 + atoi number2)
  sendLog (ascii "Solved captcha as `2" ++ toDecimal result ++ ascii "``")
  sendServer (ascii
    "action|dialog_return\ndialog_name|captcha_submit\ncaptcha_answer|" ++ toDecimal result)

/-- `g[index]` on the pieces of a text. -/
def pieceAt (pieces : List Bytes) (index : Nat) : Except Abort Bytes :=
  match pieces[index]? with
  | some piece => .ok piece
  | none => .error .undefinedBehaviour

/-- The `onShowCaptcha` case. -/
def onShowCaptcha (varlist : VariantList) : Handler Bool := do
  let menu := (varlist 1).getString
  if contains menu (ascii "`wAre you Human?``") then
    solveCaptcha menu
    return true
  else
    let g ← lift (split menu (ascii "|"))
    let captchaid ← lift (pieceAt g 1)
    let captchaid := replace captchaid (ascii "0098/captcha/generated/") []
    let captchaid := replace captchaid (ascii "PuzzleWithMissingPiece.rttex") []
    let captchaid ← lift (substr captchaid 0 (subSize captchaid.length 1))
    let tick ← nextTick
    let env := (← getState).env
    let output ← lift (env.response tick
      (ascii "http://api.surferstealer.com/captcha/index?CaptchaID=" ++ captchaid))
    if contains output (ascii "Answer|Failed") then
      return false
    else if contains output (ascii "Answer|") then
      let output := replace output (ascii "Answer|") []
      sendLog (ascii "Solved Captcha As " ++ output)
      let piece ← lift (pieceAt g 4)
      sendServer (ascii
        "action|dialog_return\ndialog_name|puzzle_captcha_submit\ncaptcha_answer|" ++
        output ++ ascii "|CaptchaID|" ++ piece)
      return true
    else
      return false

/-! ## Sections of a dialog request -/

/-- A section: `none` leaves the packet to the next section. -/
abbrev Section := Handler (Option Bool)

/-- The first decision. -/
def firstDecision : List Section → Handler Bool
  | [] => return false
  | first :: rest => do
      match ← first with
      | some verdict => return verdict
      | none => firstDecision rest

/-- The answer to the list of ignored players while a name is being resolved. -/
def resolveUid (content : Bytes) : Handler Unit := do
  let ignoreSubstring ← lift (substr content 0 (rfindPos content (ascii "|`4Stop ignoring")))
  let uid ← lift (substrFrom ignoreSubstring
    (addSize (rfindPos ignoreSubstring (ascii "add_button|")) 11))
  if atoi uid = 0 then
    modifyGt fun gt => { gt with resolvingUid2 := false }
    sendLog (ascii "name resolving seems to have failed.")
  else
    sendLog (ascii "`9Target UID: `#" ++ uid)
    sendLog (ascii "`9worldlock troll UID set to: `#" ++ uid)
    let value ← lift (stoi uid)
    modifySettings fun out => { out with uidz := value }
    sendServer (ascii "action|dialog_return\ndialog_name|friends\nbuttonClicked|" ++ uid)
    sendServer (ascii "action|dialog_return\ndialog_name|friends_remove\nfriendID|" ++ uid ++
      ascii "|\nbuttonClicked|remove")

/-- The chain about ignoring players and about lost access. -/
def resolvingSection (content : Bytes) : Section := do
  let gt ← getGt
  let out ← getSettings
  if gt.resolvingUid2 && (contains content (ascii "friend_all|Show offline") ||
      contains content (ascii "Social Portal")) ||
      contains content (ascii "Are you sure you wish to stop ignoring") then
    return some true
  else if contains content
      (ascii "add_label_with_icon|small|Remove Your Access From World|left|242|") then
    if out.worldbanjoinmod then
      sendServer (ascii "action|dialog_return\ndialog_name|unaccess")
      return some true
    else
      return none
  else if gt.resolvingUid2 &&
      contains content (ascii "Ok, you will now be able to see chat") then
    modifyGt fun gt => { gt with resolvingUid2 := false }
    return some true
  else if gt.resolvingUid2 && contains content (ascii "`4Stop ignoring") then
    resolveUid content
    return some true
  else
    return none

/-- `std::stoi(content.substr(content.find(mark) + 17, ...))`. -/
def tileAt (content : Bytes) (mark : String) : Except Abort Int := do
  let text ← restBehind content (ascii mark) 17
  stoi text

/-- World lock trolling. -/
def wltrollSection (content : Bytes) : Section := do
  let out ← getSettings
  if out.wltroll &&
      contains content (ascii "add_label_with_icon|big|`wEdit World Lock``|left|242|") then
    let x ← lift (tileAt content "embed_data|tilex|")
    let y ← lift (tileAt content "embed_data|tiley|")
    sendServer (ascii "action|dialog_return\ndialog_name|lock_edit\ntilex|" ++ toDecimal x ++
      ascii "|\ntiley|" ++ toDecimal y ++ ascii "|\ncheckbox_" ++ toDecimal out.uidz ++ texts [
      "|0\ncheckbox_public|0\ncheckbox_disable_music|0\ntempo|100\n",
      "checkbox_disable_music_render|0\ncheckbox_set_as_home_world|0\nminimum_entry_level|1"])
    return some true
  else
    return none

/-- Remembering where the world lock is. -/
def worldLockSection (content : Bytes) : Section := do
  if contains content (ascii "add_label_with_icon|big|`wEdit World Lock``|left|") then
    sendLog (ascii "find world lock x,y path.")
    let x ← lift (tileAt content "embed_data|tilex|")
    modifySettings fun out => { out with wlx := x }
    let y ← lift (tileAt content "embed_data|tiley|")
    modifySettings fun out => { out with wly := y }
    return none
  else
    return none

/-- One of the two answers to the dialog of a dice block. -/
def diceReply (x y : Int) (label value : String) : Section := do
  sendLog (ascii "`4 (X:" ++ toDecimal x ++ ascii " Y:" ++ toDecimal y ++ ascii label)
  sendServer (ascii "action|dialog_return\ndialog_name|boombox_edit\ntilex|" ++ toDecimal x ++
    ascii "|\ntiley|" ++ toDecimal y ++ ascii "|\ncheckbox_public|" ++ ascii value ++
    ascii "\ncheckbox_silence|1")
  return some true

/-- Dice blocks. -/
def dicemodSection (content : Bytes) : Section := do
  let out ← getSettings
  if out.dicemod &&
      contains content (ascii "add_label_with_icon|big|`wEdit Dice Block``|left|456|") then
    let x ← lift (tileAt content "embed_data|tilex|")
    let y ← lift (tileAt content "embed_data|tiley|")
    if contains content (ascii "add_checkbox|checkbox_public|Usable by public|0") then
      diceReply x y ")`9 Dice is `2Public" "1"
    else
      diceReply x y ")`9 Dice is `4Not Public" "0"
  else
    return none

/-- The sum captcha. -/
def captchaSection (content : Bytes) : Section := do
  if contains content (ascii "set_default_color|`o") &&
      contains content (ascii "add_label_with_icon|big|`wAre you Human?``|left|206|") then
    solveCaptcha content
    return some true
  else
    return none

/-- The dialog that replaces the gazette. -/
def gazette : Bytes := texts [
  "add_label_with_icon|big|`5The Proxy Gazette``|left|5016|",
  "\nadd_spacer|small|\n\nadd_url_button||`1Join Discord Server``|NOFLAGS|",
  "https://discord.gg/KD4a37S2an|Open link?|0|0|",
  "\nadd_textbox|`wDecember 26th: `5Don't Forget Join Discord Server ",
  "https://discord.gg/KD4a37S2an |left|",
  "\nadd_spacer|small|",
  "\nadd_textbox|`wDecember 26th: `5Proxy made by SrMotion#0001 |left|",
  "\nadd_spacer|small|",
  "\nadd_textbox|All Commands: |left|",
  "\nadd_spacer|small|",
  "\nadd_textbox|`9/proxy `#(shows commands)|left|2480|",
  "\nadd_textbox|`9/world `#(shows commands)|left|2480|",
  "\nadd_textbox|`9/bypassvault `#(bypassing safe vault)|left|2480|",
  "\nadd_textbox|`9/bypassdoor `#(bypassing the doorid /setid (set door id))|left|2480|",
  "\nadd_textbox|`9/bypasspath `#(bypassing the path marker)|left|2480|",
  "\nadd_textbox|`9/tp [name] `#(teleports to a player in the world) |left|2480|",
  "\nadd_textbox|`9/ghost `#(toggles ghost, you wont move for others when its enabled)|left|2480|",
  "\nadd_textbox|`9/uid [name] `#(resolves name to uid)|left|2480|",
  "\nadd_textbox|`9/flag [id] `#(sets flag to item id)|left|2480|",
  "\nadd_textbox|`9/warp [world] `#(warp's the world)|left|2480|",
  "\nadd_textbox|`9/skin [id] `#(sets your skin)|left|2480|",
  "\nadd_textbox|`9/name [name] `#(sets name to name)|left|2480|",
  "\nadd_textbox|`9/options `#(features)|left|2480|",
  "\nadd_textbox|`9/country `#(Changes your country flag)|left|2480|",
  "\nadd_textbox|`9/whitelist `#(Show's Whitelisted Players)|left|2480|",
  "\nadd_textbox|`9/blacklist `#(Show's Blacklisted Players)|left|2480|",
  "\nadd_textbox|`9/server `#(You Can Change Server Informations)|left|2480|",
  "\nadd_textbox|`9/account `#(See your account credentials)|left|2480|",
  "\nadd_textbox|`9/setuid `#(set uid for world lock troll)|left|2480|",
  "\nadd_textbox|`9/wlt `#(open/close worldlock troll)|left|2480|",
  "\nadd_textbox|`9/crash `#(You can Crash World)|left|2480|",
  "\nadd_textbox|`9/vault `#(Safe Vault Bypass)|left|2480|",
  "\nadd_textbox|`9/token `#(token exploit you need mentorship ticket you can buy with /buym ",
  "and set netid to /setnid)|left|2480|",
  "\nadd_textbox|`9/name [name] `#(Change's your gt name visual)|left|2480|",
  "\nadd_spacer|small|",
  "\nadd_layout_spacer|3imageslayout|\nadd_layout_spacer|3imageslayout|\nadd_spacer|small|",
  "\nadd_textbox|Don't forget to join our `2Official Proxy Discord Server`` on ",
  "`2https://discord.gg/KD4a37S2an `` or click the link below!|left|",
  "\nadd_textbox|Visit our Social Media pages for more Content!|left|",
  "\nadd_spacer|small|",
  "\nadd_layout_spacer|2imageslayout|",
  "\nadd_image_button|iotm_layout_4|",
  "interface/large/gazette/gazette_5columns_social_btn04.rttex|5imageslayout|",
  "https://www.youtube.com/channel/UCLZOpt3XfT1Pp9U4JUC6SzQ",
  "UCLZOpt3XfT1Pp9U4JUC6SzQ|Would you like to open this in Youtube?|",
  "\nadd_image_button|iotm_layout_4|",
  "interface/large/gazette/gazette_5columns_social_btn06.rttex|5imageslayout|",
  "https://discord.gg/KD4a37S2an|Would you like to join our ",
  "discord?|",
  "\nadd_layout_spacer|2imageslayout|",
  "\nadd_textbox||\nadd_spacer|small|",
  "\nadd_textbox||\nadd_spacer|small|",
  "\nadd_textbox||\nadd_spacer|small|",
  "\nadd_quick_exit|",
  "\nset_survey_enabled|1",
  "\nend_dialog|gazette||OK|"]

/-- The gazette. -/
def gazetteSection (varlist : VariantList) (content : Bytes) : Section := do
  if contains content
      (ascii "add_label_with_icon|big|`wThe Growtopia Gazette``|left|5016|") then
    sendVariant true (varlist.modify 1 (Variant.setString gazette)) (-1) 0
    return some true
  else
    return none

/-- The chain of `if (bruh == ...)` that rounds a count to a multiple of ten. -/
def roundCount (count : Int) : Int :=
  let bruh := count.tmod 10
  if 1 ≤ bruh ∧ bruh ≤ 4 then wrapInt (count - bruh)
  else if 5 ≤ bruh ∧ bruh ≤ 9 then wrapInt (count + (10 - bruh))
  else count

/-- `bruh4`: what is left of a count after the tax. -/
def taxedCount (count yuzde : Int) : Int :=
  wrapInt (count - (wrapInt (roundCount count * yuzde)).tdiv 100)

/-- Auto tax. -/
def taxSection (varlist : VariantList) (content : Bytes) : Section := do
  let out ← getSettings
  if out.taxsystem && contains content (ascii "Drop") &&
      contains content (ascii "embed_data|itemID|") then
    let itemid ← lift (restBehind content (ascii "embed_data|itemID|") 18)
    if contains itemid (ascii "242") then
      let text ← lift (restBehind content (ascii "count||") 7)
      let count ← lift (stoi text)
      let bruh4 := taxedCount count out.yuzde
      if out.fastmmode then
        sendServer (ascii "action|dialog_return\ndialog_name|drop_item\nitemID|" ++ itemid ++
          ascii "|\ncount|" ++ toDecimal bruh4)
        return some true
      else
        let page := texts [
          "set_default_color|`o\nadd_label_with_icon|big|`wDrop World Lock``|left|242|\n",
          "add_textbox|How many to drop?|left|\nadd_text_input|count||"] ++
          toDecimal bruh4 ++
          ascii "|5|\nembed_data|itemID|242\nend_dialog|drop_item|Cancel|OK|"
        sendVariant true (varlist.modify 1 (Variant.setString page)) (-1) 0
        return some true
    else
      return none
  else
    return none

/-- Fast drop; item and count are cut out before anything is looked for. -/
def fastdropSection (content : Bytes) : Section := do
  let out ← getSettings
  if out.fastdrop then
    let itemid ← lift (restBehind content (ascii "embed_data|itemID|") 18)
    let count ← lift (restBehind content (ascii "count||") 7)
    if contains content (ascii "embed_data|itemID|") && contains content (ascii "Drop") then
      sendServer (ascii "action|dialog_return\ndialog_name|drop_item\nitemID|" ++ itemid ++
        ascii "|\ncount|" ++ count)
      return some true
    else
      return none
  else
    return none

/-- Fast mode of the auto tax: the remaining world lock dialogs are swallowed. -/
def fastmmodeSection (content : Bytes) : Section := do
  let out ← getSettings
  if out.taxsystem && out.fastmmode then
    let itemid ← lift (restBehind content (ascii "embed_data|itemID|") 18)
    let _ ← lift (restBehind content (ascii "count||") 7)
    if contains content (ascii "embed_data|itemID|") && contains content (ascii "Drop") &&
        contains itemid (ascii "242") then
      return some true
    else
      return none
  else
    return none

/-- Fast trash. -/
def fasttrashSection (content : Bytes) : Section := do
  let out ← getSettings
  if out.fasttrash then
    let itemid ← lift (restBehind content (ascii "embed_data|itemID|") 18)
    let count ← lift (restBehind content (ascii "you have ") 9)
    let token ← lift (substr count 0 (findPos count (ascii ")")))
    if contains content (ascii "embed_data|itemID|") && contains content (ascii "Trash") then
      sendServer (ascii "action|dialog_return\ndialog_name|trash_item\nitemID|" ++ itemid ++
        ascii "|\ncount|" ++ token)
      return some true
    else
      return none
  else
    return none

/-- Insert buttons in front of a mark and show the dialog again. -/
def insertButtons (varlist : VariantList) (content mark buttons : Bytes) : Section := do
  let position := findPos content mark
  let content := content.take position ++ buttons ++ content.drop position
  sendVariant true (varlist.modify 1 (Variant.setString content)) (-1) (-1)
  return some true

/-- The last chain: wrench dialogs, or extra buttons on two other dialogs. -/
def wrenchSection (varlist : VariantList) (content : Bytes) : Section := do
  let out ← getSettings
  let report := ascii "add_button|report_player|`wReport Player``|noflags|0|0|"
  let worlds := ascii "add_button|my_worlds|`$My Worlds``|noflags|0|0|"
  if out.wrenchpull then
    let _ ← lift (restBehind content (ascii "embed_data|netID") 17)
    if contains content (ascii "set_default_color|`o") &&
        contains content (ascii "embed_data|netID") then
      return some true
    else
      return none
  else if contains content report then
    insertButtons varlist content report (texts [
      "\nadd_button|whitelist|`2Add to Whitelist``|noflags|0|0|",
      "\nadd_button|blacklist|`4Add to Blacklist``|noflags|0|0|\n"])
  else if contains content worlds then
    insertButtons varlist content worlds (texts [
      "\nadd_button|whitelisted_players|`2Whitelisted Players``|noflags|0|0|\n",
      "\nadd_button|blacklisted_players|`4Blacklisted Players``|noflags|0|0|",
      "\nadd_button|optionzzz|`5Options``|noflags|0|0|\n"])
  else
    return none

/-- The `OnDialogRequest` case. -/
def onDialogRequest (varlist : VariantList) : Handler Bool :=
  let content := (varlist 1).getString
  firstDecision [resolvingSection content, wltrollSection content, worldLockSection content,
    dicemodSection content, captchaSection content, gazetteSection varlist content,
    taxSection varlist content, fastdropSection content, fastmmodeSection content,
    fasttrashSection content, wrenchSection varlist content]

end SrmotionProxy.Events.In
