/-
# Form fields of generic texts

The first part of `events::out::generictext`: the sections that look for a form field
in the packet and store what follows it, and the dialog buttons. A section is
triggered by a substring and finds its value behind a shorter mark, which is not
always the one in the trigger.
-/

import SrmotionProxy.Events.Players

namespace SrmotionProxy.Events

open SrmotionProxy.Lib SrmotionProxy.Proton SrmotionProxy.Handler

/-! ## Numeric fields -/

/-- A section that reads a number; `trim` erases trailing white space first. -/
def numberField (trigger mark : String) (trim : Bool) (store : Int → Handler Unit)
    (packet : Bytes) : Handler Unit := do
  if contains packet (ascii trigger) then
    catchException
      (do
        let aaa ← lift (substr packet (behind packet (ascii mark) 4) packet.length)
        let number := if trim then trimRight (cStr aaa) else cStr aaa
        let value ← lift (stoi number)
        store value)
      (sendLog overrideDetected)
  else
    return ()

/-- A section that only sets a flag. -/
def flagField (trigger mark : String) (trim : Bool) (set : Bool → Settings → Settings) :
    Bytes → Handler Unit :=
  numberField trigger mark trim fun value => modifySettings (set (value ≠ 0))

def autopullField : Bytes → Handler Unit :=
  flagField "roulette2|" "te2|" false fun value out => { out with autopull := value }

def fastdropField : Bytes → Handler Unit :=
  flagField "fastdrop|" "rop|" false fun value out => { out with fastdrop := value }

def fasttrashField : Bytes → Handler Unit :=
  flagField "fasttrash|" "ash|" false fun value out => { out with fasttrash := value }

def visualspinField : Bytes → Handler Unit :=
  flagField "visualspin|" "pin|" false fun value out => { out with visualspin := value }

def fastmmodeField : Bytes → Handler Unit :=
  flagField "fastmode|" "ode|" false fun value out => { out with fastmmode := value }

def taxsystemField : Bytes → Handler Unit :=
  flagField "autotax|" "tax|" false fun value out => { out with taxsystem := value }

def wltrollField : Bytes → Handler Unit :=
  numberField "wltroll1|" "ll1|" false fun value => do
    modifySettings fun out => { out with wltroll := value ≠ 0 }
    if value ≠ 0 then sendLog (ascii "`9worldlock`` trolling mode is now `2on")
    else sendLog (ascii "`9worldlock`` trolling mode is now `4off")

def yuzdeField : Bytes → Handler Unit :=
  numberField "taxamount|" "unt|" false fun value =>
    modifySettings fun out => { out with yuzde := value }

/-- The trigger lacks the bar that the mark ends with. -/
def ruletsayiField : Bytes → Handler Unit :=
  numberField "roulette5" "te5|" true fun value =>
    modifySettings fun out => { out with ruletsayi := value }

def dicespeedField : Bytes → Handler Unit :=
  flagField "dicespeed|" "eed|" false fun value out => { out with dicespeed := value }

def worldbanjoinmodField : Bytes → Handler Unit :=
  numberField "worldbanmod|" "mod|" false fun value => do
    modifySettings fun out => { out with worldbanjoinmod := value ≠ 0 }
    if value ≠ 0 then
      sendLog (ascii ("`9Successfuly started checking entered for `#@Moderators `9and " ++
        "`#@Guardians`9, please wait..."))
    else return ()

def wrenchpullField : Bytes → Handler Unit :=
  flagField "wrenchpull|" "ull|" true fun value out => { out with wrenchpull := value }

def autohostsField : Bytes → Handler Unit :=
  flagField "autohosts|" "sts|" false fun value out => { out with autohosts := value }

/-! ## Country -/

/-- The dialog behind the `Country List` button. -/
def countryList : Bytes := texts [
  "\nadd_label_with_icon|big|Country List|left|3394|",
  "\nadd_spacer|small",
  "\nadd_textbox|`otr: Turkey|left|2480|",
  "\nadd_textbox|`oen: USA|left|2480|",
  "\nadd_textbox|`okr: Korean|left|2480|",
  "\nadd_textbox|`oid: Indonesia|left|2480|",
  "\nadd_textbox|`oaf: Afghanistan|left|2480|",
  "\nadd_textbox|`oal: Albania|left|2480|",
  "\nadd_textbox|`odz: Algeria|left|2480|",
  "\nadd_textbox|`oas: American Samoa|left|2480|",
  "\nadd_textbox|`oad: Andorra|left|2480|",
  "\nadd_textbox|`oao: Angola|left|2480|",
  "\nadd_textbox|`oai: Anguilla|left|2480|",
  "\nadd_textbox|`oaq: Antarctica|left|2480|",
  "\nadd_textbox|`oag: Antigua and Barbuda|left|2480|",
  "\nadd_textbox|`oar: Argentina|left|2480|",
  "\nadd_textbox|`oam: Armenia|left|2480|",
  "\nadd_textbox|`oth: Thailand|left|2480|",
  "\nadd_textbox|`oes: Spain|left|2480|",
  "\nadd_textbox|`oso: Somalia|left|2480|",
  "\nadd_textbox|`ose: Sweden|left|2480|",
  "\nadd_quick_exit|",
  "\nend_dialog|end|Cancel|Okay|"]

/-- The `countryzz|` section: a new country costs the connection. -/
def countryField (packet : Bytes) : Handler Unit := do
  if contains packet (ascii "countryzz|") then
    catchException
      (do
        let aaa ← lift (substr packet (behind packet (ascii "yzz|") 4) packet.length)
        let aaa := trimRight aaa
        if contains packet (ascii "buttonClicked|countrylist") then
          showDialog countryList
        else
          let country := cStr aaa
          modifySettings fun out => { out with country := country }
          let varlist := (VariantList.ofString (ascii "OnTextOverlay")).modify 1
            (Variant.setString (ascii "Your country Successfuly changed!, Disconnecting"))
          sendVariant true varlist (-1) 0
          modifyGt fun gt => { gt with flag := country }
          sendLog (ascii "Disconnected?! Will attempt to reconnect..")
          disconnectsr true)
      (sendLog overrideDetected)
  else
    return ()

/-! ## Options page -/

/-- The dialog of the `/options` command and of the `Options` button. -/
def optionsPage (out : Settings) : Bytes :=
  ({} : Dialog)
    |>.addLabelWithIcon (ascii "Options Page") 758 .big
    |>.addSpacer .small
    |>.addCheckbox (ascii "roulette2") (ascii "Enable Auto Pull") out.autopull
    |>.addCheckbox (ascii "wrenchpull") (ascii "Enable Wrench " ++ out.mode) out.wrenchpull
    |>.addCheckbox (ascii "fastdrop") (ascii "Enable Fast Drop") out.fastdrop
    |>.addCheckbox (ascii "fasttrash") (ascii "Enable Fast Trash") out.fasttrash
    |>.addCheckbox (ascii "dicespeed") (ascii "Enable Dice Speed") out.dicespeed
    |>.addCheckbox (ascii "worldbanmod") (ascii "Exit world when mod joins")
      out.worldbanjoinmod
    |>.addCheckbox (ascii "visualspin") (ascii "Enable Visual Spin") out.visualspin
    |>.addCheckbox (ascii "autohosts") (ascii "Enable Show X,Y Position") out.autohosts
    |>.addCheckbox (ascii "wltroll1") (ascii "Enable World Lock Troll") out.wltroll
    |>.addInputBox (ascii "roulette5") (ascii "Number:") (toDecimal out.ruletsayi) 2
    |>.addInputBox (ascii "saveworld") (ascii "Save World:") out.saveworld 12
    |>.endDialog (ascii "end") (ascii "Okey") (ascii "Cancel")
    |>.finishDialog

/-- The `Options` button. -/
def optionsButton (packet : Bytes) : Handler Unit := do
  if contains packet (ascii "buttonClicked|optionzzz") then
    catchException
      (do
        let out ← getSettings
        showDialog (optionsPage out))
      (sendLog overrideDetected)
  else
    return ()

/-! ## Vault inputs and the saved world -/

/-- A section that reads a number and cuts the field out before its `try`. -/
def inputField (trigger mark : String) (trim : Bool) (store : Int → Handler Unit)
    (packet : Bytes) : Handler Unit := do
  if contains packet (ascii trigger) then
    let aaa ← lift (substr packet (behind packet (ascii mark) 4) packet.length)
    let aaa := if trim then trimRight aaa else aaa
    catchException
      (do
        let value ← lift (stoi (cStr aaa))
        store value)
      (sendLog numbersOnly)
  else
    return ()

def posxField : Bytes → Handler Unit :=
  inputField "xvault111|" "111|" false fun value => do
    modifySettings fun out => { out with posx := value }
    sendLog (ascii "posx: " ++ toDecimal value)

def posyField : Bytes → Handler Unit :=
  inputField "2vault222|" "222|" true fun value => do
    modifySettings fun out => { out with posy := value }
    sendLog (ascii "posy: " ++ toDecimal value)

def iditemmField : Bytes → Handler Unit :=
  inputField "iditemzz1|" "zz1|" true fun value =>
    modifySettings fun out => { out with iditemm := value }

/-- The `saveworld|` section; its `catch` does nothing. -/
def saveworldField (packet : Bytes) : Handler Unit := do
  if contains packet (ascii "saveworld|") then
    catchException
      (do
        let aaa ← lift (substr packet (behind packet (ascii "rld|") 4) packet.length)
        modifySettings fun out => { out with saveworld := trimRight aaa })
      (return ())
  else
    return ()

/-! ## Buttons -/

/-- A button that selects the wrench mode. -/
def modeButton (button mode : String) (packet : Bytes) : Handler Unit := do
  if contains packet (ascii button) then
    modifySettings fun out => { out with mode := ascii mode }
  else
    return ()

/-- A button that runs `worldoptions`. -/
def worldButton (button option : String) (packet : Bytes) : Handler Unit := do
  if contains packet (ascii button) then
    let _ ← worldoptions (ascii option)
    return ()
  else
    return ()

/-- The `Unban World` button. -/
def unbanButton (packet : Bytes) : Handler Unit := do
  if contains packet (ascii "buttonClicked|ubaworld") then
    sendServer (ascii "action|input\n|text|/uba")
  else
    return ()

/-! ## All sections -/

/-- The sections in the order of the source. -/
def formSections : List (Bytes → Handler Unit) :=
  [autopullField, fastdropField, fasttrashField, visualspinField, fastmmodeField,
    taxsystemField, wltrollField, yuzdeField, ruletsayiField, dicespeedField,
    worldbanjoinmodField, wrenchpullField, autohostsField, countryField, optionsButton,
    posxField, saveworldField, posyField,
    modeButton "buttonClicked|iso11pul1" "`5Pull",
    modeButton "buttonClicked|bannj" "`4Ban",
    modeButton "buttonClicked|kicj" "`4Kick",
    iditemmField,
    worldButton "buttonClicked|killall" "kick",
    worldButton "buttonClicked|banall" "ban",
    worldButton "buttonClicked|pullall" "pull",
    unbanButton]

/-- Run sections one after another. -/
def runSections (packet : Bytes) : List (Bytes → Handler Unit) → Handler Unit
  | [] => return ()
  | first :: rest => do
      first packet
      runSections packet rest

end SrmotionProxy.Events
