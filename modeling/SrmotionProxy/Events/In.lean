/-
# Function calls from the server

`events::in::variantlist`: the list is decoded behind the data size, the name in its
first slot is hashed, and the hash selects the case. All cases but the redirect are
handlers; the redirect is `server::redirect_server`.
-/

import SrmotionProxy.Events.Dialogs
import SrmotionProxy.Events.Messages
import SrmotionProxy.Events.Roster

namespace SrmotionProxy.Events.In

open SrmotionProxy.Lib SrmotionProxy.Proton SrmotionProxy.Handler

/-- The list that `events::in::variantlist` works on. The verdict of the parser is
ignored. -/
def decodeCall (packet : Bytes) : Except Abort VariantList := do
  let parsed ← serializeFromMem ((getExtended packet).drop 4) .fresh
  return parsed.list

/-- The game reports that the login was accepted. -/
def noteLogon (func : Bytes) : Handler Unit := do
  if contains func (ascii "OnSuperMainStartAcceptLogon") then
    modifyGt fun gt => { gt with inGame := true }

/-- The cases of the switch that are handlers. -/
def callFunction (func : Bytes) (varlist : VariantList) : Handler Bool :=
  if hash32 func = fnv32 "onShowCaptcha" then onShowCaptcha varlist
  else if hash32 func = fnv32 "OnRequestWorldSelectMenu" then onRequestWorldSelectMenu
  else if hash32 func = fnv32 "OnConsoleMessage" then onConsoleMessage varlist
  else if hash32 func = fnv32 "OnTalkBubble" then onTalkBubble varlist
  else if hash32 func = fnv32 "OnDialogRequest" then onDialogRequest varlist
  else if hash32 func = fnv32 "OnRemove" then onRemove varlist
  else if hash32 func = fnv32 "OnSpawn" then onSpawn varlist
  else return false

/-- Whether a function name selects the redirect. -/
def isRedirect (func : Bytes) : Bool := hash32 func = fnv32 "OnSendToServer"

/-- `events::in::variantlist`. -/
def variantlist (packet : Bytes) : Proxy Bool := do
  match decodeCall packet with
  | .error failure => throw failure
  | .ok varlist =>
      let func := (varlist 0).getString
      (noteLogon func).code
      if isRedirect func then
        Server.redirectServer varlist
        return true
      else
        (callFunction func varlist).code

end SrmotionProxy.Events.In
