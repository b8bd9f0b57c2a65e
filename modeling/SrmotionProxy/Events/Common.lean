/-
# What the event handlers share

Random identifiers, the `split` helper, the recognition of chat commands, the
fragments of a text between a mark and a bound, and the two ways a handler shows a
text to the player.
-/

import SrmotionProxy.Dialog
import SrmotionProxy.Proton.Hash
import SrmotionProxy.Proton.Rtvar
import SrmotionProxy.Server

namespace SrmotionProxy.Events

open SrmotionProxy.Lib SrmotionProxy.Proton SrmotionProxy.Handler

/-! ## Texts -/

/-- A text that the source writes as several adjacent literals. -/
def texts (literals : List String) : Bytes := literals.flatMap ascii

/-- `packet.find(mark) + shift`, on `size_t`. -/
def behind (packet mark : Bytes) (shift : Nat) : Nat := addSize (findPos packet mark) shift

/-- `text.substr(text.find(mark) + shift, text.length() - text.find(mark) - 1)`. -/
def restBehind (text mark : Bytes) (shift : Nat) : Except Abort Bytes :=
  substr text (behind text mark shift) (subSize (subSize text.length (findPos text mark)) 1)

/-- The loop of `split`, from a cursor on: no result while it is still running after the rounds
it is given. `find` gives no position before the cursor. -/
def splitFrom (str delim : Bytes) : Nat → Nat → Option (Except Abort (List Bytes))
  | 0, _ => none
  | fuel + 1, prev =>
      let pos := match Seq.find delim (str.drop prev) with
        | some position => prev + position
        | none => str.length
      match substr str prev (pos - prev) with
      | .error failure => some (.error failure)
      | .ok token =>
          let next := pos + delim.length
          let rest := if pos < str.length ∧ next < str.length then splitFrom str delim fuel next
            else some (.ok [])
          rest.map fun tokens => tokens.map fun tokens =>
            if token = [] then tokens else token :: tokens

/-- `split(str, delim)`. A loop that never ends is undefined behaviour. -/
def split (str delim : Bytes) : Except Abort (List Bytes) :=
  (splitFrom str delim (str.length + 1) 0).getD (.error .undefinedBehaviour)

/-- `utils::replace`. -/
def replace (str source target : Bytes) : Bytes := replaceFirst str source target

/-- `std::transform(..., ::tolower)`. -/
def lower (text : Bytes) : Bytes := text.map toLower

/-! ## Randomness -/

/-- `utils::random(min, max)`. -/
def random (min max : Int) : Handler Int := do
  let tick ← nextTick
  let state ← getState
  return min + (state.env.random tick : Int) % (max - min + 1)

/-- A number of random bytes in hexadecimal. -/
def randomHex : Nat → Handler (List Bytes)
  | 0 => return []
  | count + 1 => do
      let byte ← random 0 255
      let rest ← randomHex count
      return hexStr (UInt8.ofNat byte.toNat) :: rest

/-- `utils::generate_rid`. -/
def generateRid : Handler Bytes := do
  let parts ← randomHex 16
  return parts.flatten.map toUpper

/-- `utils::generate_mac("02")`. -/
def generateMac : Handler Bytes := do
  let parts ← randomHex 5
  return ascii "02:" ++ (parts.intersperse (ascii ":")).flatten

/-! ## Commands and dialogs -/

/-- `find_command`. -/
def findCommand (chat name : Bytes) : Handler Bool := do
  if Seq.find (ascii "/" ++ name) chat = some 0 then
    sendLog (ascii "`6" ++ chat)
    return true
  else
    return false

/-- The `else if` chain of commands: the first one found runs. -/
def commandChain (chat : Bytes) (otherwise : Handler Bool) :
    List (String × Handler Bool) → Handler Bool
  | [] => otherwise
  | (name, action) :: commands => do
      if ← findCommand chat (ascii name) then action
      else commandChain chat otherwise commands

/-- `variantlist_t liste{ "OnDialogRequest" }; liste[1] = paket; send(true, liste);` -/
def showDialog (paket : Bytes) : Handler Unit :=
  let liste := (VariantList.ofString (ascii "OnDialogRequest")).modify 1
    (Variant.setString paket)
  sendVariant true liste (-1) 0

/-- The message of the form fields. -/
def overrideDetected : Bytes := ascii "`4Critical Error: `2override detected"

/-- The message of the numeric inputs. -/
def numbersOnly : Bytes := ascii "`4Critical Error: `9Please enter numbers only."

end SrmotionProxy.Events
