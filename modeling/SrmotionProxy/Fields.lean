/-
# Settings and their fields

Seventeen settings are driven by form fields. `generictext` recognises a field by a
substring of the packet and not by the key of a line, and reads the value behind the
first occurrence of a four-byte mark. This module says what a packet can do to these
settings all the same: each of them is changed by its own trigger only, and then to the
value that stands behind its mark.
-/

import SrmotionProxy.Proton.RtvarText
import SrmotionProxy.Lib.Decimal
import SrmotionProxy.Lib.Ends
import SrmotionProxy.Lib.Marks
import SrmotionProxy.Sections

namespace SrmotionProxy.Events

open SrmotionProxy.Lib SrmotionProxy.Proton SrmotionProxy.Handler
open SrmotionProxy.Lib.Confined (Leads)

/-! ## Settings -/

/-- The settings that a form field drives. -/
inductive Setting
  | autopull
  | fastdrop
  | fasttrash
  | visualspin
  | fastmmode
  | taxsystem
  | wltroll
  | yuzde
  | ruletsayi
  | dicespeed
  | worldbanjoinmod
  | wrenchpull
  | autohosts
  | posx
  | saveworld
  | posy
  | iditemm
  deriving DecidableEq

/-- What a setting holds. -/
inductive Value
  | flag (on : Bool)
  | number (number : Int)
  | text (text : Bytes)
  deriving DecidableEq

namespace Setting

/-- The value of a setting. -/
def get (setting : Setting) (out : Settings) : Value :=
  match setting with
  | autopull => .flag out.autopull
  | fastdrop => .flag out.fastdrop
  | fasttrash => .flag out.fasttrash
  | visualspin => .flag out.visualspin
  | fastmmode => .flag out.fastmmode
  | taxsystem => .flag out.taxsystem
  | wltroll => .flag out.wltroll
  | yuzde => .number out.yuzde
  | ruletsayi => .number out.ruletsayi
  | dicespeed => .flag out.dicespeed
  | worldbanjoinmod => .flag out.worldbanjoinmod
  | wrenchpull => .flag out.wrenchpull
  | autohosts => .flag out.autohosts
  | posx => .number out.posx
  | saveworld => .text out.saveworld
  | posy => .number out.posy
  | iditemm => .number out.iditemm

/-- The settings with another value; a value of another type is not stored. -/
def put (setting : Setting) (value : Value) (out : Settings) : Settings :=
  match setting, value with
  | autopull, .flag on => { out with autopull := on }
  | fastdrop, .flag on => { out with fastdrop := on }
  | fasttrash, .flag on => { out with fasttrash := on }
  | visualspin, .flag on => { out with visualspin := on }
  | fastmmode, .flag on => { out with fastmmode := on }
  | taxsystem, .flag on => { out with taxsystem := on }
  | wltroll, .flag on => { out with wltroll := on }
  | yuzde, .number value => { out with yuzde := value }
  | ruletsayi, .number value => { out with ruletsayi := value }
  | dicespeed, .flag on => { out with dicespeed := on }
  | worldbanjoinmod, .flag on => { out with worldbanjoinmod := on }
  | wrenchpull, .flag on => { out with wrenchpull := on }
  | autohosts, .flag on => { out with autohosts := on }
  | posx, .number value => { out with posx := value }
  | saveworld, .text text => { out with saveworld := text }
  | posy, .number value => { out with posy := value }
  | iditemm, .number value => { out with iditemm := value }
  | _, _ => out

/-- Storing in one setting leaves the others as they are. -/
theorem get_put_of_ne {setting other : Setting} (hother : other ≠ setting) (value : Value)
    (out : Settings) : other.get (setting.put value out) = other.get out := by
  cases setting <;> cases value <;> cases other <;> first | rfl | exact absurd rfl hother

/-- The substring that the field is recognised by. -/
def trigger : Setting → String
  | autopull => "roulette2|"
  | fastdrop => "fastdrop|"
  | fasttrash => "fasttrash|"
  | visualspin => "visualspin|"
  | fastmmode => "fastmode|"
  | taxsystem => "autotax|"
  | wltroll => "wltroll1|"
  | yuzde => "taxamount|"
  | ruletsayi => "roulette5"
  | dicespeed => "dicespeed|"
  | worldbanjoinmod => "worldbanmod|"
  | wrenchpull => "wrenchpull|"
  | autohosts => "autohosts|"
  | posx => "xvault111|"
  | saveworld => "saveworld|"
  | posy => "2vault222|"
  | iditemm => "iditemzz1|"

/-- The substring behind which the value is read. -/
def mark : Setting → String
  | autopull => "te2|"
  | fastdrop => "rop|"
  | fasttrash => "ash|"
  | visualspin => "pin|"
  | fastmmode => "ode|"
  | taxsystem => "tax|"
  | wltroll => "ll1|"
  | yuzde => "unt|"
  | ruletsayi => "te5|"
  | dicespeed => "eed|"
  | worldbanjoinmod => "mod|"
  | wrenchpull => "ull|"
  | autohosts => "sts|"
  | posx => "111|"
  | saveworld => "rld|"
  | posy => "222|"
  | iditemm => "zz1|"

/-- The key of the field: its trigger without the bar. -/
def key (setting : Setting) : Bytes := (ascii setting.trigger).takeWhile (· ≠ bar)

/-- The value of the setting that a text starts with. -/
def read (setting : Setting) (text : Bytes) : Option Value :=
  match setting with
  | saveworld => some (.text (trimRight text))
  | yuzde | ruletsayi | posx | posy | iditemm => (stoi text).toOption.map .number
  | _ => (stoi text).toOption.map fun value => .flag (value ≠ 0)

/-- The packet has the trigger of the setting, and the value is what stands behind its
mark. A text with `roulette5` may lack the mark; nothing is said about the number then. -/
def Asked (setting : Setting) (packet : Bytes) (value : Value) : Prop :=
  contains packet (ascii setting.trigger) = true ∧
    (setting.read (packet.drop (behind packet (ascii setting.mark) 4)) = some value ∨
      setting = ruletsayi ∧ contains packet (ascii setting.mark) = false)

end Setting

/-- Each setting is what it was or what its field asks for. -/
def ByFields (packet : Bytes) (before after : Settings) : Prop :=
  ∀ setting : Setting, setting.get after = setting.get before ∨
    setting.Asked packet (setting.get after)

/-- Each setting is what it was or the value of a line with its key. -/
def ByKeys (packet : Bytes) (before after : Settings) : Prop :=
  ∀ setting : Setting, setting.get after = setting.get before ∨
    ∃ pair ∈ (Rtvar.parse packet).mPairs, pair.mKey = setting.key ∧
      setting.read pair.mValue = some (setting.get after)

/-! ## Handlers and the settings -/

theorem disconnect_out (state : ProxyState) (reset : Bool) :
    (state.disconnect reset).out = state.out := by
  have hdrop (state : ProxyState) : state.dropConnection.out = state.out := by
    unfold ProxyState.dropConnection
    cases state.server.mServerPeer with
    | none => rfl
    | some peer => rfl
  cases reset with
  | false => exact hdrop _
  | true => exact hdrop _

/-- The handler preserves `I` of the settings, however it ends. -/
def KeepsSettings {α : Type} (I : Settings → Prop) (m : Handler α) : Prop :=
  Keeps (fun state => I state.out) m.code

namespace KeepsSettings

variable {α β : Type} {I : Settings → Prop}

theorem pure (value : α) : KeepsSettings I (Pure.pure value : Handler α) := Keeps.pure value

theorem bind {first : Handler α} {next : α → Handler β} (hfirst : KeepsSettings I first)
    (hnext : ∀ value, KeepsSettings I (next value)) : KeepsSettings I (first >>= next) :=
  Keeps.bind hfirst hnext

theorem ite {condition : Prop} [Decidable condition] {first second : Handler α}
    (hfirst : condition → KeepsSettings I first) (hsecond : KeepsSettings I second) :
    KeepsSettings I (if condition then first else second) := by
  by_cases hcondition : condition
  · rw [if_pos hcondition]
    exact hfirst hcondition
  · rwa [if_neg hcondition]

theorem lift_bind {value : Except Abort α} {next : α → Handler β}
    (hnext : ∀ result, value = .ok result → KeepsSettings I (next result)) :
    KeepsSettings I (lift value >>= next) := by
  cases value with
  | ok result => exact hnext result rfl
  | error failure => exact fun _ hstate => hstate

theorem catchException {body handler : Handler α} (hbody : KeepsSettings I body)
    (hhandler : KeepsSettings I handler) :
    KeepsSettings I (Handler.catchException body handler) := by
  intro state hstate
  have hmiddle := hbody state hstate
  change I (finalState ((tryCatchIf Abort.isStdException body.code
    fun _ => handler.code).run state)).out
  rw [run_tryCatchIf]
  cases hrun : body.code.run state with
  | ok value middle =>
      rw [hrun] at hmiddle
      exact hmiddle
  | error failure middle =>
      rw [hrun] at hmiddle
      by_cases hcaught : failure.isStdException
      · simp only [if_pos hcaught]
        exact hhandler middle hmiddle
      · simp only [if_neg hcaught]
        exact hmiddle

/-! ### What leaves the settings alone -/

theorem getSettings : KeepsSettings I Handler.getSettings := fun _ hstate => hstate

theorem getWorld : KeepsSettings I Handler.getWorld := fun _ hstate => hstate

theorem modifyGt (update : Gt → Gt) : KeepsSettings I (Handler.modifyGt update) :=
  fun _ hstate => hstate

theorem disconnectsr (reset : Bool) : KeepsSettings I (Handler.disconnectsr reset) := by
  intro state hstate
  change I (state.disconnect reset).out
  rwa [disconnect_out]

theorem deliver (client : Bool) (data : Bytes) : KeepsSettings I (Handler.deliver client data) := by
  intro state hstate
  cases htarget : state.target client with
  | none =>
      rw [deliver_run_none htarget]
      exact hstate
  | some pair =>
      rw [deliver_run htarget]
      exact hstate

theorem sendServer (text : Bytes) : KeepsSettings I (Handler.sendServer text) := deliver _ _

theorem sendLog (text : Bytes) : KeepsSettings I (Handler.sendLog text) := deliver _ _

theorem sendVariant (client : Bool) (list : VariantList) (netid delay : Int) :
    KeepsSettings I (Handler.sendVariant client list netid delay) := by
  refine bind (fun _ hstate => hstate) fun state => ite (fun _ => pure ()) ?_
  exact lift_bind fun packet _ => deliver client packet

theorem showDialog (paket : Bytes) : KeepsSettings I (Events.showDialog paket) :=
  sendVariant true _ (-1) 0

end KeepsSettings

/-! ## Going through the roster and the sections -/

section Leading

variable {bad : Abort → Bool} {E P Q I : ProxyState → Prop} {packet : Bytes}

/-- Sections in two parts. -/
theorem runSections_append (front back : List (Bytes → Handler Unit)) (state : ProxyState) :
    (runSections packet (front ++ back)).code.run state =
      (do
        runSections packet front
        runSections packet back : Handler Unit).code.run state := by
  induction front generalizing state with
  | nil => rfl
  | cons first front ih =>
      have hleft : (runSections packet (first :: front ++ back)).code.run state =
        (first packet >>= fun _ => runSections packet (front ++ back)).code.run state := rfl
      rw [hleft, Confined.code_bind, Confined.code_bind, EStateM.run_bind, EStateM.run_bind,
        runSections, Confined.code_bind, EStateM.run_bind]
      cases hfirst : (first packet).code.run state with
      | ok value after => exact ih after
      | error failure after => rfl

theorem runSections_leads_append {front back : List (Bytes → Handler Unit)}
    (hfront : Leads bad E P I (runSections packet front))
    (hback : Leads bad E I Q (runSections packet back)) :
    Leads bad E P Q (runSections packet (front ++ back)) := by
  intro state hstate
  rw [ends_congr (runSections_append front back state)]
  exact Leads.bind hfront (fun _ => hback) state hstate

/-- Sections that preserve a property one by one preserve it together. -/
theorem runSections_leads {actions : List (Bytes → Handler Unit)}
    (hactions : ∀ action ∈ actions, Leads bad E I I (action packet)) :
    Leads bad E I I (runSections packet actions) := by
  induction actions with
  | nil => exact .pure ()
  | cons first rest ih =>
      rw [List.forall_mem_cons] at hactions
      exact .bind hactions.1 fun _ => ih hactions.2

theorem coreName_failure {name : Bytes} {length : Nat} {failure : Abort}
    (hfailure : coreName name length = .error failure) : failure = .outOfRange := by
  unfold coreName at hfailure
  cases hstripped : substrFrom name 2 with
  | ok stripped =>
      rw [hstripped, except_ok_bind] at hfailure
      exact substr_failure hfailure
  | error other =>
      rw [hstripped] at hfailure
      cases hfailure
      exact substrFrom_failure hstripped

variable (hgood : bad .outOfRange = false) (hfailed : ∀ state, I state → E state)
  (hsend : ∀ client data, Leads bad E I I (Handler.deliver client data))

include hgood hfailed hsend

theorem orderPlayer_leads (option : Bytes) (verb : String) (player bruh : Player) :
    Leads bad E I I (orderPlayer option verb player bruh) := by
  have hcore {name : Bytes} {length : Nat} (failure : Abort)
      (hfailure : coreName name length = .error failure) : bad failure = false := by
    rw [coreName_failure hfailure, hgood]
  refine .ite (fun _ => ?_) fun _ => .pure ()
  refine .ofExcept_bind hcore hfailed fun plyr _ => .ofExcept_bind hcore hfailed fun own _ => ?_
  exact .ite (fun _ => hsend _ _) fun _ => .pure ()

/-- Whatever a send preserves, the loop over the roster preserves; a name without a colour
is its only failure. -/
theorem worldoptionsLoop_leads (option : Bytes) (bruh : Player) (players : List Player) :
    Leads bad E I I (worldoptionsLoop option bruh players) := by
  have horder (verb : String) (player : Player) :=
    orderPlayer_leads hgood hfailed hsend option verb player bruh
  induction players with
  | nil => exact .pure ()
  | cons player players ih =>
      refine .bind (.ofExcept_bind (fun failure hfailure => ?_) hfailed fun name2 _ => ?_)
        fun _ => ih
      · rw [substrFrom_failure hfailure, hgood]
      · exact .ite (fun _ => .bind (horder _ _) fun _ => .bind (horder _ _) fun _ =>
          horder _ _) fun _ => .pure ()

end Leading

/-! ## One section -/

section Sections

variable {packet : Bytes} {before : Settings}

/-- Storing what the field asks for. -/
theorem modifySettings_byFields {setting : Setting} {value : Value}
    {update : Settings → Settings} (hput : ∀ out, update out = setting.put value out)
    (hown : ∀ out, setting.get (setting.put value out) = value)
    (hasked : setting.Asked packet value) :
    KeepsSettings (ByFields packet before) (modifySettings update) := by
  intro state hstate other
  change other.get (update state.out) = _ ∨ other.Asked packet (other.get (update state.out))
  rw [hput]
  by_cases hsame : other = setting
  · subst hsame
    rw [hown]
    exact .inr hasked
  · rw [Setting.get_put_of_ne hsame]
    exact hstate other

theorem substr_eq_ok {text rest : Bytes} {position : Nat}
    (hrest : substr text position text.length = .ok rest) : rest = text.drop position := by
  unfold substr at hrest
  by_cases hinside : position ≤ text.length
  · rw [if_pos hinside] at hrest
    cases hrest
    exact List.take_of_length_le (by rw [List.length_drop]; omega)
  · rw [if_neg hinside] at hrest
    cases hrest

/-- A numeric section stores the number that stands behind its mark. -/
theorem numberField_byFields (setting : Setting) {wrap : Int → Value} {trim : Bool}
    {store : Int → Handler Unit}
    (hread : ∀ text, setting.read text = (stoi text).toOption.map wrap)
    (hstore : ∀ value, setting.Asked packet (wrap value) →
      KeepsSettings (ByFields packet before) (store value)) :
    KeepsSettings (ByFields packet before)
      (numberField setting.trigger setting.mark trim store packet) := by
  refine .ite (fun htrigger => .catchException ?_ (.sendLog _)) (.pure ())
  refine .lift_bind fun aaa haaa => .lift_bind fun value hvalue => hstore value ⟨htrigger, .inl ?_⟩
  have hnumber : stoi aaa = .ok value := by
    cases trim with
    | false => exact (stoi_cStr aaa).symm.trans hvalue
    | true => exact ((stoi_trimRight _).trans (stoi_cStr aaa)).symm.trans hvalue
  rw [← substr_eq_ok haaa, hread, hnumber]
  rfl

/-- So does an input of the vault page. -/
theorem inputField_byFields (setting : Setting) {wrap : Int → Value} {trim : Bool}
    {store : Int → Handler Unit}
    (hread : ∀ text, setting.read text = (stoi text).toOption.map wrap)
    (hstore : ∀ value, setting.Asked packet (wrap value) →
      KeepsSettings (ByFields packet before) (store value)) :
    KeepsSettings (ByFields packet before)
      (inputField setting.trigger setting.mark trim store packet) := by
  refine .ite (fun htrigger => .lift_bind fun aaa haaa => ?_) (.pure ())
  refine .catchException (.lift_bind fun value hvalue => ?_) (.sendLog _)
  refine hstore value ⟨htrigger, .inl ?_⟩
  have hnumber : stoi aaa = .ok value := by
    cases trim with
    | false => exact (stoi_cStr aaa).symm.trans hvalue
    | true => exact ((stoi_cStr _).trans (stoi_trimRight aaa)).symm.trans hvalue
  rw [← substr_eq_ok haaa, hread, hnumber]
  rfl

theorem saveworldField_byFields :
    KeepsSettings (ByFields packet before) (saveworldField packet) := by
  refine .ite (fun htrigger => .catchException (.lift_bind fun aaa haaa => ?_) (.pure ()))
    (.pure ())
  obtain rfl := substr_eq_ok haaa
  exact modifySettings_byFields (fun _ => rfl : ∀ out, _ = Setting.saveworld.put (.text _) out)
    (fun _ => rfl) ⟨htrigger, .inl rfl⟩

/-- A section that only sets a flag. -/
theorem flagField_byFields (setting : Setting) {trim : Bool} {set : Bool → Settings → Settings}
    (hread : ∀ text, setting.read text = (stoi text).toOption.map fun value => .flag (value ≠ 0))
    (hput : ∀ on out, set on out = setting.put (.flag on) out)
    (hown : ∀ on out, setting.get (setting.put (.flag on) out) = .flag on) :
    KeepsSettings (ByFields packet before)
      (flagField setting.trigger setting.mark trim set packet) :=
  numberField_byFields setting hread fun value =>
    modifySettings_byFields (hput (value ≠ 0)) (hown (value ≠ 0))

theorem wltrollField_byFields : KeepsSettings (ByFields packet before) (wltrollField packet) := by
  refine numberField_byFields .wltroll (fun _ => rfl) fun value hasked => ?_
  refine .bind (modifySettings_byFields (fun _ => rfl) (fun _ => rfl) hasked) fun _ => ?_
  exact .ite (fun _ => .sendLog _) (.sendLog _)

theorem worldbanjoinmodField_byFields :
    KeepsSettings (ByFields packet before) (worldbanjoinmodField packet) := by
  refine numberField_byFields .worldbanjoinmod (fun _ => rfl) fun value hasked => ?_
  refine .bind (modifySettings_byFields (fun _ => rfl) (fun _ => rfl) hasked) fun _ => ?_
  exact .ite (fun _ => .sendLog _) (.pure ())

theorem posxField_byFields : KeepsSettings (ByFields packet before) (posxField packet) := by
  refine inputField_byFields .posx (fun _ => rfl) fun value hasked => ?_
  exact .bind (modifySettings_byFields (fun _ => rfl) (fun _ => rfl) hasked) fun _ => .sendLog _

theorem posyField_byFields : KeepsSettings (ByFields packet before) (posyField packet) := by
  refine inputField_byFields .posy (fun _ => rfl) fun value hasked => ?_
  exact .bind (modifySettings_byFields (fun _ => rfl) (fun _ => rfl) hasked) fun _ => .sendLog _

/-! ### Sections that drive none of the settings -/

theorem modifySettings_elsewhere {update : Settings → Settings}
    (hsame : ∀ (setting : Setting) out, setting.get (update out) = setting.get out) :
    KeepsSettings (ByFields packet before) (modifySettings update) := by
  intro state hstate setting
  have hsetting := hstate setting
  rw [← hsame setting state.out] at hsetting
  exact hsetting

theorem countryField_byFields : KeepsSettings (ByFields packet before) (countryField packet) := by
  refine .ite (fun _ => .catchException (.lift_bind fun aaa _ => ?_) (.sendLog _)) (.pure ())
  refine .ite (fun _ => .showDialog _) ?_
  refine .bind (modifySettings_elsewhere fun setting out => ?_) fun _ =>
    .bind (.sendVariant _ _ _ _) fun _ => .bind (.modifyGt _) fun _ =>
      .bind (.sendLog _) fun _ => .disconnectsr true
  cases setting <;> rfl

theorem modeButton_byFields (button mode : String) :
    KeepsSettings (ByFields packet before) (modeButton button mode packet) := by
  refine .ite (fun _ => modifySettings_elsewhere fun setting out => ?_) (.pure ())
  cases setting <;> rfl

end Sections

section Silent

variable {I : Settings → Prop}

theorem optionsButton_keeps (packet : Bytes) : KeepsSettings I (optionsButton packet) :=
  .ite (fun _ => .catchException (.bind .getSettings fun _ => .showDialog _) (.sendLog _))
    (.pure ())

theorem worldoptionsLoop_keeps (option : Bytes) (bruh : Player) (players : List Player) :
    KeepsSettings I (worldoptionsLoop option bruh players) :=
  Leads.keeps_iff.mp (worldoptionsLoop_leads rfl (fun _ => id)
    (fun client data => Leads.keeps_iff.mpr (KeepsSettings.deliver client data)) option bruh
    players)

theorem worldButton_keeps (button option : String) (packet : Bytes) :
    KeepsSettings I (worldButton button option packet) := by
  refine .ite (fun _ => .bind (.bind .getWorld fun world => ?_) fun _ => .pure ()) (.pure ())
  exact .bind (worldoptionsLoop_keeps _ _ _) fun _ => .pure true

theorem unbanButton_keeps (packet : Bytes) : KeepsSettings I (unbanButton packet) :=
  .ite (fun _ => .sendServer _) (.pure ())

theorem runSections_keeps {packet : Bytes} {actions : List (Bytes → Handler Unit)}
    (hactions : ∀ action ∈ actions, KeepsSettings I (action packet)) :
    KeepsSettings I (runSections packet actions) :=
  Leads.keeps_iff.mp (runSections_leads fun action haction =>
    Leads.keeps_iff.mpr (hactions action haction))

end Silent

/-- All sections together change a setting only as its field asks. -/
theorem formSections_byFields (packet : Bytes) (before : Settings) :
    KeepsSettings (ByFields packet before) (runSections packet formSections) := by
  apply runSections_keeps
  simp only [formSections, List.forall_mem_cons]
  refine ⟨flagField_byFields .autopull (fun _ => rfl) (fun _ _ => rfl) (fun _ _ => rfl),
    flagField_byFields .fastdrop (fun _ => rfl) (fun _ _ => rfl) (fun _ _ => rfl),
    flagField_byFields .fasttrash (fun _ => rfl) (fun _ _ => rfl) (fun _ _ => rfl),
    flagField_byFields .visualspin (fun _ => rfl) (fun _ _ => rfl) (fun _ _ => rfl),
    flagField_byFields .fastmmode (fun _ => rfl) (fun _ _ => rfl) (fun _ _ => rfl),
    flagField_byFields .taxsystem (fun _ => rfl) (fun _ _ => rfl) (fun _ _ => rfl),
    wltrollField_byFields,
    numberField_byFields .yuzde (fun _ => rfl) fun _ =>
      modifySettings_byFields (fun _ => rfl) (fun _ => rfl),
    numberField_byFields .ruletsayi (fun _ => rfl) fun _ =>
      modifySettings_byFields (fun _ => rfl) (fun _ => rfl),
    flagField_byFields .dicespeed (fun _ => rfl) (fun _ _ => rfl) (fun _ _ => rfl),
    worldbanjoinmodField_byFields,
    flagField_byFields .wrenchpull (fun _ => rfl) (fun _ _ => rfl) (fun _ _ => rfl),
    flagField_byFields .autohosts (fun _ => rfl) (fun _ _ => rfl) (fun _ _ => rfl),
    countryField_byFields, optionsButton_keeps packet, posxField_byFields,
    saveworldField_byFields, posyField_byFields, modeButton_byFields _ _,
    modeButton_byFields _ _, modeButton_byFields _ _,
    inputField_byFields .iditemm (fun _ => rfl) fun _ =>
      modifySettings_byFields (fun _ => rfl) (fun _ => rfl),
    worldButton_keeps _ _ packet, worldButton_keeps _ _ packet, worldButton_keeps _ _ packet,
    unbanButton_keeps packet, List.forall_mem_nil _⟩

/-! ## Chat -/

/-- The packet of a chat message. -/
def chatPacket (chat : Bytes) : Bytes := ascii "action|input\n|text|" ++ chat

/-- The commands of both chains. -/
def commandNames : List String := (firstCommands [] ++ secondCommands []).map Prod.fst

/-- The message starts with a slash and the name of a command. -/
def IsCommand (chat : Bytes) : Prop := ∃ name ∈ commandNames, ascii "/" ++ ascii name <+: chat

instance (chat : Bytes) : Decidable (IsCommand chat) := inferInstanceAs (Decidable (∃ _ ∈ _, _))

section Chat

variable {I : Settings → Prop} {chat : Bytes}

/-- A trigger in the packet is a trigger in the message. -/
theorem contains_chatPacket (setting : Setting) (chat : Bytes) :
    contains (chatPacket chat) (ascii setting.trigger) = contains chat (ascii setting.trigger) := by
  refine Seq.find_append_isSome ?_ chat
  cases setting <;> decide

theorem pairs_chatPacket (chat : Bytes) : ∃ line pairs, line <+: chat ∧
    (Rtvar.parse (chatPacket chat)).mPairs =
      Pair.parse (ascii "action|input") :: Pair.parse (ascii "|text|" ++ line) :: pairs := by
  obtain ⟨line, lines, hlines, hline⟩ :=
    @Seq.getlines_append _ _ newline (ascii "|text|") (by decide) (by decide) chat
  have hsplit : chatPacket chat = ascii "action|input" ++ newline :: (ascii "|text|" ++ chat) := rfl
  refine ⟨line, lines.map Pair.parse, hline, ?_⟩
  rw [Rtvar.parse_eq, hsplit, Seq.getlines_append_cons (by decide), hlines]
  rfl

/-- The chat line that the commands are compared with is a prefix of the message. -/
theorem prefix_of_valueAt {line value : Bytes}
    (hvalue : (Pair.parse (ascii "|text|" ++ line)).valueAt 1 = .ok value) : value <+: line := by
  have htokens : Seq.getlines bar (ascii "|text|" ++ line) =
      [] :: ascii "text" :: Seq.getlines bar line := by
    have hsplit : ascii "|text|" ++ line = [] ++ bar :: (ascii "text" ++ bar :: line) := rfl
    rw [hsplit, Seq.getlines_append_cons List.not_mem_nil, Seq.getlines_append_cons (by decide)]
  rw [Pair.parse_of_tokens htokens] at hvalue
  cases hrest : Seq.getlines bar line with
  | nil =>
      rw [hrest] at hvalue
      cases hvalue
  | cons token tokens =>
      rw [hrest] at hvalue
      cases hvalue
      exact Seq.getlines_head_prefix hrest

theorem findCommand_none {name : String} (hother : ¬ ascii "/" ++ ascii name <+: chat) :
    findCommand chat (ascii name) = return false := by
  unfold findCommand
  rw [if_neg fun hfound => hother (Seq.find_eq_zero_iff.mp hfound)]

/-- A chain without the command goes on to its end. -/
theorem commandChain_none {otherwise : Handler Bool} {commands : List (String × Handler Bool)}
    (hother : ∀ command ∈ commands, ¬ ascii "/" ++ ascii command.1 <+: chat) :
    commandChain chat otherwise commands = otherwise := by
  induction commands with
  | nil => rfl
  | cons command commands ih =>
      rw [List.forall_mem_cons] at hother
      rw [commandChain, findCommand_none hother.1]
      exact ih hother.2

theorem autopullChat_keeps (packet : Bytes) : KeepsSettings I (autopullChat packet) := by
  refine .ite (fun _ => .pure true) (.ite (fun _ => .lift_bind fun str _ => ?_) (.pure true))
  exact .bind (.sendServer _) fun _ => .pure true

theorem chatLine_keeps (packet : Bytes) (hother : ¬ IsCommand chat) :
    KeepsSettings I (chatLine packet chat) := by
  have hnames (command : String × Handler Bool)
      (hcommand : command ∈ firstCommands chat ++ secondCommands chat) :
      ¬ ascii "/" ++ ascii command.1 <+: chat := by
    intro hstart
    have hname : command.1 ∈ (firstCommands chat ++ secondCommands chat).map Prod.fst :=
      List.mem_map_of_mem hcommand
    exact hother ⟨command.1, hname, hstart⟩
  rw [chatLine, commandChain_none fun command hcommand =>
      hnames command (List.mem_append_left _ hcommand),
    commandChain_none fun command hcommand => hnames command (List.mem_append_right _ hcommand)]
  exact .bind .getSettings fun out => .ite (fun _ => autopullChat_keeps packet) (.pure false)

theorem inputText_keeps (hother : ¬ IsCommand chat) :
    KeepsSettings I (inputText (chatPacket chat) (Rtvar.parse (chatPacket chat))) := by
  refine .ite (fun _ => .pure false) (.lift_bind fun line hline => .bind .getWorld fun world => ?_)
  refine .ite (fun _ => .pure false) (.ite (fun _ => .pure false) (.lift_bind fun text htext => ?_))
  obtain ⟨body, pairs, hbody, hpairs⟩ := pairs_chatPacket chat
  unfold Rtvar.getIndex at hline
  rw [hpairs] at hline
  cases hline
  refine chatLine_keeps _ fun hcommand => hother ?_
  obtain ⟨name, hname, hstart⟩ := hcommand
  exact ⟨name, hname, hstart.trans ((prefix_of_valueAt htext).trans hbody)⟩

theorem wrenchText_keeps (packet : Bytes) : KeepsSettings I (Out.wrenchText packet) := by
  have hreply (mode : Bytes) (choice button : String) (netid : Bytes) :
      KeepsSettings I (Out.wrenchReply mode choice button netid) :=
    .ite (fun _ => .sendServer _) (.pure ())
  refine .bind (.sendServer _) fun _ => .lift_bind fun str _ => .lift_bind fun gta5 _ =>
    .bind .getSettings fun out => ?_
  exact .bind (hreply _ _ _ _) fun _ => .bind (hreply _ _ _ _) fun _ =>
    .bind (hreply _ _ _ _) fun _ => .bind (.sendVariant _ _ _ _) fun _ => .pure true

/-- A message that is no command keeps the settings whose triggers it lacks. -/
theorem generictext_chat_keeps {setting : Setting} {value : Value} (hother : ¬ IsCommand chat)
    (habsent : contains chat (ascii setting.trigger) = false) :
    KeepsSettings (fun out => setting.get out = value) (Out.generictext (chatPacket chat)) := by
  have hsections : KeepsSettings (fun out => setting.get out = value)
      (runSections (chatPacket chat) formSections) := by
    intro state hstate
    have hafter := formSections_byFields (chatPacket chat) state.out state fun _ => .inl rfl
    rcases hafter setting with hsame | hasked
    · exact hsame.trans hstate
    · rw [Setting.Asked, contains_chatPacket, habsent] at hasked
      cases hasked.1
  refine .ite (fun _ => .pure false) (.bind hsections fun _ => .bind .getSettings fun out => ?_)
  refine .ite (fun _ => wrenchText_keeps _) (.lift_bind fun head hhead => ?_)
  obtain ⟨line, pairs, -, hpairs⟩ := pairs_chatPacket chat
  unfold Rtvar.getIndex at hhead
  rw [hpairs] at hhead
  cases hhead
  rw [if_pos (by decide)]
  exact inputText_keeps hother

end Chat

/-! ## Any text -/

/-- The sections change each setting only through its own field, and a chat message that is
no command changes none whose trigger it lacks. -/
theorem settings_byFields (packet : Bytes) (state : ProxyState) :
    ByFields packet state.out (finalState ((runSections packet formSections).code.run state)).out ∧
      ∀ chat, ¬ IsCommand chat → ∀ setting : Setting,
        contains chat (ascii setting.trigger) = false →
          setting.get (finalState ((Out.generictext (chatPacket chat)).code.run state)).out =
            setting.get state.out :=
  ⟨formSections_byFields packet state.out state fun _ => .inl rfl,
    fun _ hother _ habsent => generictext_chat_keeps hother habsent state rfl⟩

/-- A greeting does not switch fast drop. -/
theorem settings_byFields_greeting :
    Setting.fastdrop.get (finalState ((Out.generictext
      (chatPacket (ascii "hello"))).code.run {})).out = .flag false :=
  (settings_byFields [] {}).2 (ascii "hello") (by decide) .fastdrop (by decide)

/-- A chat message sets a setting, and the value of another field is stored. -/
theorem fields_without_keys :
    (¬ IsCommand (ascii "fastdrop|1") ∧
      ¬ ByKeys (chatPacket (ascii "fastdrop|1")) {} (finalState ((runSections
        (chatPacket (ascii "fastdrop|1")) formSections).code.run {})).out) ∧
      ¬ ByKeys (ascii "action|dialog_return\nsyntax|1\nautotax|0") {} (finalState ((runSections
        (ascii "action|dialog_return\nsyntax|1\nautotax|0") formSections).code.run {})).out := by
  refine ⟨⟨by decide, fun hkeys => ?_⟩, fun hkeys => ?_⟩
  · exact absurd (hkeys .fastdrop) (by decide +kernel)
  · exact absurd (hkeys .taxsystem) (by decide +kernel)

end SrmotionProxy.Events
