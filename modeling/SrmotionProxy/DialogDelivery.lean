/-
# Dialogs that reach the client

With the automatic options off, a dialog that comes in should go out once: as it came,
with more buttons, or with another text in its place. This module says which dialogs are
lost all the same.
-/

import SrmotionProxy.Calls
import SrmotionProxy.DialogRequest

namespace SrmotionProxy.Events.In

open SrmotionProxy.Lib SrmotionProxy.Proton SrmotionProxy.Handler SrmotionProxy.ENet

/-! ## What a dialog is shown as -/

/-- No option is on that answers dialogs. -/
structure Idle (flags : Flags) : Prop where
  resolvingUid2 : flags.resolvingUid2 = false
  wltroll : flags.wltroll = false
  dicemod : flags.dicemod = false
  taxsystem : flags.taxsystem = false
  fastdrop : flags.fastdrop = false
  fasttrash : flags.fasttrash = false
  wrenchpull : flags.wrenchpull = false
  worldbanjoinmod : flags.worldbanjoinmod = false

/-- The sum captcha. -/
def AsksHuman (content : Bytes) : Prop :=
  Shows content "set_default_color|`o" ∧
    Shows content "add_label_with_icon|big|`wAre you Human?``|left|206|"

/-- The dialog of a world lock. -/
def EditsLock (content : Bytes) : Prop :=
  Shows content "add_label_with_icon|big|`wEdit World Lock``|left|"

instance (content : Bytes) : Decidable (EditsLock content) := inferInstanceAs (Decidable (_ = true))

/-- The text that is shown in place of the dialog, and the delay. -/
def replacement (content : Bytes) : Option (Bytes × Int) :=
  let report := ascii "add_button|report_player|`wReport Player``|noflags|0|0|"
  let worlds := ascii "add_button|my_worlds|`$My Worlds``|noflags|0|0|"
  if contains content (ascii "add_label_with_icon|big|`wThe Growtopia Gazette``|left|5016|") then
    some (gazette, 0)
  else if contains content report then some (withButtons content report playerButtons, -1)
  else if contains content worlds then some (withButtons content worlds menuButtons, -1)
  else none

/-- Show the replacement, if there is one. -/
def showReplacement (varlist : VariantList) : Option (Bytes × Int) → Handler Bool
  | none => return false
  | some (text, delay) => do
      sendVariant true (varlist.modify 1 (Variant.setString text)) (-1) delay
      return true

/-- The list is that of a dialog. -/
def isDialog (list : VariantList) : Bool :=
  decide ((list 0).value = .string (ascii "OnDialogRequest"))

/-- The calls of a kind that were handed over and taken by the connection. -/
def acceptedCalls (kind : VariantList → Bool) (trace : List Call) : List (Peer × Bytes) :=
  trace.filterMap fun call =>
    match call with
    | .peerSend peer _ data code =>
        if code = 0 ∧ (callOf data).any (fun found => kind found.2) then some (peer, data) else none
    | _ => none

/-- The number of packets that have been sent when the dialog goes out: the log about a world
lock goes first. -/
def sendTick (content : Bytes) (state : ProxyState) : Nat :=
  if EditsLock content then state.tick + 1 else state.tick

/-- The packet in which the dialog, or what is shown in its place, goes out. -/
def shownPacket (struct : Bytes) (varlist : VariantList) : Except Abort Bytes :=
  match replacement (varlist 1).getString with
  | none => .ok struct
  | some (text, delay) =>
      callFunctionPacket (varlist.modify 1 (Variant.setString text)) (-1) delay

section Accepted

variable {kind : VariantList → Bool} {state : ProxyState} {source : Source} {peer : Peer}
  {host : Host} {data : Bytes}

theorem acceptedCalls_of_none (hnone : callOf data = none) :
    acceptedCalls kind (state.sendAndFlush source peer host data).trace =
      acceptedCalls kind state.trace := by
  rw [ProxyState.sendAndFlush, acceptedCalls, List.filterMap_cons_none rfl,
    List.filterMap_cons_none (by simp [hnone]), ← acceptedCalls]

theorem acceptedCalls_of_some {struct : Bytes} {list : VariantList}
    (hcall : callOf data = some (struct, list)) (hkind : kind list = true) :
    acceptedCalls kind (state.sendAndFlush source peer host data).trace =
      (if state.sendCode data = 0 then [(peer, data)] else []) ++
        acceptedCalls kind state.trace := by
  rw [ProxyState.sendAndFlush, acceptedCalls, List.filterMap_cons_none rfl]
  by_cases hcode : state.sendCode data = 0
  · rw [if_pos hcode, List.filterMap_cons_some
      (by simp only [hcode, hcall, hkind, Option.any_some, and_self, if_true]; rfl),
      ← acceptedCalls]
    rfl
  · rw [if_neg hcode, List.filterMap_cons_none (by simp [hcode]), ← acceptedCalls]
    rfl

end Accepted

section Idling

variable {varlist : VariantList} {state : ProxyState} {content : Bytes}

theorem length_withButtons_le {mark buttons : Bytes}
    (hcontent : content.length ≤ maximumPacketSize)
    (hbuttons : buttons.length ≤ maximumPacketSize) :
    (withButtons content mark buttons).length ≤ 32 * maximumPacketSize := by
  simp only [withButtons, List.length_append, List.length_take, List.length_drop]
  omega

theorem length_replacement_le (hcontent : content.length ≤ maximumPacketSize)
    {shown : Bytes × Int} (hshown : replacement content = some shown) :
    shown.1.length ≤ 32 * maximumPacketSize ∧ intMin ≤ shown.2 ∧ shown.2 ≤ intMax := by
  have hbuttons {literals : List String} (hshort : Short 200 literals)
      (hfew : literals.length ≤ 100) : (texts literals).length ≤ maximumPacketSize :=
    hshort.length_texts_le.trans (by unfold maximumPacketSize; omega)
  have hrange : intMin ≤ -1 ∧ -1 ≤ intMax := by decide
  unfold replacement at hshown
  dsimp only at hshown
  by_cases hgazette :
      Shows content "add_label_with_icon|big|`wThe Growtopia Gazette``|left|5016|"
  · rw [if_pos hgazette] at hshown
    cases hshown
    exact ⟨length_gazette_le, by decide, by decide⟩
  rw [if_neg hgazette] at hshown
  by_cases hreport : Shows content "add_button|report_player|`wReport Player``|noflags|0|0|"
  · rw [if_pos hreport] at hshown
    cases hshown
    exact ⟨length_withButtons_le hcontent
      (hbuttons (.cons (by decide) (.cons (by decide) .nil)) (by decide)), hrange⟩
  rw [if_neg hreport] at hshown
  by_cases hworlds : Shows content "add_button|my_worlds|`$My Worlds``|noflags|0|0|"
  · rw [if_pos hworlds] at hshown
    cases hshown
    exact ⟨length_withButtons_le hcontent
      (hbuttons (.cons (by decide) (.cons (by decide) (.cons (by decide) .nil))) (by decide)),
      hrange⟩
  · rw [if_neg hworlds] at hshown
    cases hshown

/-! ### The sections in turn -/

/-- A section that sends decides. -/
theorem firstDecision_sent (send : Handler Unit) (rest : List Section) (state : ProxyState) :
    (firstDecision ((do send; return some true) :: rest)).code.run state =
      (do send; return true : Handler Bool).code.run state := by
  cases hsend : send.code.run state with
  | ok value sent =>
      have hsection : (do send; return some true : Section).code.run state =
          .ok (some true) sent := run_bind_ok state hsend
      have hhandler : (do send; return true : Handler Bool).code.run state = .ok true sent :=
        run_bind_ok state hsend
      rw [firstDecision_decide hsection, hhandler]
  | error failure last =>
      have hsection : (do send; return some true : Section).code.run state =
          .error failure last := run_bind_error state hsend
      have hhandler : (do send; return true : Handler Bool).code.run state =
          .error failure last := run_bind_error state hsend
      rw [firstDecision_throw hsection, hhandler]

/-- Only the run of the first section matters. -/
theorem firstDecision_congr {part other : Section} {rest : List Section}
    (hsame : part.code.run state = other.code.run state) :
    (firstDecision (part :: rest)).code.run state =
      (firstDecision (other :: rest)).code.run state := by
  cases hother : other.code.run state with
  | error failure last =>
      rw [firstDecision_throw hother, firstDecision_throw (hsame.trans hother)]
  | ok decision last =>
      cases decision with
      | none => rw [firstDecision_pass hother, firstDecision_pass (hsame.trans hother)]
      | some verdict => rw [firstDecision_decide hother, firstDecision_decide (hsame.trans hother)]

/-- The handler behind the section about world locks. -/
theorem idle_tail (hidle : Idle (flagsOf state)) (hplain : ¬ AsksHuman (varlist 1).getString) :
    (firstDecision [dicemodSection (varlist 1).getString, captchaSection (varlist 1).getString,
      gazetteSection varlist (varlist 1).getString, taxSection varlist (varlist 1).getString,
      fastdropSection (varlist 1).getString, fastmmodeSection (varlist 1).getString,
      fasttrashSection (varlist 1).getString,
      wrenchSection varlist (varlist 1).getString]).code.run state =
      (showReplacement varlist (replacement (varlist 1).getString)).code.run state := by
  generalize (varlist 1).getString = content at hplain
  have hdice : (dicemodSection content).code.run state = .ok none state := by
    have hoff : state.out.dicemod = false := hidle.dicemod
    unfold dicemodSection
    rw [getSettings_bind, hoff, Bool.false_and, if_neg Bool.false_ne_true]
    rfl
  have hcaptcha : (captchaSection content).code.run state = .ok none state := by
    unfold captchaSection
    rw [if_neg (by rw [Bool.and_eq_true]; exact hplain)]
    rfl
  have htax : (taxSection varlist content).code.run state = .ok none state := by
    have hoff : state.out.taxsystem = false := hidle.taxsystem
    unfold taxSection
    rw [getSettings_bind, hoff, Bool.false_and, Bool.false_and]
    rfl
  have hdrop : (fastdropSection content).code.run state = .ok none state := by
    have hoff : state.out.fastdrop = false := hidle.fastdrop
    unfold fastdropSection
    rw [getSettings_bind, hoff]
    rfl
  have hmode : (fastmmodeSection content).code.run state = .ok none state := by
    have hoff : state.out.taxsystem = false := hidle.taxsystem
    unfold fastmmodeSection
    rw [getSettings_bind, hoff, Bool.false_and]
    rfl
  have htrash : (fasttrashSection content).code.run state = .ok none state := by
    have hoff : state.out.fasttrash = false := hidle.fasttrash
    unfold fasttrashSection
    rw [getSettings_bind, hoff]
    rfl
  have hpull : state.out.wrenchpull = false := hidle.wrenchpull
  rw [firstDecision_pass hdice, firstDecision_pass hcaptcha]
  have hwrench : (wrenchSection varlist content).code.run state =
      (if contains content
          (ascii "add_button|report_player|`wReport Player``|noflags|0|0|") then
        insertButtons varlist content
          (ascii "add_button|report_player|`wReport Player``|noflags|0|0|") playerButtons
      else if contains content (ascii "add_button|my_worlds|`$My Worlds``|noflags|0|0|") then
        insertButtons varlist content
          (ascii "add_button|my_worlds|`$My Worlds``|noflags|0|0|") menuButtons
      else return none : Section).code.run state := by
    unfold wrenchSection
    rw [getSettings_bind, hpull, if_neg Bool.false_ne_true]
    rfl
  by_cases hgazette :
      Shows content "add_label_with_icon|big|`wThe Growtopia Gazette``|left|5016|"
  · have hsection : gazetteSection varlist content = (do
        sendVariant true (varlist.modify 1 (Variant.setString gazette)) (-1) 0
        return some true) := if_pos hgazette
    rw [hsection, firstDecision_sent, replacement, if_pos hgazette]
    rfl
  have hpass : (gazetteSection varlist content).code.run state = .ok none state := by
    unfold gazetteSection
    rw [if_neg hgazette]
    rfl
  rw [firstDecision_pass hpass, firstDecision_pass htax, firstDecision_pass hdrop,
    firstDecision_pass hmode, firstDecision_pass htrash, firstDecision_congr hwrench, replacement,
    if_neg hgazette]
  by_cases hreport : Shows content "add_button|report_player|`wReport Player``|noflags|0|0|"
  · rw [if_pos hreport, if_pos hreport, insertButtons]
    exact firstDecision_sent ..
  rw [if_neg hreport, if_neg hreport]
  by_cases hworlds : Shows content "add_button|my_worlds|`$My Worlds``|noflags|0|0|"
  · rw [if_pos hworlds, if_pos hworlds, insertButtons]
    exact firstDecision_sent ..
  · rw [if_neg hworlds, if_neg hworlds]
    rfl

/-- The same client, the same calls, and one packet more for the dialog of a world lock. -/
structure Prepared (content : Bytes) (state middle : ProxyState) : Prop where
  sent : callView isDialog middle = callView isDialog state
  accepted : acceptedCalls isDialog middle.trace = acceptedCalls isDialog state.trace
  env : middle.env = state.env
  tick : middle.tick = sendTick content state

/-- The section about world locks sends a text, and remembers a tile. -/
theorem worldLockSection_run (hlength : content.length + 32 < 2 ^ 64)
    (htile : EditsLock content → TileReadable content)
    (hclient : (state.target true).isSome = true) :
    ∃ middle, (worldLockSection content).code.run state = .ok none middle ∧
      flagsOf middle = flagsOf state ∧ Prepared content state middle := by
  have hfine : ¬ (worldLockStage content (flagsOf state)).throws :=
    fun hthrows => hthrows.2 (htile hthrows.1)
  obtain ⟨middle, hrun, hflags⟩ := (worldLock_follows hlength).passes state hfine False.elim
  refine ⟨middle, hrun, hflags, ?_⟩
  unfold worldLockSection at hrun
  by_cases hlock : EditsLock content
  · have hmark : contains content
        (ascii "add_label_with_icon|big|`wEdit World Lock``|left|") = true := hlock
    obtain ⟨⟨peer, host⟩, htarget⟩ := Option.isSome_iff_exists.mp hclient
    rw [if_pos hmark] at hrun
    obtain ⟨_, logged, hlog, hrest⟩ := Confined.bind_eq_ok hrun
    cases (Handler.sendText_run htarget _ _).symm.trans hlog
    obtain ⟨_, _, hx, hrest⟩ := Confined.bind_eq_ok hrest
    obtain ⟨-, rfl⟩ := Confined.ofExcept_eq_ok hx
    obtain ⟨_, _, hstore, hrest⟩ := Confined.bind_eq_ok hrest
    cases hstore
    obtain ⟨_, _, hy, hrest⟩ := Confined.bind_eq_ok hrest
    obtain ⟨-, rfl⟩ := Confined.ofExcept_eq_ok hy
    obtain ⟨_, _, hstore, hrest⟩ := Confined.bind_eq_ok hrest
    cases hstore
    cases hrest
    have hcall : callOf (textPacket (ascii "action|log\nmsg|" ++ ascii "find world lock x,y path.")
        NET_MESSAGE_GAME_MESSAGE.toNat) = none := callOf_textPacket _ (by decide) (by decide)
    exact ⟨congrArg (Prod.mk (state.target true)) (sentCalls_of_none hcall),
      acceptedCalls_of_none hcall, rfl, by rw [sendTick, if_pos hlock]; rfl⟩
  · have hmark : ¬ contains content
        (ascii "add_label_with_icon|big|`wEdit World Lock``|left|") = true := hlock
    rw [if_neg hmark] at hrun
    cases hrun
    exact ⟨rfl, rfl, rfl, by rw [sendTick, if_neg hlock]⟩

/-- An idle handler swallows one dialog, throws at some, and shows the others. -/
theorem onDialogRequest_idle
    (hlength : (varlist 1).getString.length + 32 < 2 ^ 64) (hidle : Idle (flagsOf state))
    (hplain : ¬ AsksHuman (varlist 1).getString) :
    (Shows (varlist 1).getString "Are you sure you wish to stop ignoring" →
      (onDialogRequest varlist).code.run state = .ok true state) ∧
    (¬ Shows (varlist 1).getString "Are you sure you wish to stop ignoring" →
      EditsLock (varlist 1).getString → ¬ TileReadable (varlist 1).getString →
        ∃ failure last, (onDialogRequest varlist).code.run state = .error failure last) ∧
    (¬ Shows (varlist 1).getString "Are you sure you wish to stop ignoring" →
      (EditsLock (varlist 1).getString → TileReadable (varlist 1).getString) →
      (state.target true).isSome = true →
        ∃ middle, Prepared (varlist 1).getString state middle ∧
          (onDialogRequest varlist).code.run state =
            (showReplacement varlist (replacement (varlist 1).getString)).code.run middle) := by
  have hresolving (hkept : ¬ Shows (varlist 1).getString "Are you sure you wish to stop ignoring") :
      (resolvingSection (varlist 1).getString).code.run state = .ok none state := by
    have hanswers (label : String) :
        ¬ Answers (flagsOf state) (varlist 1).getString label := fun hanswer => by
      rw [Answers, hidle.resolvingUid2] at hanswer
      exact Bool.false_ne_true hanswer.1
    have hban : ¬ state.out.worldbanjoinmod = true := by
      have hoff : state.out.worldbanjoinmod = false := hidle.worldbanjoinmod
      rw [hoff]
      exact Bool.false_ne_true
    rw [resolvingSection_run, if_neg, if_neg (hanswers _), if_neg (hanswers _), if_neg hban, ite_id]
    · rfl
    · rintro (⟨hresolving, -⟩ | hignoring)
      · rw [hidle.resolvingUid2] at hresolving
        exact Bool.false_ne_true hresolving
      · exact hkept hignoring
  have hwltroll : (wltrollSection (varlist 1).getString).code.run state = .ok none state := by
    have hoff : state.out.wltroll = false := hidle.wltroll
    unfold wltrollSection
    rw [getSettings_bind, hoff, Bool.false_and, if_neg Bool.false_ne_true]
    rfl
  refine ⟨fun hignoring => ?_, fun hkept hlock htile => ?_, fun hkept htile hclient => ?_⟩
  · apply firstDecision_decide
    rw [resolvingSection_run, if_pos (.inr hignoring)]
    rfl
  · obtain ⟨failure, last, hthrows⟩ := (worldLock_follows hlength).throws state ⟨hlock, htile⟩
    refine ⟨failure, last, ?_⟩
    unfold onDialogRequest
    dsimp only
    rw [firstDecision_pass (hresolving hkept), firstDecision_pass hwltroll,
      firstDecision_throw hthrows]
  · obtain ⟨middle, hpass, hflags, hprepared⟩ := worldLockSection_run hlength htile hclient
    refine ⟨middle, hprepared, ?_⟩
    unfold onDialogRequest
    dsimp only
    rw [firstDecision_pass (hresolving hkept), firstDecision_pass hwltroll,
      firstDecision_pass hpass, idle_tail (hflags ▸ hidle) hplain]

end Idling

/-! ## Delivery -/

/-- One dialog is handed over for the client and taken by its connection: the one received, if
the handler lets it pass, or else one that the handler has sent. -/
def DeliversOne (packet struct : Bytes) (state : ProxyState) : Prop :=
  ∃ peer host flow after data verdict middle, state.target true = some (peer, host) ∧
    (Server.incomingPacket packet).run state = .ok flow after ∧
    sentCalls isDialog after.trace = (peer, data) :: sentCalls isDialog state.trace ∧
    acceptedCalls isDialog after.trace = (peer, data) :: acceptedCalls isDialog state.trace ∧
    (variantlist struct).run state = .ok verdict middle ∧
    sentCalls isDialog middle.trace =
      (if verdict then [(peer, data)] else []) ++ sentCalls isDialog state.trace ∧
    (verdict = false → data = struct)

/-- The dialogs that are not lost. -/
def Survives (content : Bytes) : Prop :=
  ¬ Shows content "Are you sure you wish to stop ignoring" ∧
    (EditsLock content → TileReadable content)

/-- The client's connection takes the packet that goes out. -/
def Accepted (struct : Bytes) (varlist : VariantList) (state : ProxyState) : Prop :=
  ∃ data, shownPacket struct varlist = .ok data ∧
    (state.env.peerView (sendTick (varlist 1).getString state)).Accepts 0 data.length

section Delivering

variable {packet struct : Bytes} {varlist : VariantList} {state middle : ProxyState}

theorem incomingPacket_consumed (hcall : callOf packet = some (struct, varlist))
    (hrun : (variantlist struct).run state = .ok true middle) :
    (Server.incomingPacket packet).run state =
      .ok .leave { middle with trace := .packetDestroy :: middle.trace } := by
  rw [incomingPacket_call hcall]
  exact run_bind_ok state hrun

theorem incomingPacket_forwarded (hcall : callOf packet = some (struct, varlist))
    (hrun : (variantlist struct).run state = .ok false middle) {peer : Peer} {host : Host}
    (htarget : middle.target true = some (peer, host)) :
    (Server.incomingPacket packet).run state =
      .ok .again (middle.sendAndFlush .received peer host struct) := by
  rw [incomingPacket_call hcall]
  exact (run_bind_ok state hrun).trans (Server.forward_run htarget struct)

/-- The connection decides on the state in which the dialog goes out as on the one in which it
came. -/
theorem sendCode_prepared {content data : Bytes} (hprepared : Prepared content state middle) :
    middle.sendCode data = 0 ↔
      (state.env.peerView (sendTick content state)).Accepts 0 data.length := by
  rw [ProxyState.sendCode, hprepared.env, hprepared.tick, enetPeerSend_eq_zero_iff]

/-- A dialog that one call is sent for is delivered if the connection takes this call. -/
theorem deliversOne_iff_code {peer : Peer} {host : Host} {flow : Server.Flow} {verdict : Bool}
    {data : Bytes} {after last : ProxyState} (htarget : state.target true = some (peer, host))
    (hrun : (Server.incomingPacket packet).run state = .ok flow after)
    (hsent : sentCalls isDialog after.trace = (peer, data) :: sentCalls isDialog state.trace)
    (haccepted : acceptedCalls isDialog after.trace =
      (if middle.sendCode data = 0 then [(peer, data)] else []) ++
        acceptedCalls isDialog state.trace)
    (hverdict : (variantlist struct).run state = .ok verdict last)
    (hlast : sentCalls isDialog last.trace =
      (if verdict then [(peer, data)] else []) ++ sentCalls isDialog state.trace)
    (hsame : verdict = false → data = struct) :
    DeliversOne packet struct state ↔ middle.sendCode data = 0 := by
  constructor
  · rintro ⟨other, _, _, final, given, _, _, -, hfinal, -, htaken, -⟩
    cases hrun.symm.trans hfinal
    by_contra hrefused
    rw [haccepted, if_neg hrefused, List.nil_append] at htaken
    exact absurd htaken.symm (List.cons_ne_self _ _)
  · intro hcode
    rw [if_pos hcode] at haccepted
    exact ⟨peer, host, flow, after, data, verdict, last, htarget, hrun, hsent, haccepted, hverdict,
      hlast, hsame⟩

/-- What is shown reaches the client once if its connection takes it. -/
theorem deliversOne_shown_iff (hlength : packet.length ≤ maximumPacketSize)
    (hcall : callOf packet = some (struct, varlist))
    (hname : (varlist 0).value = .string (ascii "OnDialogRequest"))
    (hrun : (variantlist struct).run state =
      (showReplacement varlist (replacement (varlist 1).getString)).code.run middle)
    (hprepared : Prepared (varlist 1).getString state middle)
    (hclient : (state.target true).isSome = true) :
    DeliversOne packet struct state ↔ Accepted struct varlist state := by
  have hlist := (callOf_bounded hcall).mono hlength
  obtain ⟨⟨peer, host⟩, htarget⟩ := Option.isSome_iff_exists.mp hclient
  have htargetMiddle : middle.target true = some (peer, host) :=
    (congrArg Prod.fst hprepared.sent).trans htarget
  have hcalls : sentCalls isDialog middle.trace = sentCalls isDialog state.trace :=
    congrArg Prod.snd hprepared.sent
  have hdialog : isDialog varlist = true := decide_eq_true hname
  rw [Accepted, shownPacket]
  cases hshown : replacement (varlist 1).getString with
  | none =>
      rw [hshown] at hrun
      have hpass : (variantlist struct).run state = .ok false middle := hrun
      have hdelivers : DeliversOne packet struct state ↔ middle.sendCode struct = 0 :=
        deliversOne_iff_code htarget
          (incomingPacket_forwarded hcall hpass htargetMiddle)
          ((sentCalls_of_some (callOf_again hcall) hdialog).trans (by rw [hcalls]))
          ((acceptedCalls_of_some (callOf_again hcall) hdialog).trans (by rw [hprepared.accepted]))
          hpass hcalls fun _ => rfl
      rw [hdelivers, sendCode_prepared hprepared]
      simp
  | some shown =>
      obtain ⟨hfits, hdelay⟩ := length_replacement_le (hlist.2 1) hshown
      obtain ⟨data, hdata, built, sent, hbuilt, hvalues, -⟩ :=
        @withText_isCall varlist (-1) shown.2 hlist shown.1 hfits (by decide) hdelay
      have hsent : isDialog sent = true := decide_eq_true
        ((congrFun hvalues 0).trans (by rw [VariantList.values, VariantList.modify_of_ne _ _
          (by decide : (0 : Fin 7) ≠ 1), hname]))
      have hdecide : (variantlist struct).run state =
          .ok true (middle.sendAndFlush .built peer host data) := by
        rw [hrun, hshown]
        exact run_bind_ok middle (Handler.sendVariant_run htargetMiddle hdata)
      have hone : sentCalls isDialog (middle.sendAndFlush .built peer host data).trace =
          (peer, data) :: sentCalls isDialog state.trace := by
        rw [sentCalls_of_some hbuilt hsent, hcalls]
      have htaken : acceptedCalls isDialog (middle.sendAndFlush .built peer host data).trace =
          (if middle.sendCode data = 0 then [(peer, data)] else []) ++
            acceptedCalls isDialog state.trace := by
        rw [acceptedCalls_of_some hbuilt hsent, hprepared.accepted]
      rw [deliversOne_iff_code htarget (incomingPacket_consumed hcall hdecide) hone htaken hdecide
        hone (fun hpassed => by cases hpassed), sendCode_prepared hprepared]
      dsimp only
      rw [hdata]
      simp

/-- A dialog that is swallowed without a word is lost. -/
theorem not_deliversOne (hcall : callOf packet = some (struct, varlist))
    (hswallowed : (variantlist struct).run state = .ok true state) :
    ¬ DeliversOne packet struct state := by
  rintro ⟨peer, host, flow, after, data, verdict, middle, -, hrun, hone, -⟩
  cases (incomingPacket_consumed hcall hswallowed).symm.trans hrun
  exact absurd hone.symm (List.cons_ne_self _ _)

/-- With the options off, a dialog other than the captcha reaches the client exactly once if
there is a client, the dialog does not ask whether to stop ignoring somebody, the tile can be
read from it if it is that of a world lock, and the connection takes the packet that goes out. -/
theorem deliversOne_iff (hlength : packet.length ≤ maximumPacketSize)
    (hcall : callOf packet = some (struct, varlist))
    (hname : (varlist 0).value = .string (ascii "OnDialogRequest"))
    (hidle : Idle (flagsOf state)) (hplain : ¬ AsksHuman (varlist 1).getString) :
    DeliversOne packet struct state ↔
      (state.target true).isSome = true ∧ Survives (varlist 1).getString ∧
        Accepted struct varlist state := by
  obtain ⟨-, -, hdecode⟩ := callOf_eq_some.mp hcall
  have hshort : (varlist 1).getString.length + 32 < 2 ^ 64 := by
    have hslot := ((callOf_bounded hcall).mono hlength).2 1
    rw [← Variant.getString] at hslot
    unfold maximumPacketSize at hslot
    omega
  have hhandler : (variantlist struct).run state = (onDialogRequest varlist).code.run state := by
    rw [Relayed.onDialogRequest.variantlist_run hdecode (getString_of_value hname)]
    rfl
  obtain ⟨hswallows, hthrows, hshows⟩ := @onDialogRequest_idle varlist state hshort hidle hplain
  have hshown (hclient : (state.target true).isSome = true)
      (hsurvives : Survives (varlist 1).getString) :
      DeliversOne packet struct state ↔ Accepted struct varlist state := by
    obtain ⟨middle, hprepared, hrun⟩ := hshows hsurvives.1 hsurvives.2 hclient
    exact deliversOne_shown_iff hlength hcall hname (hhandler.trans hrun) hprepared hclient
  constructor
  · intro hdelivers
    have hkept : ¬ Shows (varlist 1).getString "Are you sure you wish to stop ignoring" :=
      fun hignoring => not_deliversOne hcall (hhandler.trans (hswallows hignoring)) hdelivers
    obtain ⟨peer, host, flow, after, data, verdict, middle, htarget, -, -, -, hverdict, -⟩ :=
      id hdelivers
    have hclient : (state.target true).isSome = true := by rw [htarget]; rfl
    have htile : EditsLock (varlist 1).getString → TileReadable (varlist 1).getString := by
      intro hlock
      by_contra htile
      obtain ⟨failure, last, hfails⟩ := hthrows hkept hlock htile
      cases (hhandler.trans hfails).symm.trans hverdict
    exact ⟨hclient, ⟨hkept, htile⟩, (hshown hclient ⟨hkept, htile⟩).mp hdelivers⟩
  · rintro ⟨hclient, hsurvives, haccepted⟩
    exact (hshown hclient hsurvives).mpr haccepted

end Delivering

/-- A proxy with a client, and nothing switched on. -/
def showingState : ProxyState where
  server := { mGtPeer := some ⟨0, 0⟩, mProxyServer := some 0 }

theorem showingState_idle : Idle (flagsOf showingState) where
  resolvingUid2 := rfl
  wltroll := rfl
  dicemod := rfl
  taxsystem := rfl
  fastdrop := rfl
  fasttrash := rfl
  wrenchpull := rfl
  worldbanjoinmod := rfl

/-- A small dialog gets through. -/
theorem deliversOne_tiny : ∃ packet struct varlist, callOf packet = some (struct, varlist) ∧
    (varlist 1).getString = ascii "hi" ∧ DeliversOne packet struct showingState := by
  obtain ⟨packet, -, hlength, struct, varlist, hcall, hvalues, -⟩ :=
    @callFunctionPacket_received tinyDialog (-1) 0 (by decide) (by decide) (by decide) (by decide)
  have hcontent : (varlist 1).getString = ascii "hi" :=
    getString_of_value ((congrFun hvalues 1).trans rfl)
  refine ⟨packet, struct, varlist, hcall, hcontent,
    (deliversOne_iff hlength hcall ((congrFun hvalues 0).trans rfl) showingState_idle ?_).mpr
      ⟨rfl, ⟨?_, ?_⟩, struct, ?_, ?_⟩⟩
  · rw [hcontent]
    exact fun hasks => not_shows_ofList (by decide) hasks.1
  · rw [hcontent]
    exact not_shows_ofList (by decide)
  · rw [hcontent]
    exact fun hlock => absurd hlock (not_shows_ofList (by decide))
  · rw [shownPacket, hcontent, replacement, if_neg (not_shows_ofList (by decide)),
      if_neg (not_shows_ofList (by decide)), if_neg (not_shows_ofList (by decide))]
  · obtain ⟨hstruct, -, -⟩ := callOf_eq_some.mp hcall
    have hview (tick : Nat) : showingState.env.peerView tick = {} := rfl
    have hlimit : fragmentLength {} = 1368 := by decide
    rw [(Server.structOf_sameOutside hstruct).2.length, hview]
    refine ⟨rfl, by decide, hlength, .inr ?_, rfl⟩
    rw [hlimit]
    unfold maximumPacketSize at hlength
    unfold ENET_PROTOCOL_MAXIMUM_FRAGMENT_COUNT
    omega

/-- The question about ignoring somebody. -/
def ignoringDialog : VariantList :=
  (VariantList.ofString (ascii "OnDialogRequest")).modify 1
    (Variant.setString (ascii "Are you sure you wish to stop ignoring"))

/-- It is lost. -/
theorem ignoringDialog_lost : ∃ packet struct varlist, callOf packet = some (struct, varlist) ∧
    (varlist 0).value = .string (ascii "OnDialogRequest") ∧
    (varlist 1).getString = ascii "Are you sure you wish to stop ignoring" ∧
    ¬ AsksHuman (varlist 1).getString ∧ ¬ DeliversOne packet struct showingState := by
  obtain ⟨packet, -, -, struct, varlist, hcall, hvalues, -⟩ :=
    @callFunctionPacket_received ignoringDialog (-1) 0 (by decide) (by decide) (by decide)
      (by decide)
  have hname : (varlist 0).value = .string (ascii "OnDialogRequest") :=
    (congrFun hvalues 0).trans rfl
  have hcontent : (varlist 1).getString = ascii "Are you sure you wish to stop ignoring" :=
    getString_of_value ((congrFun hvalues 1).trans rfl)
  have hplain : ¬ AsksHuman (varlist 1).getString := by
    rw [hcontent]
    exact fun hasks => not_shows_ofList (by decide) hasks.1
  refine ⟨packet, struct, varlist, hcall, hname, hcontent, hplain, ?_⟩
  obtain ⟨-, -, hdecode⟩ := callOf_eq_some.mp hcall
  have hshows : Shows (varlist 1).getString "Are you sure you wish to stop ignoring" := by
    rw [hcontent]
    exact Seq.find_isSome_iff.mpr List.infix_rfl
  have hshort : (varlist 1).getString.length + 32 < 2 ^ 64 := by
    rw [hcontent, ascii, List.length_map]
    decide
  have hswallowed : (variantlist struct).run showingState = .ok true showingState := by
    rw [Relayed.onDialogRequest.variantlist_run hdecode (getString_of_value hname)]
    exact (@onDialogRequest_idle varlist showingState hshort showingState_idle hplain).1
      hshows
  exact not_deliversOne hcall hswallowed

end SrmotionProxy.Events.In
