/-
# The arguments of commands

Eight commands take an argument, which each cuts out of the chat line at an offset of
its own. This module states what the commands do with the argument they were given, and
compares it with what `generictext` does with the line.
-/

import SrmotionProxy.Chat
import SrmotionProxy.Framing
import SrmotionProxy.Proton.RtvarNumbers

namespace SrmotionProxy.Events

open SrmotionProxy.Lib SrmotionProxy.ENet SrmotionProxy.Proton SrmotionProxy.Handler

/-- The line that the player types. -/
def commandChat (word : String) (argument : Bytes) : Bytes :=
  ascii "/" ++ ascii word ++ argument

/-! ## Commands with a text -/

inductive TextCommand
  | name | tp | warp | uid
  deriving DecidableEq

namespace TextCommand

/-- The command as it stands in its chain. -/
def word : TextCommand → String
  | name => "name "
  | tp => "tp "
  | warp => "warp "
  | uid => "uid "

/-- The command, done with the argument itself. -/
def act (argument : Bytes) : TextCommand → Handler Bool
  | name => do
      let name := ascii "``" ++ argument ++ ascii "``"
      let va := (VariantList.ofString (ascii "OnNameChanged")).modify 1 (Variant.setString name)
      let world ← getWorld
      sendVariant true va world.localPlayer.netid (-1)
      sendLog (ascii "name set to: " ++ name)
      return true
  | tp => do
      let world ← getWorld
      tpLoop (lower argument) world.players
      return true
  | warp => do
      joinRequest argument
      sendLog (ascii "`9Warping to `#" ++ argument)
      return true
  | uid => do
      sendLog (ascii "resolving uid for " ++ argument)
      sendServer (ascii "action|input\n|text|/ignore /" ++ argument)
      sendServer (ascii "action|friends")
      modifyGt fun gt => { gt with resolvingUid2 := true }
      return true

/-- The command as `generictext` runs it, given the line. -/
def handler (chat : Bytes) : TextCommand → Handler Bool
  | name => nameCommand chat
  | tp => tpCommand chat
  | warp => warpCommand chat
  | uid => uidCommand chat

end TextCommand

/-! ## Commands with a number -/

inductive NumberCommand
  | flag | setuid | dset | skin
  deriving DecidableEq

/-- The argument is a decimal number in the range of `int`. -/
def Denotes (argument : Bytes) (number : Int) : Prop :=
  intMin ≤ number ∧ number ≤ intMax ∧ ∃ numeral : Numeral, number = numeral.value ∧
    (argument = numeral.text ∨ numeral.negative = false ∧ argument = 43 :: numeral.text)

namespace NumberCommand

def word : NumberCommand → String
  | flag => "flag "
  | setuid => "setuid "
  | dset => "dset "
  | skin => "skin "

/-- The command as `generictext` runs it, given the line. -/
def handler (chat : Bytes) : NumberCommand → Handler Bool
  | flag => flagCommand chat
  | setuid => setuidCommand chat
  | dset => dsetCommand chat
  | skin => skinCommand chat

/-- The least number that the command can use; `/dset` counts from zero. -/
def least : NumberCommand → Int
  | dset => intMin + 1
  | _ => intMin

/-- The command, done with the number; `/dset` repeats the argument in its log line. -/
def act (argument : Bytes) (number : Int) : NumberCommand → Handler Bool
  | flag => do
      let va := VariantList.ofString (ascii "OnGuildDataChanged")
      let va := va.modify 1 (Variant.setInt32 1)
      let va := va.modify 2 (Variant.setInt32 2)
      let va := va.modify 3 (Variant.setInt32 (UInt32.ofInt number))
      let va := va.modify 4 (Variant.setInt32 3)
      let world ← getWorld
      sendVariant true va world.localPlayer.netid (-1)
      sendLog (ascii "flag set to item id: " ++ toDecimal number)
      return true
  | setuid => do
      modifySettings fun out => { out with uidz := number }
      sendLog (ascii "`9Target UID Successfuly set to `#" ++ toDecimal number)
      return true
  | dset => do
      modifySettings fun out => { out with sayi := number - 1 }
      sendLog (ascii "`9Number set to `# " ++ argument)
      return true
  | skin => do
      let va := (VariantList.ofString (ascii "OnChangeSkin")).modify 1
        (Variant.setInt32 (UInt32.ofInt number))
      let world ← getWorld
      sendVariant true va world.localPlayer.netid (-1)
      return true

end NumberCommand

/-! ## Both kinds -/

inductive ArgumentCommand
  | text (command : TextCommand)
  | number (command : NumberCommand)
  deriving DecidableEq

/-- `generictext` echoes the line and does `action`. A line with `roulette5` in it is
complained about first, whatever it asks for. -/
def Does (chat : Bytes) (action : Handler Bool) (state : ProxyState) : Prop :=
  (Out.generictext (chatPacket chat)).code.run state =
    (do
      complaint chat
      sendLog (ascii "`6" ++ chat)
      action : Handler Bool).code.run state

/-- The command acts on the argument itself. -/
def ActsOn (argument : Bytes) (state : ProxyState) : ArgumentCommand → Prop
  | .text command => Does (commandChat command.word argument) (command.act argument) state
  | .number command => ∀ number, Denotes argument number → command.least ≤ number →
      Does (commandChat command.word argument) (command.act argument number) state

/-- Neither side has a peer, so nothing that is sent leaves the proxy. -/
def Unlinked (state : ProxyState) : Prop :=
  state.target false = none ∧ state.target true = none

section Arguments

variable {argument : Bytes} {state : ProxyState}

/-! ## What the handlers cut out -/

/-- All but `/warp` cut out the argument itself. -/
theorem TextCommand.handler_run {command : TextCommand} (hother : command ≠ .warp)
    (argument : Bytes) (state : ProxyState) :
    (command.handler (commandChat command.word argument)).code.run state =
      (command.act argument).code.run state := by
  cases command with
  | name => exact lift_bind_run_ok (substrFrom_append rfl) _
  | tp => exact lift_bind_run_ok (substrFrom_append rfl) _
  | warp => exact absurd rfl hother
  | uid => exact lift_bind_run_ok (substrFrom_append rfl) _

/-- `/warp` keeps the blank in front of the argument. -/
theorem warpCommand_run (argument : Bytes) (state : ProxyState) :
    (warpCommand (commandChat "warp " argument)).code.run state =
      (TextCommand.act (32 :: argument) .warp).code.run state :=
  lift_bind_run_ok (@substrFrom_append (ascii "/warp") (32 :: argument) 5 rfl) _

namespace Denotes

variable {number : Int}

theorem leadingInteger_eq (hdenotes : Denotes argument number) :
    leadingInteger argument = some number := by
  obtain ⟨-, -, numeral, rfl, rfl | ⟨hpositive, rfl⟩⟩ := hdenotes
  · exact numeral.leadingInteger_text
  · rw [Numeral.text, Numeral.value, hpositive]
    exact leadingInteger_plus numeral.digits_ne_nil numeral.decimal

theorem stoi_eq (hdenotes : Denotes argument number) : stoi argument = .ok number := by
  rw [stoi, hdenotes.leadingInteger_eq]
  exact if_pos ⟨hdenotes.1, hdenotes.2.1⟩

/-- A blank in front does not change the number. -/
theorem stoi_blank (hdenotes : Denotes argument number) : stoi (32 :: argument) = .ok number := by
  rw [stoi_space (by decide), hdenotes.stoi_eq]

/-- A number has no letters. -/
theorem letter_not_mem (hdenotes : Denotes argument number) {letter : UInt8}
    (hletter : isDigit letter = false) (hsign : letter ≠ 45 ∧ letter ≠ 43 ∧ letter ≠ 32) :
    letter ∉ 32 :: argument := by
  obtain ⟨-, -, numeral, -, hargument⟩ := hdenotes
  have hdigits : letter ∉ numeral.digits := by
    intro hmem
    rw [numeral.decimal letter hmem] at hletter
    cases hletter
  have htext : letter ∉ numeral.text := by
    unfold Numeral.text
    split
    · exact List.not_mem_cons_of_ne_of_not_mem hsign.1 hdigits
    · exact hdigits
  apply List.not_mem_cons_of_ne_of_not_mem hsign.2.2
  rcases hargument with rfl | ⟨-, rfl⟩
  · exact htext
  · exact List.not_mem_cons_of_ne_of_not_mem hsign.2.1 htext

end Denotes

/-- A guarded conversion that succeeds is stored and reported. -/
theorem guarded_run {text : Bytes} {number : Int} (hread : stoi text = .ok number)
    (update : Int → Settings → Settings) (log : Int → Bytes) (handler : Handler Unit)
    (state : ProxyState) :
    (catchException
      (do
        let value ← lift (stoi text)
        modifySettings (update value)
        sendLog (log value))
      handler).code.run state =
    (do
      modifySettings (update number)
      sendLog (log number) : Handler Unit).code.run state := by
  obtain ⟨after, hlog, -⟩ :=
    sendLog_run (log number) { state with out := update number state.out }
  have hbody : (do
      modifySettings (update number)
      sendLog (log number) : Handler Unit).code.run state = .ok () after := hlog
  rw [hbody]
  exact catchException_run_ok ((lift_bind_run_ok hread _).trans hbody)

theorem setuid_run {number : Int} (hdenotes : Denotes argument number) (state : ProxyState) :
    (setuidCommand (commandChat "setuid " argument)).code.run state =
      (NumberCommand.act argument number .setuid).code.run state := by
  have hlower : (114 : UInt8) ∉ 32 :: argument := hdenotes.letter_not_mem (by decide) (by decide)
  have hupper : (82 : UInt8) ∉ 32 :: argument := hdenotes.letter_not_mem (by decide) (by decide)
  have howner : contains (32 :: argument) (ascii "owner") = false :=
    contains_of_free hlower (by decide)
  have hcurrent : (contains (32 :: argument) (ascii "current") ||
      contains (32 :: argument) (ascii "Current") ||
      contains (32 :: argument) (ascii "CURRENT")) = false := by
    rw [contains_of_free hlower (by decide), contains_of_free hlower (by decide),
      contains_of_free hupper (by decide)]
    rfl
  refine (lift_bind_run_ok
    (@substrFrom_append (ascii "/setuid") (32 :: argument) 7 rfl) _).trans ?_
  change (if contains (32 :: argument) (ascii "owner") = true then _ else if _ = true then _
    else _ : Handler Bool).code.run state = _
  rw [if_neg (by rw [howner]; decide), if_neg (by rw [hcurrent]; decide)]
  exact run_bind_congr (guarded_run hdenotes.stoi_blank
    (fun value out => { out with uidz := value }) _ _ _) _

theorem dset_run {number : Int} (hdenotes : Denotes argument number) (hleast : intMin < number)
    (state : ProxyState) :
    (dsetCommand (commandChat "dset " argument)).code.run state =
      (NumberCommand.act argument number .dset).code.run state := by
  have hwrap : wrapInt (number - 1) = number - 1 := by
    have hmin : (-2147483648 : Int) < number := hleast
    have hmax : number ≤ (2147483647 : Int) := hdenotes.2.1
    rw [wrapInt]
    omega
  unfold dsetCommand
  refine (run_bind_congr (guarded_run hdenotes.stoi_blank
    (fun value out => { out with sayi := wrapInt (value - 1) })
    (fun _ => ascii "`9Number set to `#" ++ 32 :: argument) _ state) _).trans ?_
  rw [hwrap]
  rfl

/-- The blank that three of the commands leave in front of the number does no harm. -/
theorem NumberCommand.handler_run {command : NumberCommand} {number : Int}
    (hdenotes : Denotes argument number) (hleast : command.least ≤ number) (state : ProxyState) :
    (command.handler (commandChat command.word argument)).code.run state =
      (command.act argument number).code.run state := by
  cases command with
  | flag =>
      refine (lift_bind_run_ok (substrFrom_append rfl) _).trans ?_
      rw [atoi_of_stoi hdenotes.stoi_eq]
      rfl
  | setuid => exact setuid_run hdenotes state
  | dset => exact dset_run hdenotes hleast state
  | skin =>
      refine (lift_bind_run_ok
        (@substrFrom_append (ascii "/skin") (32 :: argument) 5 rfl) _).trans ?_
      rw [atoi_of_stoi hdenotes.stoi_blank]
      rfl

/-! ## From the line to the handler -/

theorem names_free : ∀ name ∈ commandNames, bar ∉ ascii name ∧ newline ∉ ascii name := by
  decide +kernel

/-- A line with a command is one value if its argument is. -/
theorem oneValue_commandChat {name : String} (hname : name ∈ commandNames) (hbar : bar ∉ argument)
    (hnewline : newline ∉ argument) : OneValue (commandChat name argument) := by
  obtain ⟨hnameBar, hnameNewline⟩ := names_free name hname
  have hfree {symbol : UInt8} (hslash : symbol ≠ 47) (hname : symbol ∉ ascii name)
      (hargument : symbol ∉ argument) : symbol ∉ commandChat name argument := by
    intro hmem
    rcases List.mem_append.mp hmem with hmem | hmem
    · rcases List.mem_append.mp hmem with hmem | hmem
      · exact hslash (List.mem_singleton.mp hmem)
      · exact hname hmem
    · exact hargument hmem
  exact ⟨hfree (by decide) hnameBar hbar, hfree (by decide) hnameNewline hnewline,
    List.cons_ne_nil _ _⟩

/-- What is left of a line with a command: its handler, behind the complaint and the echo. -/
theorem does_iff {name : String} {handler : Handler Bool}
    (hcommand : (name, handler) ∈ firstCommands (commandChat name argument) ++
      secondCommands (commandChat name argument))
    (hbar : bar ∉ argument) (hnewline : newline ∉ argument)
    (hconnected : state.server.mWorld.connected = true) (hautopull : state.out.autopull = false) :
    ∃ after, after.server = state.server ∧ ∀ action,
      (Does (commandChat name argument) action state ↔
        handler.code.run after = action.code.run after) := by
  have hname : name ∈ commandNames := by
    rw [commandNames_eq (commandChat name argument), ← List.map_append]
    exact List.mem_map_of_mem hcommand
  have hstart : ascii "/" ++ ascii name <+: commandChat name argument := List.prefix_append _ _
  obtain ⟨middle, hcomplaint, hout, hserver⟩ :=
    complaint_run (commandChat name argument) state
  obtain ⟨after, hecho, -, hafter⟩ :=
    sendLog_run (ascii "`6" ++ commandChat name argument) middle
  have hline : (chatLine (chatPacket (commandChat name argument))
      (commandChat name argument)).code.run middle = handler.code.run after := by
    rcases List.mem_append.mp hcommand with hfirst | hsecond
    · rw [chatLine_first hfirst hstart]
      exact run_bind_ok middle hecho
    · rw [chatLine_second hsecond hstart, hout, hautopull]
      exact run_bind_ok middle hecho
  refine ⟨after, hafter.trans hserver, fun action => ?_⟩
  have hright : (do
      complaint (commandChat name argument)
      sendLog (ascii "`6" ++ commandChat name argument)
      action : Handler Bool).code.run state = action.code.run after :=
    (run_bind_ok state hcomplaint).trans (run_bind_ok middle hecho)
  have hchat := oneValue_commandChat hname hbar hnewline
  rw [Does, hright, generictext_free hchat.1 rfl hcomplaint, chatValue_of_oneValue hchat,
    if_neg (by rw [hserver, hconnected]; decide), hline]

theorem TextCommand.mem_commands (command : TextCommand) (chat : Bytes) :
    (command.word, command.handler chat) ∈ firstCommands chat ++ secondCommands chat := by
  cases command with
  | name => exact @List.mem_of_getElem? _ _ 0 _ rfl
  | tp => exact @List.mem_of_getElem? _ _ 16 _ rfl
  | warp => exact @List.mem_of_getElem? _ _ 26 _ rfl
  | uid => exact @List.mem_of_getElem? _ _ 28 _ rfl

theorem NumberCommand.mem_commands (command : NumberCommand) (chat : Bytes) :
    (command.word, command.handler chat) ∈ firstCommands chat ++ secondCommands chat := by
  cases command with
  | flag => exact @List.mem_of_getElem? _ _ 1 _ rfl
  | setuid => exact @List.mem_of_getElem? _ _ 11 _ rfl
  | dset => exact @List.mem_of_getElem? _ _ 24 _ rfl
  | skin => exact @List.mem_of_getElem? _ _ 27 _ rfl

/-! ## The blank of `/warp` -/

theorem target_of_server {first second : ProxyState} (hserver : first.server = second.server)
    (client : Bool) : first.target client = second.target client := by
  unfold ProxyState.target
  rw [hserver]

/-- A send is recorded with its data. -/
theorem data_of_sendAndFlush {first second : ProxyState} {peer : Peer} {host : Host}
    {data other : Bytes} (hsame : first.sendAndFlush .built peer host data =
      second.sendAndFlush .built peer host other) : data = other := by
  have htrace := congrArg ProxyState.trace hsame
  injection (List.cons.inj (List.cons.inj htrace).2).1

theorem warp_run_linked {peer : Peer} {host : Host} (htarget : state.target true = some (peer, host))
    (argument : Bytes) :
    ∃ middle, (TextCommand.act argument .warp).code.run state =
      .ok true (ProxyState.sendAndFlush middle .built peer host
        (textPacket (ascii "action|log\nmsg|" ++ (ascii "`9Warping to `#" ++ argument))
          NET_MESSAGE_GAME_MESSAGE.toNat)) := by
  obtain ⟨middle, hjoin, -, hserver⟩ := deliver_run_unchanged false
    (textPacket (ascii "action|join_request\nname|" ++ argument) 3) state
  have hlog := deliver_run ((target_of_server hserver true).trans htarget)
    (textPacket (ascii "action|log\nmsg|" ++ (ascii "`9Warping to `#" ++ argument))
      NET_MESSAGE_GAME_MESSAGE.toNat)
  exact ⟨middle, (run_bind_ok state hjoin).trans (run_bind_ok middle hlog)⟩

theorem warp_run_serverOnly {peer : Peer} {host : Host} (hnone : state.target true = none)
    (htarget : state.target false = some (peer, host)) (argument : Bytes) :
    (TextCommand.act argument .warp).code.run state =
      .ok true (state.sendAndFlush .built peer host
        (textPacket (ascii "action|join_request\nname|" ++ argument) 3)) := by
  have hjoin := deliver_run htarget
    (textPacket (ascii "action|join_request\nname|" ++ argument) 3)
  have hsilent : (state.sendAndFlush .built peer host
      (textPacket (ascii "action|join_request\nname|" ++ argument) 3)).target true = none :=
    (target_of_server rfl true).trans hnone
  exact (run_bind_ok state hjoin).trans (run_bind_ok _ (deliver_run_none hsilent _))

theorem warp_run_unlinked (hunlinked : Unlinked state) (argument : Bytes) :
    (TextCommand.act argument .warp).code.run state = .ok true state :=
  (run_bind_ok state (deliver_run_none hunlinked.1 _)).trans
    (run_bind_ok state (deliver_run_none hunlinked.2 _))

/-- Whoever is reached learns which world was asked for. -/
theorem warp_same_iff (first second : Bytes) (state : ProxyState) :
    (TextCommand.act first .warp).code.run state = (TextCommand.act second .warp).code.run state ↔
      first = second ∨ Unlinked state := by
  constructor
  · intro hsame
    cases hclient : state.target true with
    | some pair =>
        obtain ⟨peer, host⟩ := pair
        obtain ⟨middle, hfirst⟩ := warp_run_linked hclient first
        obtain ⟨other, hsecond⟩ := warp_run_linked hclient second
        rw [hfirst, hsecond] at hsame
        injection hsame with _ hstate
        have hpacket := textPacket_injective (data_of_sendAndFlush hstate)
        exact .inl (List.append_cancel_left (List.append_cancel_left hpacket))
    | none =>
        cases hserver : state.target false with
        | some pair =>
            obtain ⟨peer, host⟩ := pair
            rw [warp_run_serverOnly hclient hserver, warp_run_serverOnly hclient hserver] at hsame
            injection hsame with _ hstate
            exact .inl (List.append_cancel_left
              (textPacket_injective (data_of_sendAndFlush hstate)))
        | none => exact .inr ⟨hserver, hclient⟩
  · rintro (rfl | hunlinked)
    · rfl
    · rw [warp_run_unlinked hunlinked, warp_run_unlinked hunlinked]

/-! ## The offsets -/

section Connected

variable (hbar : bar ∉ argument) (hnewline : newline ∉ argument)
  (hconnected : state.server.mWorld.connected = true) (hautopull : state.out.autopull = false)

include hbar hnewline hconnected hautopull

theorem text_actsOn {command : TextCommand} (hother : command ≠ .warp) :
    ActsOn argument state (.text command) := by
  obtain ⟨after, -, hdoes⟩ := does_iff (command.mem_commands _) hbar hnewline hconnected hautopull
  exact (hdoes _).mpr (TextCommand.handler_run hother argument after)

theorem number_actsOn (command : NumberCommand) : ActsOn argument state (.number command) := by
  obtain ⟨after, -, hdoes⟩ := does_iff (command.mem_commands _) hbar hnewline hconnected hautopull
  intro number hdenotes hleast
  exact (hdoes _).mpr (NumberCommand.handler_run hdenotes hleast after)

/-- Nobody is told, or the wrong world is asked for. -/
theorem warp_actsOn_iff : ActsOn argument state (.text .warp) ↔ Unlinked state := by
  obtain ⟨after, hserver, hdoes⟩ :=
    does_iff (TextCommand.mem_commands .warp _) hbar hnewline hconnected hautopull
  have hunlinked : Unlinked after ↔ Unlinked state := by
    rw [Unlinked, Unlinked, target_of_server hserver, target_of_server hserver]
  have hcode : (TextCommand.handler (commandChat "warp " argument) .warp).code.run after =
      (TextCommand.act (32 :: argument) .warp).code.run after := warpCommand_run argument after
  have hlonger : 32 :: argument ≠ argument := List.cons_ne_self 32 argument
  rw [ActsOn, hdoes, TextCommand.word, hcode, warp_same_iff, hunlinked, or_iff_right hlonger]

end Connected

end Arguments

/-- Every command acts on its argument, but for `/warp`, which asks for a world whose name
starts with a blank. -/
theorem actsOn_iff (command : ArgumentCommand) (argument : Bytes) (state : ProxyState)
    (hbar : bar ∉ argument) (hnewline : newline ∉ argument)
    (hconnected : state.server.mWorld.connected = true) (hautopull : state.out.autopull = false) :
    ActsOn argument state command ↔ command ≠ .text .warp ∨ Unlinked state := by
  cases command with
  | text command =>
      by_cases hwarp : command = .warp
      · subst hwarp
        rw [warp_actsOn_iff hbar hnewline hconnected hautopull, ne_eq, eq_self, not_true, false_or]
      · have hother : ArgumentCommand.text command ≠ .text .warp := by
          intro hsame
          injection hsame with hcommand
          exact hwarp hcommand
        exact iff_of_true (text_actsOn hbar hnewline hconnected hautopull hwarp) (.inl hother)
  | number command =>
      exact iff_of_true (number_actsOn hbar hnewline hconnected hautopull command)
        (.inl ArgumentCommand.noConfusion)

/-- A world has been entered. -/
def visitingState : ProxyState where
  server := { mRealServer := some 1, mServerPeer := some ⟨1, 0⟩, mWorld := { connected := true } }

theorem actsOn_visiting : ActsOn (ascii "Bob") visitingState (.text .name) ∧
    ActsOn (ascii "-7") visitingState (.number .dset) :=
  ⟨(actsOn_iff (.text .name) (ascii "Bob") visitingState (by decide) (by decide) rfl rfl).mpr
      (.inl (by decide)),
    (actsOn_iff (.number .dset) (ascii "-7") visitingState (by decide) (by decide) rfl rfl).mpr
      (.inl (by decide))⟩

/-- `/warp START` does not ask for `START`. -/
theorem warp_not_actsOn : ¬ ActsOn (ascii "START") visitingState (.text .warp) := by
  rw [warp_actsOn_iff (by decide) (by decide) rfl rfl]
  rintro ⟨hnone, -⟩
  cases hnone

end SrmotionProxy.Events
