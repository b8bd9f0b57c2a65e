/-
# Bad numbers in commands

Five commands store a number that the player types, or a uid that was tracked. The
conversion throws if there is no number in front of the text, and it is guarded in all
places but two. This module says when nothing gets out of `generictext` and nothing but
the number that was meant is stored.
-/

import SrmotionProxy.Arguments
import SrmotionProxy.Steady

namespace SrmotionProxy.Events

open SrmotionProxy.Lib SrmotionProxy.ENet SrmotionProxy.Proton SrmotionProxy.Handler
open SrmotionProxy.Lib.Confined (Leads)

/-! ## Commands that store a number -/

inductive StoringCommand
  | setuid | setx | sety | setid | dset
  deriving DecidableEq

/-- The argument of `/setuid` asks for a uid that was tracked. -/
def Keyword (argument : Bytes) : Prop :=
  contains argument (ascii "owner") = true ∨ (contains argument (ascii "current") ||
    contains argument (ascii "Current") || contains argument (ascii "CURRENT")) = true

/-- The text that `/setuid` reads a number from. -/
def uidText (out : Settings) (argument : Bytes) : Bytes :=
  if contains argument (ascii "owner") then out.owneruid
  else if contains argument (ascii "current") || contains argument (ascii "Current") ||
      contains argument (ascii "CURRENT") then out.currentuid
  else argument

namespace StoringCommand

def word : StoringCommand → String
  | setuid => "setuid "
  | setx => "setx "
  | sety => "sety "
  | setid => "setid "
  | dset => "dset "

/-- The command as `generictext` runs it, given the line. -/
def handler (chat : Bytes) : StoringCommand → Handler Bool
  | setuid => setuidCommand chat
  | setx => setxCommand chat
  | sety => setyCommand chat
  | setid => setidCommand chat
  | dset => dsetCommand chat

/-- The setting that the command stores to. -/
def member (out : Settings) : StoringCommand → Int
  | setuid => out.uidz
  | setx => out.setx
  | sety => out.sety
  | setid => out.id
  | dset => out.sayi

/-- The settings with another number there. -/
def put (number : Int) (out : Settings) : StoringCommand → Settings
  | setuid => { out with uidz := number }
  | setx => { out with setx := number }
  | sety => { out with sety := number }
  | setid => { out with id := number }
  | dset => { out with sayi := number }

/-- The text that the number is read from. -/
def text (out : Settings) (argument : Bytes) : StoringCommand → Bytes
  | setuid => uidText out argument
  | _ => argument

/-- The number that is to be stored; `/dset` counts from zero. -/
def meant (number : Int) : StoringCommand → Int
  | dset => number - 1
  | _ => number

/-- The number that the code stores. -/
def code (number : Int) : StoringCommand → Int
  | dset => wrapInt (number - 1)
  | _ => number

/-- Every number is what it was, but for the command's own, which may be the one that the
text has in front. -/
def Stores (command : StoringCommand) (argument : Bytes) (before after : Settings) : Prop :=
  ∀ other : StoringCommand, other.member after = other.member before ∨
    other = command ∧ ∃ number, leadingInteger (command.text before argument) = some number ∧
      other.member after = command.meant number

/-- Whatever a keyword stands for can be converted, and what `/dset` stores is an `int`. -/
def Fits (out : Settings) (argument : Bytes) : StoringCommand → Prop
  | setuid => Keyword argument → ∃ number, stoi (uidText out argument) = .ok number
  | dset => leadingInteger argument = some intMin → out.sayi = intMax
  | _ => True

end StoringCommand

/-- However the handler ends, the number is stored or nothing is, and no exception gets
out. -/
def Settles (command : StoringCommand) (argument : Bytes) (before : Settings)
    (m : Handler Bool) (state : ProxyState) : Prop :=
  Ends Abort.isStdException (fun after => command.Stores argument before after.out)
    (fun after => command.Stores argument before after.out) m.code state

/-- What the player typed is a command with an argument; the argument ends where the value
of the line does. -/
def Contained (command : StoringCommand) (argument : Bytes) (state : ProxyState) : Prop :=
  Settles command (chatValue argument) state.out
    (Out.generictext (chatPacket (commandChat command.word argument))) state

/-- The sections leave the line to the commands: the player stays in the world, and neither
the wrench section nor auto pull takes the packet. -/
def Reaches (packet : Bytes) (out : Settings) (world : World) : Prop :=
  world.connected = true ∧ ¬ NewCountry packet ∧ autopullAfter packet out = false ∧
    ¬ (wrenchpullAfter packet out = true ∧ contains packet (ascii "action|wrench") = true)

/-- The state is fit for the packet of the command. -/
def Tame (command : StoringCommand) (argument : Bytes) (state : ProxyState) : Prop :=
  (HasWorldButton (chatPacket (commandChat command.word argument)) →
      NewCountry (chatPacket (commandChat command.word argument)) ∨
        Coloured state.server.mWorld) ∧
    (Reaches (chatPacket (commandChat command.word argument)) state.out state.server.mWorld →
      command.Fits state.out (chatValue argument))

/-! ## What is stored -/

section Stores

variable {command : StoringCommand} {argument : Bytes} {before after : Settings}

theorem StoringCommand.member_put (other command : StoringCommand) (number : Int)
    (out : Settings) : other.member (command.put number out) =
      if other = command then number else other.member out := by
  cases other <;> cases command <;> rfl

theorem StoringCommand.member_of_kept (command : StoringCommand)
    (hkept : kept after = kept before) : command.member after = command.member before := by
  cases command with
  | setuid => exact congrArg (fun out => out.1) hkept
  | setx => exact congrArg (fun out => out.2.1) hkept
  | sety => exact congrArg (fun out => out.2.2.1) hkept
  | setid => exact congrArg (fun out => out.2.2.2.1) hkept
  | dset => exact congrArg (fun out => out.2.2.2.2.1) hkept

theorem stores_of_kept (hkept : kept after = kept before) :
    command.Stores argument before after :=
  fun other => .inl (other.member_of_kept hkept)

theorem uidText_of_kept (hkept : kept after = kept before) :
    uidText after argument = uidText before argument := by
  have howner : after.owneruid = before.owneruid :=
    congrArg (fun out => out.2.2.2.2.2.1) hkept
  have hcurrent : after.currentuid = before.currentuid :=
    congrArg (fun out => out.2.2.2.2.2.2) hkept
  rw [uidText, uidText, howner, hcurrent]

/-- It does not matter whether the sections run in between. -/
theorem stores_congr {middle : Settings} (hkept : kept middle = kept before)
    (hstores : command.Stores argument middle after) : command.Stores argument before after := by
  intro other
  rcases hstores other with hsame | ⟨hown, number, hnumber, hstored⟩
  · exact .inl (hsame.trans (other.member_of_kept hkept))
  · refine .inr ⟨hown, number, ?_, hstored⟩
    rw [← hnumber]
    cases command with
    | setuid => exact congrArg leadingInteger (uidText_of_kept hkept).symm
    | setx | sety | setid | dset => rfl

theorem fits_congr {middle : Settings} (hkept : kept middle = kept before)
    (hfits : command.Fits before argument) : command.Fits middle argument := by
  cases command with
  | setuid =>
      intro hkeyword
      rw [uidText_of_kept hkept]
      exact hfits hkeyword
  | setx | sety | setid => trivial
  | dset => exact fun hnumber =>
      (StoringCommand.member_of_kept .dset hkept).trans (hfits hnumber)

/-- The settings behind a guarded conversion. -/
def converted (command : StoringCommand) (text : Bytes) (out : Settings) : Settings :=
  match stoi text with
  | .ok number => command.put (command.code number) out
  | .error _ => out

/-- What a conversion of the right text stores is what was meant, if it fits. -/
theorem stores_converted (hfits : ∀ number, stoi (command.text before argument) = .ok number →
      command.code number = command.meant number ∨
        command.code number = command.member before) :
    command.Stores argument before
      (converted command (command.text before argument) before) := by
  intro other
  unfold converted
  cases hread : stoi (command.text before argument) with
  | error failure => exact .inl rfl
  | ok number =>
      rw [StoringCommand.member_put]
      by_cases hown : other = command
      · subst hown
        rw [if_pos rfl]
        rcases hfits number hread with hmeant | hsame
        · exact .inr ⟨rfl, number, (stoi_eq_ok_iff.mp hread).1, hmeant⟩
        · exact .inl hsame
      · rw [if_neg hown]
        exact .inl rfl

end Stores

/-! ## The handlers -/

section Handlers

variable {argument : Bytes} {state : ProxyState}

/-- A guarded conversion ends the command in any case. -/
theorem guarded_converted (command : StoringCommand) (text : Bytes) (log : Int → Bytes)
    (complaint : Bytes) (state : ProxyState) :
    ∃ after, (do
      catchException
        (do
          let value ← lift (stoi text)
          modifySettings fun out => command.put (command.code value) out
          sendLog (log value))
        (sendLog complaint)
      return true : Handler Bool).code.run state = .ok true after ∧
        after.out = converted command text state.out := by
  unfold converted
  cases hread : stoi text with
  | ok number =>
      obtain ⟨after, hlog, hout, -⟩ := sendLog_run (log number)
        { state with out := command.put (command.code number) state.out }
      refine ⟨after, ?_, hout⟩
      rw [← hread]
      exact (run_bind_congr (guarded_run hread
        (fun value out => command.put (command.code value) out) log _ state) _).trans
          (run_bind_ok _ hlog)
  | error failure =>
      obtain ⟨after, hlog, hout, -⟩ := sendLog_run complaint state
      exact ⟨after, run_bind_ok state ((catchException_run_error
        (lift_bind_run_error rfl _) (stoi_failure hread)).trans hlog), hout⟩

/-- The commands for a door do nothing for most roles. -/
theorem roleNumberCommand_run {chat text : Bytes} (htext : substrFrom chat 6 = .ok text)
    (command : StoringCommand) (label : String) (state : ProxyState) :
    ∃ after, (roleNumberCommand chat label fun value out =>
        command.put (command.code value) out).code.run state = .ok true after ∧
      (after.out = converted command text state.out ∨ after.out = state.out) := by
  obtain ⟨after, hrun, hout⟩ := guarded_converted command text
    (fun value => ascii label ++ toDecimal value ++ ascii "`` successfuly") numbersOnly state
  unfold roleNumberCommand
  rw [htext]
  change ∃ after, (if 2 < state.out.type2 then _ else _ : Handler Bool).code.run state = _ ∧ _
  by_cases hrole : 2 < state.out.type2
  · rw [if_pos hrole]
    exact ⟨after, hrun, .inl hout⟩
  · rw [if_neg hrole]
    exact ⟨state, rfl, .inr rfl⟩

theorem converted_blank (command : StoringCommand) (text : Bytes) (out : Settings) :
    converted command (32 :: text) out = converted command text out := by
  rw [converted, converted, stoi_space (by decide)]

/-- The uids of the keywords are converted without a guard. -/
theorem unguarded_ends_iff {text : Bytes} (log : Int → Bytes) {Q : Settings → Prop}
    (hstored : Q (converted .setuid text state.out)) :
    Ends Abort.isStdException (fun after => Q after.out) (fun after => Q after.out) (do
      let uid ← lift (stoi text)
      modifySettings fun out => { out with uidz := uid }
      sendLog (log uid)
      return true : Handler Bool).code state ↔ ∃ number, stoi text = .ok number := by
  unfold converted at hstored
  cases hread : stoi text with
  | ok number =>
      rw [hread] at hstored
      obtain ⟨after, hlog, hout, -⟩ := sendLog_run (log number)
        { state with out := { state.out with uidz := number } }
      have hrun : (do
          let uid ← lift (.ok number)
          modifySettings fun out => { out with uidz := uid }
          sendLog (log uid)
          return true : Handler Bool).code.run state = .ok true after := run_bind_ok _ hlog
      refine iff_of_true ((ends_of_ok hrun).mpr ?_) ⟨number, rfl⟩
      rw [hout]
      exact hstored
  | error failure =>
      refine iff_of_false (fun hends => ?_) ?_
      · have hgood := ((ends_of_error rfl).mp hends).1
        rw [stoi_failure hread] at hgood
        cases hgood
      · rintro ⟨number, hnumber⟩
        cases hnumber

/-- A blank in front of a text holds no part of a keyword. -/
theorem contains_cons_of_ne {symbol first : UInt8} (hfirst : first ≠ symbol)
    (text pattern : Bytes) :
    contains (symbol :: text) (first :: pattern) = contains text (first :: pattern) := by
  rw [contains, contains, Seq.find_cons, if_neg, Option.isSome_map]
  rintro ⟨rest, hrest⟩
  exact hfirst (List.cons.inj hrest).1

theorem setuid_ends_iff (argument : Bytes) (state : ProxyState) :
    Settles .setuid argument state.out (setuidCommand (commandChat "setuid " argument)) state ↔
      StoringCommand.setuid.Fits state.out argument := by
  have hstores : StoringCommand.setuid.Stores argument state.out
      (converted .setuid (uidText state.out argument) state.out) :=
    @stores_converted .setuid argument state.out fun _ _ => .inl rfl
  have hblank (keyword : String) (hkeyword : (ascii keyword).head? ≠ some 32 ∧ ascii keyword ≠ []) :
      contains (32 :: argument) (ascii keyword) = contains argument (ascii keyword) := by
    obtain ⟨first, rest, hsplit⟩ := List.exists_cons_of_ne_nil hkeyword.2
    rw [hsplit] at hkeyword ⊢
    exact contains_cons_of_ne (fun hspace => hkeyword.1 (congrArg some hspace)) argument rest
  refine (ends_congr (lift_bind_run_ok
    (@substrFrom_append (ascii "/setuid") (32 :: argument) 7 rfl) _)).trans ?_
  refine ends_getSettings.trans ?_
  rw [hblank "owner" (by decide), hblank "current" (by decide), hblank "Current" (by decide),
    hblank "CURRENT" (by decide)]
  unfold StoringCommand.Fits Keyword
  unfold uidText at hstores ⊢
  by_cases howner : contains argument (ascii "owner") = true
  · rw [if_pos howner] at hstores ⊢
    rw [if_pos howner, unguarded_ends_iff _ hstores]
    exact ⟨fun hread _ => hread, fun hread => hread (.inl howner)⟩
  · rw [if_neg howner] at hstores ⊢
    rw [if_neg howner]
    by_cases hcurrent : (contains argument (ascii "current") ||
        contains argument (ascii "Current") || contains argument (ascii "CURRENT")) = true
    · rw [if_pos hcurrent] at hstores ⊢
      rw [if_pos hcurrent, unguarded_ends_iff _ hstores]
      exact ⟨fun hread _ => hread, fun hread => hread (.inr hcurrent)⟩
    · rw [if_neg hcurrent] at hstores ⊢
      rw [if_neg hcurrent]
      obtain ⟨after, hrun, hout⟩ := guarded_converted .setuid (32 :: argument)
        (fun uid => ascii "`9Target UID Successfuly set to `#" ++ toDecimal uid) numbersOnly state
      refine iff_of_true ((ends_of_ok hrun).mpr ?_) fun hkeyword => ?_
      · rw [hout, converted_blank]
        exact hstores
      · rcases hkeyword with hkeyword | hkeyword
        · exact absurd hkeyword howner
        · exact absurd hkeyword hcurrent

theorem wrapInt_pred {number : Int} (hmin : intMin ≤ number) (hmax : number ≤ intMax) :
    wrapInt (number - 1) = if number = intMin then intMax else number - 1 := by
  unfold intMin at hmin ⊢
  unfold intMax at hmax ⊢
  rw [wrapInt]
  split <;> omega

/-- The one `int` that `/dset` cannot count down is stored as another number. -/
theorem dset_ends_iff (argument : Bytes) (state : ProxyState) :
    Settles .dset argument state.out (dsetCommand (commandChat "dset " argument)) state ↔
      StoringCommand.dset.Fits state.out argument := by
  obtain ⟨after, hrun, hout⟩ := guarded_converted .dset (32 :: argument)
    (fun _ => ascii "`9Number set to `#" ++ 32 :: argument)
    (ascii "Critical error: use number") state
  have hcode : (dsetCommand (commandChat "dset " argument)).code.run state = .ok true after := hrun
  refine (ends_of_ok hcode).trans ?_
  rw [hout, converted_blank]
  constructor
  · intro hstores hnumber
    have hread := stoi_eq_ok_iff.mpr ⟨hnumber, le_rfl, by decide⟩
    have hstored := hstores .dset
    unfold converted at hstored
    rw [hread, StoringCommand.member_put, if_pos rfl, StoringCommand.code,
      wrapInt_pred le_rfl (by decide), if_pos rfl] at hstored
    rcases hstored with hsame | ⟨-, number, hmeant, hminus⟩
    · exact hsame.symm
    · have hminimum : number = intMin := Option.some.inj (hmeant.symm.trans hnumber)
      rw [hminimum] at hminus
      exact absurd hminus (by decide)
  · intro hfits
    refine @stores_converted .dset argument state.out fun number hread => ?_
    obtain ⟨hnumber, hmin, hmax⟩ := stoi_eq_ok_iff.mp hread
    rw [StoringCommand.code, wrapInt_pred hmin hmax]
    by_cases hminimum : number = intMin
    · rw [if_pos hminimum]
      rw [hminimum] at hnumber
      exact .inr (hfits hnumber).symm
    · rw [if_neg hminimum]
      exact .inl rfl

/-- A command for a door stores what it should, or nothing. -/
theorem door_ends {command : StoringCommand} {handler : Handler Bool} {text : Bytes}
    (hrun : ∃ after, handler.code.run state = .ok true after ∧
      (after.out = converted command text state.out ∨ after.out = state.out))
    (htext : converted command text state.out =
      converted command (command.text state.out argument) state.out)
    (hcode : ∀ number, command.code number = command.meant number) :
    Settles command argument state.out handler state := by
  obtain ⟨after, hrun, hout⟩ := hrun
  refine (ends_of_ok hrun).mpr ?_
  rcases hout with hout | hout
  · rw [hout, htext]
    exact stores_converted fun number _ => .inl (hcode number)
  · rw [hout]
    exact stores_of_kept rfl

/-- When a command keeps what its conversion throws, and stores what it should. -/
theorem handler_ends_iff (command : StoringCommand) (argument : Bytes) (state : ProxyState) :
    Settles command argument state.out (command.handler (commandChat command.word argument)) state ↔
      command.Fits state.out argument := by
  cases command with
  | setuid => exact setuid_ends_iff argument state
  | setx =>
      exact iff_of_true (door_ends (roleNumberCommand_run (substrFrom_append rfl) .setx
        "Set tileX to `5" state) rfl fun _ => rfl) trivial
  | sety =>
      exact iff_of_true (door_ends (roleNumberCommand_run (substrFrom_append rfl) .sety
        "Set tileY to `5" state) rfl fun _ => rfl) trivial
  | setid =>
      exact iff_of_true (door_ends (roleNumberCommand_run
        (@substrFrom_append (ascii "/setid") (32 :: argument) 6 rfl) .setid
        "Set DoorID to `5" state) (converted_blank _ _ _) fun _ => rfl) trivial
  | dset => exact dset_ends_iff argument state

end Handlers

/-! ## The line -/

section Line

variable {command : StoringCommand} {argument : Bytes} {state : ProxyState}

theorem StoringCommand.mem_commands (command : StoringCommand) (chat : Bytes) :
    (command.word, command.handler chat) ∈ secondCommands chat := by
  cases command with
  | setuid => exact @List.mem_of_getElem? _ _ 4 _ rfl
  | setx => exact @List.mem_of_getElem? _ _ 11 _ rfl
  | sety => exact @List.mem_of_getElem? _ _ 12 _ rfl
  | setid => exact @List.mem_of_getElem? _ _ 13 _ rfl
  | dset => exact @List.mem_of_getElem? _ _ 17 _ rfl

/-- The command survives the cut at a separator, which its argument may not. -/
theorem chatValue_commandChat (command : StoringCommand) (argument : Bytes) :
    chatValue (commandChat command.word argument) =
      commandChat command.word (chatValue argument) := by
  have hfree : ∀ byte ∈ ascii "/" ++ ascii command.word, byte ≠ newline ∧ byte ≠ bar := by
    cases command <;> decide +kernel
  rw [chatValue, commandChat, List.takeWhile_append_of_pos fun byte hbyte =>
    decide_eq_true (hfree byte hbyte).1, List.takeWhile_append_of_pos fun byte hbyte =>
    decide_eq_true (hfree byte hbyte).2]
  rfl

/-- While auto pull is on, the command does not get the line. -/
theorem chatLine_autopull (command : StoringCommand) (packet argument : Bytes)
    (hautopull : state.out.autopull = true) :
    (chatLine packet (commandChat command.word argument)).code.run state =
      (autopullChat packet).code.run state := by
  have hstart : ascii "/" ++ ascii command.word <+: commandChat command.word argument :=
    List.prefix_append _ _
  rw [chatLine_second (command.mem_commands _) hstart, if_pos hautopull]

theorem chatLine_handler (command : StoringCommand) (packet argument : Bytes)
    (hautopull : state.out.autopull = false) :
    ∃ logged, logged.out = state.out ∧
      (chatLine packet (commandChat command.word argument)).code.run state =
        (command.handler (commandChat command.word argument)).code.run logged := by
  obtain ⟨logged, hecho, hout, -⟩ :=
    sendLog_run (ascii "`6" ++ commandChat command.word argument) state
  have hstart : ascii "/" ++ ascii command.word <+: commandChat command.word argument :=
    List.prefix_append _ _
  refine ⟨logged, hout, ?_⟩
  rw [chatLine_second (command.mem_commands _) hstart, if_neg (by rw [hautopull]; decide)]
  exact run_bind_ok state hecho

/-- Behind the sections, the command does what it should if it can convert its number. -/
theorem chatLine_ends (hautopull : state.out.autopull = false) {packet : Bytes} {before : Settings}
    (hkept : kept state.out = kept before) (hfits : command.Fits before argument) :
    Settles command argument before (chatLine packet (commandChat command.word argument)) state := by
  obtain ⟨logged, hout, hrun⟩ := chatLine_handler command packet argument hautopull
  rw [← hout] at hkept
  exact (ends_congr hrun).mpr (((handler_ends_iff command argument logged).mpr
    (fits_congr hkept hfits)).mono (fun _ => stores_congr hkept) fun _ => stores_congr hkept)

theorem six_le_length_chatPacket (chat : Bytes) : 6 ≤ (chatPacket chat).length :=
  (by decide : 6 ≤ (ascii "action|input\n|text|").length).trans (List.prefix_append _ _).length_le

/-- A player in the world behind the sections was there before, and does not leave. -/
theorem worldAfterSections_connected {packet : Bytes} {world : World} :
    (worldAfterSections packet world).connected = true ↔
      world.connected = true ∧ ¬ NewCountry packet := by
  unfold worldAfterSections
  by_cases hnew : NewCountry packet
  · rw [if_pos hnew]
    exact iff_of_false Bool.false_ne_true fun hboth => hboth.2 hnew
  · rw [if_neg hnew]
    exact (and_iff_left hnew).symm

/-- What comes behind the sections: the command, or something that stores nothing. -/
theorem behindSections_settles {start : Settings} {world : World}
    (hbehind : Behind (chatPacket (commandChat command.word argument)) start world state)
    (hfits : Reaches (chatPacket (commandChat command.word argument)) start world →
      command.Fits start (chatValue argument)) :
    Settles command (chatValue argument) start
      (behindSections (commandChat command.word argument)) state := by
  have hlong := six_le_length_chatPacket (commandChat command.word argument)
  obtain ⟨⟨hkept, hautopull, hwrenchpull, -⟩, hworld⟩ := hbehind
  have hidle {m : Handler Bool} (hleads : Leads Abort.isStdException
      (fun after => kept after.out = kept start)
      (Steady (fun out => kept out = kept start) state.server.mWorld)
      (Steady (fun out => kept out = kept start) state.server.mWorld) m) :
      Settles command (chatValue argument) start m state :=
    (hleads state ⟨hkept, rfl⟩).mono (fun _ => stores_of_kept) fun _ hsteady =>
      stores_of_kept hsteady.1
  unfold behindSections
  rw [chatValue_commandChat]
  refine ends_getSettings.mpr ?_
  by_cases hwrench : (state.out.wrenchpull &&
      contains (chatPacket (commandChat command.word argument)) (ascii "action|wrench")) = true
  · rw [if_pos hwrench]
    exact hidle (wrenchText_leads hlong rfl fun _ hsteady => hsteady.1)
  · rw [if_neg hwrench]
    refine ends_getWorld.mpr ?_
    by_cases hconnected : state.server.mWorld.connected = false
    · rw [if_pos hconnected]
      exact hidle (.pure false)
    · rw [if_neg hconnected]
      cases hswitch : state.out.autopull with
      | true =>
          exact (ends_congr (chatLine_autopull command _ (chatValue argument) hswitch)).mpr
            (hidle (autopullChat_leads hlong))
      | false =>
          rw [hworld, Bool.not_eq_false, worldAfterSections_connected] at hconnected
          rw [hwrenchpull, Bool.and_eq_true] at hwrench
          exact chatLine_ends hswitch hkept
            (hfits ⟨hconnected.1, hconnected.2, hautopull.symm.trans hswitch, hwrench⟩)

/-- A fit state is enough, whatever else the packet asks for. -/
theorem contained_of_tame (htame : Tame command argument state) :
    Contained command argument state := by
  have hsections : Leads Abort.isStdException
      (fun after : ProxyState => kept after.out = kept state.out) _ _ _ :=
    formSections_leads (six_le_length_chatPacket (commandChat command.word argument))
      (fun _ => id) (fun hbad => absurd hbad Bool.false_ne_true) htame.1
  refine (ends_congr (generictext_eq rfl state)).mpr ?_
  refine ((hsections state ⟨rfl, rfl⟩).mono (fun _ => stores_of_kept) fun _ => id).bind ?_
  exact fun _ after hbehind => behindSections_settles hbehind htame.2

/-- If the command gets the line, it is done with when the command is. -/
theorem behindSections_handler {start : Settings} {world : World}
    (hbehind : Behind (chatPacket (commandChat command.word argument)) start world state)
    (hreaches : Reaches (chatPacket (commandChat command.word argument)) start world) :
    ∃ logged, logged.out = state.out ∧
      (behindSections (commandChat command.word argument)).code.run state =
        (command.handler (commandChat command.word (chatValue argument))).code.run logged := by
  obtain ⟨⟨hkept, hautopull, hwrenchpull, -⟩, hworld⟩ := hbehind
  obtain ⟨hconnected, hstays, hoff, hwrench⟩ := hreaches
  obtain ⟨logged, hlogged, hrun⟩ := chatLine_handler command
    (chatPacket (commandChat command.word argument)) (chatValue argument) (hautopull.trans hoff)
  refine ⟨logged, hlogged, ?_⟩
  rw [← hwrenchpull, ← Bool.and_eq_true] at hwrench
  change (if (state.out.wrenchpull && contains (chatPacket (commandChat command.word argument))
    (ascii "action|wrench")) = true then _ else _ : Handler Bool).code.run state = _
  rw [if_neg hwrench]
  change (if state.server.mWorld.connected = false then _ else _ : Handler Bool).code.run state = _
  rw [if_neg, chatValue_commandChat, hrun]
  rw [hworld, Bool.not_eq_false]
  exact worldAfterSections_connected.mpr ⟨hconnected, hstays⟩

/-- Where the page of the options can be sent, the state has to be fit. -/
theorem tame_of_contained (hpage : contains (chatPacket (commandChat command.word argument))
      (ascii "buttonClicked|optionzzz") = true → ShortPage state.out)
    (hcontained : Contained command argument state) : Tame command argument state := by
  have hlong := six_le_length_chatPacket (commandChat command.word argument)
  have hline := (ends_congr (generictext_eq rfl state)).mp hcontained
  have hcoloured : HasWorldButton (chatPacket (commandChat command.word argument)) →
      NewCountry (chatPacket (commandChat command.word argument)) ∨
        Coloured state.server.mWorld := by
    intro hbutton
    by_contra hneither
    rw [not_or] at hneither
    obtain ⟨failure, after, hrun, hstd⟩ :=
      formSections_throw hlong hpage hbutton hneither.1 hneither.2
    have hgood := ((ends_of_error (run_bind_error state hrun)).mp hline).1
    rw [hstd] at hgood
    cases hgood
  refine ⟨hcoloured, fun hreaches => ?_⟩
  have hsections : Leads (fun _ => true) (fun _ => True) _ _ _ :=
    formSections_leads hlong (fun _ _ => trivial) (fun _ => hpage) hcoloured
  obtain ⟨_, after, hrun, hbehind⟩ := (hsections state ⟨rfl, rfl⟩).exists_ok
  obtain ⟨logged, hlogged, hhandler⟩ := behindSections_handler hbehind hreaches
  have hends := (ends_congr ((run_bind_ok state hrun).trans hhandler)).mp hline
  have hkept : kept logged.out = kept state.out := by
    rw [hlogged]
    exact hbehind.1.1
  exact fits_congr hkept.symm ((handler_ends_iff command (chatValue argument) logged).mp
    (hends.mono (fun _ => stores_congr hkept.symm) fun _ => stores_congr hkept.symm))

end Line

/-- A fit state is enough for every line; it is necessary too, unless the packet asks for an
options page that is too long to be sent. -/
theorem contained_iff (command : StoringCommand) (argument : Bytes) (state : ProxyState) :
    (Tame command argument state → Contained command argument state) ∧
      ((contains (chatPacket (commandChat command.word argument))
          (ascii "buttonClicked|optionzzz") = true → ShortPage state.out) →
        (Contained command argument state ↔ Tame command argument state)) :=
  ⟨contained_of_tame, fun hpage => ⟨tame_of_contained hpage, contained_of_tame⟩⟩

/-- Map data of a world called `START`. -/
def startMap : Bytes := zeros 66 ++ ([5, 0] ++ ascii "START")

/-- A fresh proxy in that world. -/
def enteredState : ProxyState where
  server := { mWorld := { name := ascii "START", connected := true } }

/-- Later the owner of the world has been tracked. -/
theorem contained_tracked :
    Contained .setuid (ascii "owner") { enteredState with out := { owneruid := ascii "77" } } := by
  refine ((contained_iff .setuid (ascii "owner") _).2 fun _ => ?_).mpr ⟨fun _ => .inr ?_, fun _ _ => ?_⟩
  · exact ⟨by decide, by decide, by decide⟩
  · exact fun player hplayer => absurd hplayer List.not_mem_nil
  · exact ⟨77, rfl⟩

/-- Before, an exception gets out. -/
theorem setuid_owner_escapes :
    (In.sendmapdata startMap).code.run {} = .ok false enteredState ∧
      ¬ Contained .setuid (ascii "owner") enteredState := by
  refine ⟨rfl, fun hcontained => ?_⟩
  have htame := tame_of_contained (fun _ => ⟨by decide, by decide, by decide⟩) hcontained
  obtain ⟨number, hread⟩ :=
    htame.2 ⟨rfl, by decide +kernel, by decide +kernel, by decide +kernel⟩ (.inl (by decide))
  have hempty : stoi (uidText enteredState.out (chatValue (ascii "owner"))) =
      .error .invalidArgument := rfl
  rw [hempty] at hread
  cases hread

end SrmotionProxy.Events
