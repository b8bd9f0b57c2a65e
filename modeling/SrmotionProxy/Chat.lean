/-
# Chat lines without separators

What the player types arrives as the second value of the second line. A message that
contains neither a bar nor a newline arrives whole, and triggers none of the form
sections but one, whose trigger has no bar. This module says what `generictext` does
with such a message, up to the command it starts with.
-/

import SrmotionProxy.Fields

namespace SrmotionProxy.Events

open SrmotionProxy.Lib SrmotionProxy.Proton SrmotionProxy.Handler

/-! ## Running handlers -/

section Running

variable {α β : Type} {state after : ProxyState} {body handler : Handler α}

theorem catchException_run_ok {value : α} (hbody : body.code.run state = .ok value after) :
    (catchException body handler).code.run state = .ok value after := by
  change (tryCatchIf Abort.isStdException body.code fun _ => handler.code).run state = _
  rw [run_tryCatchIf, hbody]

theorem catchException_run_error {failure : Abort}
    (hbody : body.code.run state = .error failure after)
    (hcaught : failure.isStdException = true) :
    (catchException body handler).code.run state = handler.code.run after := by
  change (tryCatchIf Abort.isStdException body.code fun _ => handler.code).run state = _
  rw [run_tryCatchIf, hbody]
  exact if_pos hcaught

theorem lift_bind_run_ok {value : Except Abort β} {result : β} (hvalue : value = .ok result)
    (next : β → Handler α) :
    (lift value >>= next).code.run state = (next result).code.run state := by
  rw [hvalue]
  rfl

theorem lift_bind_run_error {value : Except Abort β} {failure : Abort}
    (hvalue : value = .error failure) (next : β → Handler α) :
    (lift value >>= next).code.run state = .error failure state := by
  rw [hvalue]
  rfl

/-- Only what the first part does in this state matters. -/
theorem run_bind_congr {first other : Handler α}
    (hsame : first.code.run state = other.code.run state) (next : α → Handler β) :
    (first >>= next).code.run state = (other >>= next).code.run state := by
  cases hfirst : first.code.run state with
  | ok value after =>
      have hother : (other >>= next).code.run state = (next value).code.run after :=
        run_bind_ok state (hsame.symm.trans hfirst)
      exact (run_bind_ok state hfirst).trans hother.symm
  | error failure after =>
      have hother : (other >>= next).code.run state = .error failure after :=
        run_bind_error state (hsame.symm.trans hfirst)
      exact (run_bind_error state hfirst).trans hother.symm

/-- A sequence with another second part that does the same. -/
theorem run_bind_right {first : Handler α} {next other : α → Handler β}
    (hsame : ∀ value middle, (next value).code.run middle = (other value).code.run middle) :
    (first >>= next).code.run state = (first >>= other).code.run state := by
  cases hfirst : first.code.run state with
  | ok value middle =>
      have hother : (first >>= other).code.run state = (other value).code.run middle :=
        run_bind_ok state hfirst
      exact ((run_bind_ok state hfirst).trans (hsame value middle)).trans hother.symm
  | error failure middle =>
      have hother : (first >>= other).code.run state = .error failure middle :=
        run_bind_error state hfirst
      exact (run_bind_error state hfirst).trans hother.symm

/-- A send changes neither the settings nor the members of `server`. -/
theorem deliver_run_unchanged (client : Bool) (data : Bytes) (state : ProxyState) :
    ∃ after, (deliver client data).code.run state = .ok () after ∧ after.out = state.out ∧
      after.server = state.server := by
  cases htarget : state.target client with
  | none => exact ⟨state, deliver_run_none htarget _, rfl, rfl⟩
  | some pair =>
      obtain ⟨peer, host⟩ := pair
      exact ⟨_, deliver_run htarget _, rfl, rfl⟩

theorem sendLog_run (text : Bytes) (state : ProxyState) :
    ∃ after, (sendLog text).code.run state = .ok () after ∧ after.out = state.out ∧
      after.server = state.server :=
  deliver_run_unchanged _ _ state

end Running

/-- The message is one value. -/
def OneValue (chat : Bytes) : Prop := bar ∉ chat ∧ newline ∉ chat ∧ chat ≠ []

section Chat

variable {chat : Bytes}

/-! ## The sections -/

/-- No trigger of a section starts in front of the message. -/
theorem contains_chatPacket_of_front {pattern : Bytes}
    (hfront : ∀ position < (ascii "action|input\n|text|").length,
      ¬ pattern <+: (ascii "action|input\n|text|").drop position ∧
        ¬ (ascii "action|input\n|text|").drop position <+: pattern) (chat : Bytes) :
    contains (chatPacket chat) pattern = contains chat pattern :=
  Seq.find_append_isSome hfront chat

/-- A text without a symbol contains no pattern with it. -/
theorem contains_of_free {text pattern : Bytes} {symbol : UInt8} (hfree : symbol ∉ text)
    (hsymbol : symbol ∈ pattern) : contains text pattern = false := by
  rw [contains, Option.isSome_eq_false_iff, Option.isNone_iff_eq_none, Seq.find_eq_none_iff]
  exact fun hoccurs => hfree (hoccurs.subset hsymbol)

/-- The complaint about a `roulette5` in the message. -/
def complaint (chat : Bytes) : Handler Unit :=
  if contains chat (ascii "roulette5") then sendLog overrideDetected else return ()

theorem complaint_run (chat : Bytes) (state : ProxyState) :
    ∃ after, (complaint chat).code.run state = .ok () after ∧ after.out = state.out ∧
      after.server = state.server := by
  unfold complaint
  by_cases hcontains : contains chat (ascii "roulette5") = true
  · rw [if_pos hcontains]
    exact sendLog_run overrideDetected state
  · rw [if_neg hcontains]
    exact ⟨state, rfl, rfl, rfl⟩

/-- The one section that a message without a bar may trigger finds no number: there is no
mark, so it reads from the fourth byte of the packet on. -/
theorem ruletsayiField_run (hfree : bar ∉ chat) (state : ProxyState) :
    (ruletsayiField (chatPacket chat)).code.run state = (complaint chat).code.run state := by
  have htrigger : contains (chatPacket chat) (ascii "roulette5") =
      contains chat (ascii "roulette5") := contains_chatPacket_of_front (by decide +kernel) chat
  unfold ruletsayiField numberField complaint
  rw [htrigger]
  by_cases hcontains : contains chat (ascii "roulette5") = true
  · rw [if_pos hcontains, if_pos hcontains]
    have hmark : contains (chatPacket chat) (ascii "te5|") = false := by
      rw [contains_chatPacket_of_front (by decide)]
      exact contains_of_free hfree (by decide : bar ∈ ascii "te5|")
    have hbehind : behind (chatPacket chat) (ascii "te5|") 4 = 3 := by
      rw [contains, Option.isSome_eq_false_iff, Option.isNone_iff_eq_none] at hmark
      rw [behind, findPos, hmark]
      decide
    have hrest : substr (chatPacket chat) (behind (chatPacket chat) (ascii "te5|") 4)
        (chatPacket chat).length = .ok (ascii "ion|input\n|text|" ++ chat) := by
      have hlong : 3 ≤ (chatPacket chat).length :=
        (by decide : 3 ≤ (ascii "action|input\n|text|").length).trans
          (List.prefix_append _ _).length_le
      rw [hbehind, substr, if_pos hlong, List.take_of_length_le (by simp)]
      rfl
    have hnumber : stoi (if true then trimRight (cStr (ascii "ion|input\n|text|" ++ chat))
        else cStr (ascii "ion|input\n|text|" ++ chat)) = .error .invalidArgument := by
      rw [if_pos rfl, stoi_trimRight, stoi_cStr]
      rfl
    exact catchException_run_error ((lift_bind_run_ok hrest _).trans
      (lift_bind_run_error hnumber _)) rfl
  · rw [if_neg hcontains, if_neg hcontains]

/-- The sections do nothing else with a message without a bar. -/
theorem runSections_chat (hfree : bar ∉ chat) (state : ProxyState) :
    (runSections (chatPacket chat) formSections).code.run state =
      (complaint chat).code.run state := by
  have hidle : ∀ trigger ∈ formTriggers.take 8 ++ formTriggers.drop 9,
      contains (chatPacket chat) (ascii trigger) = false := by
    intro trigger htrigger
    have hfront : ∀ trigger ∈ formTriggers.take 8 ++ formTriggers.drop 9,
        (∀ position < (ascii "action|input\n|text|").length,
          ¬ ascii trigger <+: (ascii "action|input\n|text|").drop position ∧
            ¬ (ascii "action|input\n|text|").drop position <+: ascii trigger) ∧
          bar ∈ ascii trigger := by decide +kernel
    rw [contains_chatPacket_of_front (hfront trigger htrigger).1]
    exact contains_of_free hfree (hfront trigger htrigger).2
  rw [List.forall_mem_append] at hidle
  have hbefore := runSections_idle (List.forall₂_take 8 sections_idle) hidle.1 state
  have hsplit : formSections = formSections.take 8 ++ ruletsayiField :: formSections.drop 9 := rfl
  rw [hsplit, runSections_append]
  refine (run_bind_ok state hbefore).trans ?_
  obtain ⟨after, hcomplaint, -⟩ := complaint_run chat state
  have hsection := (ruletsayiField_run hfree state).trans hcomplaint
  rw [hcomplaint]
  exact (run_bind_ok state hsection).trans
    (runSections_idle (List.forall₂_drop 9 sections_idle) hidle.2 after)

/-! ## The chat line -/

/-- The value that the commands are compared with: the message up to a separator. -/
def chatValue (chat : Bytes) : Bytes :=
  (chat.takeWhile (· ≠ newline)).takeWhile (· ≠ bar)

theorem chatValue_of_oneValue (hchat : OneValue chat) : chatValue chat = chat := by
  have hself {symbol : UInt8} (hfree : symbol ∉ chat) : chat.takeWhile (· ≠ symbol) = chat := by
    apply List.takeWhile_eq_self_iff.mpr
    intro byte hbyte
    apply decide_eq_true
    rintro rfl
    exact hfree hbyte
  rw [chatValue, hself hchat.2.1, hself hchat.1]

/-- A packet with a message is two lines, the second with at least two values. -/
theorem parse_chatPacket (hslash : chat.head? = some 47) :
    ∃ line pairs, (Rtvar.parse (chatPacket chat)).mPairs =
        Pair.parse (ascii "action|input") :: line :: pairs ∧
      2 ≤ line.mValues.length ∧ line.valueAt 1 = .ok (chatValue chat) := by
  obtain ⟨message, rfl⟩ := List.head?_eq_some_iff.mp hslash
  have hfirst : (47 :: message).takeWhile (· ≠ newline) =
      47 :: message.takeWhile (· ≠ newline) := List.takeWhile_cons_of_pos (by decide)
  obtain ⟨lines, hlines⟩ := @Seq.getlines_eq_cons _ _ newline (ascii "|text|" ++ 47 :: message)
    (List.append_ne_nil_of_left_ne_nil (by decide) _)
  obtain ⟨values, hvalues⟩ := @Seq.getlines_eq_cons _ _ bar
    ((47 :: message).takeWhile (· ≠ newline)) (by rw [hfirst]; exact List.cons_ne_nil _ _)
  have hline : (ascii "|text|" ++ 47 :: message).takeWhile (· ≠ newline) =
      ascii "|text|" ++ (47 :: message).takeWhile (· ≠ newline) :=
    List.takeWhile_append_of_pos (by decide +kernel)
  have hsplit : chatPacket (47 :: message) =
      ascii "action|input" ++ newline :: (ascii "|text|" ++ 47 :: message) := rfl
  have htokens : Seq.getlines bar (ascii "|text|" ++ (47 :: message).takeWhile (· ≠ newline)) =
      [] :: ascii "text" :: chatValue (47 :: message) :: values := by
    have htext : ascii "|text|" ++ (47 :: message).takeWhile (· ≠ newline) =
        [] ++ bar :: (ascii "text" ++ bar :: (47 :: message).takeWhile (· ≠ newline)) := rfl
    rw [htext, Seq.getlines_append_cons List.not_mem_nil, Seq.getlines_append_cons (by decide),
      hvalues, chatValue]
  refine ⟨Pair.parse (ascii "|text|" ++ (47 :: message).takeWhile (· ≠ newline)),
    lines.map Pair.parse, ?_, ?_, ?_⟩
  · rw [Rtvar.parse_eq, hsplit, Seq.getlines_append_cons (by decide), hlines, hline]
    rfl
  · rw [Pair.parse_of_tokens htokens]
    exact Nat.le_add_left 2 _
  · rw [Pair.parse_of_tokens htokens]
    rfl

/-- What `generictext` does with a message behind the sections. -/
def behindSections (chat : Bytes) : Handler Bool := do
  let out ← getSettings
  if out.wrenchpull && contains (chatPacket chat) (ascii "action|wrench") then
    Out.wrenchText (chatPacket chat)
  else
    let world ← getWorld
    if world.connected = false then return false
    else chatLine (chatPacket chat) (chatValue chat)

/-- Nothing in the packet of a message is missing, so the sections come first. -/
theorem generictext_eq (hslash : chat.head? = some 47) (state : ProxyState) :
    (Out.generictext (chatPacket chat)).code.run state =
      (do
        runSections (chatPacket chat) formSections
        behindSections chat : Handler Bool).code.run state := by
  obtain ⟨line, pairs, hpairs, hvalues, hvalue⟩ := parse_chatPacket hslash
  have hvalid : (Rtvar.parse (chatPacket chat)).valid = true := by
    unfold Rtvar.valid
    rw [hpairs]
    exact (by decide : decide (1 ≤ (Pair.parse (ascii "action|input")).mValues.length) = true)
  have hhead : (Rtvar.parse (chatPacket chat)).getIndex 0 =
      .ok (Pair.parse (ascii "action|input")) := by
    unfold Rtvar.getIndex
    rw [hpairs]
    rfl
  have hline : (Rtvar.parse (chatPacket chat)).getIndex 1 = .ok line := by
    unfold Rtvar.getIndex
    rw [hpairs]
    rfl
  have hsize : ¬ (Rtvar.parse (chatPacket chat)).size < 2 := by
    unfold Rtvar.size
    rw [hpairs, List.length_cons, List.length_cons]
    omega
  rw [Out.generictext]
  simp only [hvalid, Bool.true_eq_false, if_false]
  refine run_bind_right fun _ middle => ?_
  change (if (middle.out.wrenchpull && contains (chatPacket chat) (ascii "action|wrench")) = true
    then _ else _ : Handler Bool).code.run middle = (if (middle.out.wrenchpull &&
      contains (chatPacket chat) (ascii "action|wrench")) = true then _ else _ : Handler
        Bool).code.run middle
  by_cases hwrench : (middle.out.wrenchpull &&
      contains (chatPacket chat) (ascii "action|wrench")) = true
  · rw [if_pos hwrench, if_pos hwrench]
  · rw [if_neg hwrench, if_neg hwrench, lift_bind_run_ok hhead, if_pos (by decide), inputText,
      if_neg hsize, lift_bind_run_ok hline]
    change (if line.mValues.length < 2 then _ else if middle.server.mWorld.connected = false then _
      else _ : Handler Bool).code.run middle = (if middle.server.mWorld.connected = false then _
        else _ : Handler Bool).code.run middle
    rw [if_neg (by omega)]
    by_cases hconnected : middle.server.mWorld.connected = false
    · rw [if_pos hconnected, if_pos hconnected]
    · rw [if_neg hconnected, if_neg hconnected, lift_bind_run_ok hvalue]

/-- The part of `generictext` behind the sections, for a message in the world. -/
theorem generictext_chat {state middle : ProxyState} (hslash : chat.head? = some 47)
    (hsections : (runSections (chatPacket chat) formSections).code.run state = .ok () middle)
    (hwrench : ¬ Out.WrenchAction middle.out (chatPacket chat)) :
    (Out.generictext (chatPacket chat)).code.run state =
      (if middle.server.mWorld.connected = false then return false
        else chatLine (chatPacket chat) (chatValue chat) : Handler Bool).code.run middle := by
  have hfound : (middle.out.wrenchpull && contains (chatPacket chat) (ascii "action|wrench")) =
      false := by
    rw [← Bool.not_eq_true, Bool.and_eq_true]
    exact hwrench
  refine ((generictext_eq hslash state).trans (run_bind_ok state hsections)).trans ?_
  change (if (middle.out.wrenchpull && contains (chatPacket chat) (ascii "action|wrench")) = true
    then _ else _ : Handler Bool).code.run middle = _
  rw [if_neg (by rw [hfound]; decide)]
  rfl

/-- A message without a bar reaches the commands, whatever it says. -/
theorem generictext_free (hfree : bar ∉ chat) (hslash : chat.head? = some 47)
    {state middle : ProxyState} (hcomplaint : (complaint chat).code.run state = .ok () middle) :
    (Out.generictext (chatPacket chat)).code.run state =
      (if middle.server.mWorld.connected = false then return false
        else chatLine (chatPacket chat) (chatValue chat) : Handler Bool).code.run middle := by
  have hsections := (runSections_chat hfree state).trans hcomplaint
  have hwrench : ¬ Out.WrenchAction middle.out (chatPacket chat) := by
    rintro ⟨-, hcontains⟩
    rw [contains_chatPacket_of_front (by decide +kernel),
      contains_of_free hfree (by decide : bar ∈ ascii "action|wrench")] at hcontains
    cases hcontains
  exact generictext_chat hslash hsections hwrench

/-! ## Commands -/

/-- The first command whose name the message starts with is echoed and run. -/
theorem commandChain_run {otherwise action : Handler Bool} {name : String}
    {commands : List (String × Handler Bool)} (hcommand : (name, action) ∈ commands)
    (hnodup : (commands.map Prod.fst).Nodup) (hname : ascii "/" ++ ascii name <+: chat)
    (hother : ∀ command ∈ commands, ascii "/" ++ ascii command.1 <+: chat → command.1 = name)
    (state : ProxyState) :
    (commandChain chat otherwise commands).code.run state =
      (sendLog (ascii "`6" ++ chat) >>= fun _ => action).code.run state := by
  induction commands with
  | nil => cases hcommand
  | cons command commands ih =>
      rw [List.forall_mem_cons] at hother
      rw [List.map_cons, List.nodup_cons] at hnodup
      rw [commandChain]
      rcases List.mem_cons.mp hcommand with rfl | hlater
      · have hfound : (findCommand chat (ascii name)) =
            (sendLog (ascii "`6" ++ chat) >>= fun _ => return true) := by
          unfold findCommand
          rw [if_pos (Seq.find_eq_zero_iff.mpr hname)]
        obtain ⟨after, hlog, -⟩ := sendLog_run (ascii "`6" ++ chat) state
        have htrue : (findCommand chat (ascii name)).code.run state = .ok true after := by
          rw [hfound]
          exact run_bind_ok state hlog
        have hrun : (sendLog (ascii "`6" ++ chat) >>= fun _ => action).code.run state =
            action.code.run after := run_bind_ok state hlog
        rw [hrun]
        exact run_bind_ok state htrue
      · have hdifferent : command.1 ≠ name := by
          intro hsame
          rw [hsame] at hnodup
          exact hnodup.1 (List.mem_map_of_mem hlater)
        rw [findCommand_none fun hstart => hdifferent (hother.1 hstart)]
        exact ih hlater hnodup.2 hother.2

/-- No command's name is the start of another's. -/
theorem names_apart : ∀ name ∈ commandNames, ∀ other ∈ commandNames,
    ascii other <+: ascii name ∨ ascii name <+: ascii other → other = name := by
  decide +kernel

theorem commandNames_nodup : commandNames.Nodup := by decide +kernel

/-- A message starts with at most one command. -/
theorem name_unique {name other : String} (hname : name ∈ commandNames)
    (hother : other ∈ commandNames) (hstart : ascii "/" ++ ascii name <+: chat)
    (hfound : ascii "/" ++ ascii other <+: chat) : other = name := by
  apply names_apart name hname other hother
  rcases List.prefix_or_prefix_of_prefix hfound hstart with hshort | hshort
  · exact .inl ((List.prefix_append_right_inj _).mp hshort)
  · exact .inr ((List.prefix_append_right_inj _).mp hshort)

/-- The commands do not depend on the message but for their arguments. -/
theorem commandNames_eq (chat : Bytes) :
    commandNames = (firstCommands chat).map Prod.fst ++ (secondCommands chat).map Prod.fst := rfl

/-- A command in front of the auto-pull switch. -/
theorem chatLine_first {name : String} {action : Handler Bool}
    (hcommand : (name, action) ∈ firstCommands chat) (hname : ascii "/" ++ ascii name <+: chat)
    (packet : Bytes) (state : ProxyState) :
    (chatLine packet chat).code.run state =
      (sendLog (ascii "`6" ++ chat) >>= fun _ => action).code.run state := by
  have hnodup := commandNames_nodup
  rw [commandNames_eq chat, List.nodup_append] at hnodup
  have hmem (command : String × Handler Bool) (hmem : command ∈ firstCommands chat) :
      command.1 ∈ commandNames := by
    rw [commandNames_eq chat]
    exact List.mem_append_left _ (List.mem_map_of_mem hmem)
  exact commandChain_run hcommand hnodup.1 hname
    (fun command hother => name_unique (hmem _ hcommand) (hmem command hother) hname) state

/-- A command behind the switch. -/
theorem chatLine_second {name : String} {action : Handler Bool}
    (hcommand : (name, action) ∈ secondCommands chat) (hname : ascii "/" ++ ascii name <+: chat)
    {packet : Bytes} {state : ProxyState} :
    (chatLine packet chat).code.run state =
      (if state.out.autopull then autopullChat packet
        else sendLog (ascii "`6" ++ chat) >>= fun _ => action : Handler Bool).code.run state := by
  have hnodup := commandNames_nodup
  rw [commandNames_eq chat, List.nodup_append] at hnodup
  have hmem (command : String × Handler Bool) (hmem : command ∈ secondCommands chat) :
      command.1 ∈ commandNames := by
    rw [commandNames_eq chat]
    exact List.mem_append_right _ (List.mem_map_of_mem hmem)
  have hfirst : ∀ command ∈ firstCommands chat, ¬ ascii "/" ++ ascii command.1 <+: chat := by
    intro command hother hstart
    have hin : command.1 ∈ commandNames := by
      rw [commandNames_eq chat]
      exact List.mem_append_left _ (List.mem_map_of_mem hother)
    have hsame := name_unique (hmem _ hcommand) hin hname hstart
    exact hnodup.2.2 _ (List.mem_map_of_mem hother) _ (List.mem_map_of_mem hcommand) hsame
  rw [chatLine, commandChain_none hfirst]
  change (if state.out.autopull = true then _ else _ : Handler Bool).code.run state = _
  by_cases hautopull : state.out.autopull = true
  · rw [if_pos hautopull, if_pos hautopull]
  · rw [if_neg hautopull, if_neg hautopull]
    exact commandChain_run hcommand hnodup.2.1 hname
      (fun command hother => name_unique (hmem _ hcommand) (hmem command hother) hname) state

end Chat

end SrmotionProxy.Events
