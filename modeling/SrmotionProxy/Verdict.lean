/-
# What the loops decide about a packet

Each receive branch ends in one of three ways: the packet is left alone, destroyed, or
handed over. This module separates the decision from the ending. The decisions run the
handlers and never touch the packet itself, so what becomes of a packet can be read off
its verdict.
-/

import SrmotionProxy.Connection

namespace SrmotionProxy.Server

open SrmotionProxy.Lib SrmotionProxy.ENet SrmotionProxy.Proton

/-! ## Verdicts -/

/-- What is to become of a packet. -/
inductive Verdict where
  | ignored
  | consumed
  | forwarded (packet : Bytes)
  deriving DecidableEq, Repr

/-- The ending that a verdict asks for. -/
def settle (client : Bool) : Verdict → Proxy Flow
  | .ignored => return .leave
  | .consumed => consume
  | .forwarded packet => forward client packet

/-- The verdict of a handler. -/
def judge (handler : Proxy Bool) (packet : Bytes) : Proxy Verdict := do
  if ← handler then return .consumed else return .forwarded packet

/-- The verdict on an accepted game packet from the client. -/
def outgoingGameVerdict (packet : Bytes) : Proxy Verdict := do
  let type := Packet.mType packet
  if type = PACKET_STATE then
    judge (Events.Out.state packet).code packet
  else if type = PACKET_CALL_FUNCTION then
    let _ ← view (Events.Out.variantlist packet)
    return .forwarded packet
  else if type = PACKET_PING_REPLY then
    return .forwarded (Events.Out.pingreply packet)
  else if type = PACKET_DISCONNECT ∨ type = PACKET_APP_INTEGRITY_FAIL then
    if (← get).gt.inGame then return .ignored else return .forwarded packet
  else
    return .forwarded packet

/-- The verdict on a packet from the client. -/
def outgoingVerdict (packet : Bytes) : Proxy Verdict := do
  let type := getPacketType packet
  if type = NET_MESSAGE_GENERIC_TEXT then
    let result ← view (getText packet)
    judge (Events.Out.generictext result.1).code result.2
  else if type = NET_MESSAGE_GAME_MESSAGE then
    let result ← view (getText packet)
    judge (Events.Out.gamemessage result.1).code result.2
  else if type = NET_MESSAGE_GAME_PACKET then
    let result ← view (getStruct packet)
    result.elim (return .forwarded packet) outgoingGameVerdict
  else if type = NET_MESSAGE_TRACK ∨ type = NET_MESSAGE_CLIENT_LOG_RESPONSE then
    return .ignored
  else
    return .forwarded packet

/-- The verdict on an accepted game packet from the server. -/
def incomingGameVerdict (packet : Bytes) : Proxy Verdict := do
  let type := Packet.mType packet
  if type = 8 then
    let packet ← (dicePacket packet).code
    return .forwarded packet
  else if type = PACKET_PING_REQUEST then
    (pingRequest packet).code
    return .forwarded packet
  else if type = PACKET_CALL_FUNCTION then
    judge (Events.In.variantlist packet) packet
  else if type = PACKET_SEND_MAP_DATA then
    judge (Events.In.sendmapdata packet).code packet
  else if type = PACKET_STATE then
    judge (Events.In.state packet).code packet
  else
    return .forwarded packet

/-- The verdict on a packet from the server. -/
def incomingVerdict (packet : Bytes) : Proxy Verdict := do
  let type := getPacketType packet
  if packet = [] then
    return .forwarded packet
  else if type = NET_MESSAGE_GENERIC_TEXT then
    let result ← view (getText packet)
    judge (Events.In.generictext result.1).code result.2
  else if type = NET_MESSAGE_GAME_MESSAGE then
    let result ← view (getText packet)
    judge (Events.In.gamemessage result.1).code result.2
  else if type = NET_MESSAGE_GAME_PACKET then
    let result ← view (getStruct packet)
    result.elim (return .forwarded packet) incomingGameVerdict
  else if type = NET_MESSAGE_TRACK then
    let result ← view (getText packet)
    judge (Events.In.tracking result.1).code result.2
  else if type = NET_MESSAGE_CLIENT_LOG_REQUEST then
    return .ignored
  else
    return .forwarded packet

/-! ### The loops are decisions with an ending -/

theorem consumeOrForward_eq (client : Bool) (handler : Proxy Bool) (packet : Bytes) :
    consumeOrForward client handler packet = judge handler packet >>= settle client := by
  funext state
  change (handler >>= _).run state = ((handler >>= _) >>= settle client).run state
  rw [EStateM.run_bind, EStateM.run_bind, EStateM.run_bind]
  cases handler.run state with
  | error failure after => rfl
  | ok consumed after => cases consumed <;> rfl

/-- A decision that starts with a view. -/
theorem view_bind_eq {α : Type} (client : Bool) (value : Except Abort α)
    {next : α → Proxy Flow} {verdict : α → Proxy Verdict}
    (hnext : ∀ result, next result = verdict result >>= settle client) :
    (view value >>= next) = (view value >>= verdict) >>= settle client := by
  cases value with
  | error failure => rfl
  | ok result => exact hnext result

theorem ite_settle {condition : Prop} [Decidable condition] {client : Bool}
    {first second : Proxy Flow} {verdict other : Proxy Verdict}
    (hfirst : first = verdict >>= settle client) (hsecond : second = other >>= settle client) :
    (if condition then first else second) =
      (if condition then verdict else other) >>= settle client := by
  by_cases hcondition : condition
  · rw [if_pos hcondition, if_pos hcondition, hfirst]
  · rw [if_neg hcondition, if_neg hcondition, hsecond]

theorem outgoingGamePacket_eq (packet : Bytes) :
    outgoingGamePacket packet = outgoingGameVerdict packet >>= settle false := by
  have hleave : (do if (← get).gt.inGame then return Flow.leave else forward false packet) =
      (do if (← get).gt.inGame then return Verdict.ignored else return .forwarded packet) >>=
        settle false := by
    funext state
    change EStateM.run (get >>= _) state = EStateM.run ((get >>= _) >>= settle false) state
    rw [EStateM.run_bind, EStateM.run_bind, EStateM.run_bind]
    change EStateM.run (if state.gt.inGame = true then _ else _) state = _
    cases hgame : state.gt.inGame <;> simp [hgame, settle]
  unfold outgoingGamePacket outgoingGameVerdict
  refine ite_settle (consumeOrForward_eq _ _ _) (ite_settle ?_ (ite_settle rfl
    (ite_settle hleave rfl)))
  exact view_bind_eq false _ fun _ => rfl

theorem outgoingPacket_eq (packet : Bytes) :
    outgoingPacket packet = outgoingVerdict packet >>= settle false := by
  unfold outgoingPacket outgoingVerdict
  refine ite_settle (view_bind_eq false _ fun _ => consumeOrForward_eq _ _ _) ?_
  refine ite_settle (view_bind_eq false _ fun _ => consumeOrForward_eq _ _ _) ?_
  refine ite_settle (view_bind_eq false _ fun result => ?_) (ite_settle rfl rfl)
  cases result with
  | none => rfl
  | some struct => exact outgoingGamePacket_eq struct

theorem incomingGamePacket_eq (packet : Bytes) :
    incomingGamePacket packet = incomingGameVerdict packet >>= settle true := by
  have hforward {α : Type} (handler : Handler α) (result : α → Bytes) :
      (handler.code >>= fun value => forward true (result value)) =
        (handler.code >>= fun value => pure (.forwarded (result value))) >>= settle true := by
    funext state
    change EStateM.run (handler.code >>= _) state =
      EStateM.run ((handler.code >>= _) >>= settle true) state
    rw [EStateM.run_bind, EStateM.run_bind, EStateM.run_bind]
    cases handler.code.run state <;> rfl
  unfold incomingGamePacket incomingGameVerdict
  refine ite_settle (hforward (dicePacket packet) id) ?_
  refine ite_settle (hforward (pingRequest packet) fun _ => packet) ?_
  exact ite_settle (consumeOrForward_eq _ _ _) (ite_settle (consumeOrForward_eq _ _ _)
    (ite_settle (consumeOrForward_eq _ _ _) rfl))

theorem incomingPacket_eq (packet : Bytes) :
    incomingPacket packet = incomingVerdict packet >>= settle true := by
  unfold incomingPacket incomingVerdict
  refine ite_settle rfl ?_
  refine ite_settle (view_bind_eq true _ fun _ => consumeOrForward_eq _ _ _) ?_
  refine ite_settle (view_bind_eq true _ fun _ => consumeOrForward_eq _ _ _) ?_
  refine ite_settle (view_bind_eq true _ fun result => ?_) ?_
  · cases result with
    | none => rfl
    | some struct => exact incomingGamePacket_eq struct
  · exact ite_settle (view_bind_eq true _ fun _ => consumeOrForward_eq _ _ _)
      (ite_settle rfl rfl)

/-! ## Which verdicts there are -/

/-- The text message types that both loops know. -/
def IsText (packet : Bytes) : Prop :=
  getPacketType packet = NET_MESSAGE_GENERIC_TEXT ∨ getPacketType packet = NET_MESSAGE_GAME_MESSAGE

instance (packet : Bytes) : Decidable (IsText packet) := inferInstanceAs (Decidable (_ ∨ _))

/-- The game packet in a packet, as `get_struct` leaves it. -/
def structOf (packet : Bytes) : Option Bytes :=
  if getPacketType packet = NET_MESSAGE_GAME_PACKET then (getStruct packet).toOption.join else none

/-- The types that are left alone while in game. -/
def EndsGame (struct : Bytes) : Prop :=
  Packet.mType struct = PACKET_DISCONNECT ∨ Packet.mType struct = PACKET_APP_INTEGRITY_FAIL

/-- The client's packets that the loop leaves alone. -/
def IgnoresOutgoing (state : ProxyState) (packet : Bytes) : Prop :=
  getPacketType packet = NET_MESSAGE_TRACK ∨
    getPacketType packet = NET_MESSAGE_CLIENT_LOG_RESPONSE ∨
    ∃ struct, structOf packet = some struct ∧ EndsGame struct ∧ state.gt.inGame = true

/-- The server's packets that the loop leaves alone. -/
def IgnoresIncoming (packet : Bytes) : Prop :=
  getPacketType packet = NET_MESSAGE_CLIENT_LOG_REQUEST

/-- Clearing the last byte, as `get_text` does. -/
def clearLast (packet : Bytes) : Bytes := overwrite packet (packet.length - 1) [0]

/-- A game packet after `pingreply`, if its type is that. -/
def editReply (struct : Bytes) : Bytes :=
  if Packet.mType struct = PACKET_PING_REPLY then Events.Out.pingreply struct else struct

/-- A game packet after the dice are shown as another number. -/
def editDice (out : Settings) (struct : Bytes) : Bytes :=
  if Packet.mType struct = 8 ∧ Packet.mIntData struct = 0 ∧ out.visdice = true then
    Packet.setCount struct (UInt8.ofNat (UInt32.ofInt out.sayi).toNat)
  else struct

/-- The bytes of a client packet that are handed over, if it is. -/
def editedOutgoing (packet : Bytes) : Bytes :=
  if IsText packet then clearLast packet else (structOf packet).elim packet editReply

/-- The bytes of a server packet that are handed over, if it is. -/
def editedIncoming (out : Settings) (packet : Bytes) : Bytes :=
  if IsText packet ∨ getPacketType packet = NET_MESSAGE_TRACK then clearLast packet
  else (structOf packet).elim packet (editDice out)

/-- A verdict for which the loop leaves the packet alone exactly if `ignores`, and which
hands over nothing but `edited`. -/
structure Verdict.For (verdict : Verdict) (ignores : Prop) (edited : Bytes) : Prop where
  ignored : verdict = .ignored ↔ ignores
  forwarded : ∀ packet, verdict = .forwarded packet → packet = edited

theorem Verdict.For.forward {ignores : Prop} {edited : Bytes} (hkeeps : ¬ ignores) :
    (Verdict.forwarded edited).For ignores edited :=
  ⟨iff_of_false nofun hkeeps, fun packet hpacket => by cases hpacket; rfl⟩

theorem Verdict.For.ignore {ignores : Prop} {edited : Bytes} (hignores : ignores) :
    Verdict.ignored.For ignores edited :=
  ⟨iff_of_true rfl hignores, nofun⟩

theorem judge_verdict {handler : Proxy Bool} {packet : Bytes} {verdict : Verdict}
    {state middle : ProxyState} (hrun : (judge handler packet).run state = .ok verdict middle)
    {ignores : Prop} (hkeeps : ¬ ignores) : verdict.For ignores packet := by
  obtain ⟨consumed, after, -, hrest⟩ := run_bind_eq_ok state hrun
  cases consumed with
  | true =>
      cases hrest
      exact ⟨iff_of_false nofun hkeeps, nofun⟩
  | false =>
      cases hrest
      exact .forward hkeeps

theorem view_eq_ok {α β : Type} {value : Except Abort α} {next : α → Proxy β} {result : β}
    {state middle : ProxyState} (hrun : (view value >>= next).run state = .ok result middle) :
    ∃ found, value = .ok found ∧ (next found).run state = .ok result middle := by
  cases value with
  | error failure => cases hrun
  | ok found => exact ⟨found, rfl, hrun⟩

theorem getText_eq_ok {packet : Bytes} {result : Bytes × Bytes}
    (hresult : getText packet = .ok result) : result.2 = clearLast packet := by
  unfold getText at hresult
  by_cases hlength : 4 < (overwrite packet (packet.length - 1) [0]).length
  · simp only [if_pos hlength] at hresult
    cases hresult
    rfl
  · simp only [if_neg hlength] at hresult
    cases hresult

theorem structOf_eq_none {packet : Bytes}
    (hother : getPacketType packet ≠ NET_MESSAGE_GAME_PACKET) : structOf packet = none := by
  rw [structOf, if_neg hother]

theorem structOf_eq {packet : Bytes} {struct : Option Bytes}
    (hgame : getPacketType packet = NET_MESSAGE_GAME_PACKET)
    (hstruct : getStruct packet = .ok struct) : structOf packet = struct := by
  rw [structOf, if_pos hgame, hstruct]
  rfl

theorem structOf_eq_some {packet struct : Bytes} (hstruct : structOf packet = some struct) :
    getPacketType packet = NET_MESSAGE_GAME_PACKET ∧ getStruct packet = .ok (some struct) := by
  unfold structOf at hstruct
  by_cases hgame : getPacketType packet = NET_MESSAGE_GAME_PACKET
  · rw [if_pos hgame] at hstruct
    cases hget : getStruct packet with
    | error failure => rw [hget] at hstruct; cases hstruct
    | ok found =>
        rw [hget] at hstruct
        cases found with
        | none => cases hstruct
        | some other => cases hstruct; exact ⟨hgame, rfl⟩
  · rw [if_neg hgame] at hstruct
    cases hstruct

/-- The verdict on an accepted game packet from the client. -/
theorem outgoingGameVerdict_for {struct : Bytes} {verdict : Verdict} {state middle : ProxyState}
    (hrun : (outgoingGameVerdict struct).run state = .ok verdict middle) :
    verdict.For (EndsGame struct ∧ state.gt.inGame = true) (editReply struct) := by
  have hkeeps {type : UInt8} (htype : Packet.mType struct = type)
      (hdisconnect : type ≠ PACKET_DISCONNECT) (hfail : type ≠ PACKET_APP_INTEGRITY_FAIL) :
      ¬ (EndsGame struct ∧ state.gt.inGame = true) := by
    rintro ⟨hends, -⟩
    rw [EndsGame, htype] at hends
    exact hends.elim hdisconnect hfail
  unfold outgoingGameVerdict at hrun
  by_cases hstate : Packet.mType struct = PACKET_STATE
  · rw [if_pos hstate] at hrun
    rw [editReply, if_neg (by rw [hstate]; decide)]
    exact judge_verdict hrun (hkeeps hstate (by decide) (by decide))
  rw [if_neg hstate] at hrun
  by_cases hcall : Packet.mType struct = PACKET_CALL_FUNCTION
  · rw [if_pos hcall] at hrun
    obtain ⟨list, -, hrest⟩ := view_eq_ok hrun
    cases hrest
    rw [editReply, if_neg (by rw [hcall]; decide)]
    exact .forward (hkeeps hcall (by decide) (by decide))
  rw [if_neg hcall] at hrun
  by_cases hreply : Packet.mType struct = PACKET_PING_REPLY
  · rw [if_pos hreply] at hrun
    cases hrun
    rw [editReply, if_pos hreply]
    exact .forward (hkeeps hreply (by decide) (by decide))
  rw [if_neg hreply] at hrun
  rw [editReply, if_neg hreply]
  rw [EndsGame]
  by_cases hends : Packet.mType struct = PACKET_DISCONNECT ∨
      Packet.mType struct = PACKET_APP_INTEGRITY_FAIL
  · rw [if_pos hends] at hrun
    obtain ⟨now, same, hget, hrest⟩ := run_bind_eq_ok state hrun
    cases hget
    by_cases hgame : state.gt.inGame = true
    · rw [if_pos hgame] at hrest
      cases hrest
      exact .ignore ⟨hends, hgame⟩
    · rw [if_neg hgame] at hrest
      cases hrest
      exact .forward fun h => hgame h.2
  · rw [if_neg hends] at hrun
    cases hrun
    exact .forward fun h => hends h.1

theorem outgoingVerdict_for {packet : Bytes} {verdict : Verdict} {state middle : ProxyState}
    (hrun : (outgoingVerdict packet).run state = .ok verdict middle) :
    verdict.For (IgnoresOutgoing state packet) (editedOutgoing packet) := by
  have hkeeps (htrack : getPacketType packet ≠ NET_MESSAGE_TRACK)
      (hlog : getPacketType packet ≠ NET_MESSAGE_CLIENT_LOG_RESPONSE)
      (hnone : structOf packet = none) : ¬ IgnoresOutgoing state packet := by
    rintro (h | h | ⟨struct, hstruct, -⟩)
    · exact htrack h
    · exact hlog h
    · rw [hnone] at hstruct
      cases hstruct
  have htext {handler : Bytes → Handler Bool} {type : UInt8}
      (htype : getPacketType packet = type) (htext : IsText packet)
      (htrack : type ≠ NET_MESSAGE_TRACK) (hlog : type ≠ NET_MESSAGE_CLIENT_LOG_RESPONSE)
      (hother : type ≠ NET_MESSAGE_GAME_PACKET)
      (hjudge : (view (getText packet) >>= fun result =>
        judge (handler result.1).code result.2).run state = .ok verdict middle) :
      verdict.For (IgnoresOutgoing state packet) (editedOutgoing packet) := by
    obtain ⟨result, hresult, hrest⟩ := view_eq_ok hjudge
    rw [editedOutgoing, if_pos htext, ← getText_eq_ok hresult]
    subst htype
    exact judge_verdict hrest (hkeeps htrack hlog (structOf_eq_none hother))
  unfold outgoingVerdict at hrun
  by_cases hgeneric : getPacketType packet = NET_MESSAGE_GENERIC_TEXT
  · rw [if_pos hgeneric] at hrun
    exact htext hgeneric (.inl hgeneric) (by decide) (by decide) (by decide) hrun
  rw [if_neg hgeneric] at hrun
  by_cases hmessage : getPacketType packet = NET_MESSAGE_GAME_MESSAGE
  · rw [if_pos hmessage] at hrun
    exact htext hmessage (.inr hmessage) (by decide) (by decide) (by decide) hrun
  rw [if_neg hmessage] at hrun
  have hother : ¬ IsText packet := not_or.mpr ⟨hgeneric, hmessage⟩
  rw [editedOutgoing, if_neg hother]
  by_cases hgame : getPacketType packet = NET_MESSAGE_GAME_PACKET
  · rw [if_pos hgame] at hrun
    obtain ⟨result, hresult, hrest⟩ := view_eq_ok hrun
    rw [structOf_eq hgame hresult]
    have htrack : getPacketType packet ≠ NET_MESSAGE_TRACK := by rw [hgame]; decide
    have hlog : getPacketType packet ≠ NET_MESSAGE_CLIENT_LOG_RESPONSE := by rw [hgame]; decide
    cases result with
    | none =>
        cases hrest
        exact .forward (hkeeps htrack hlog (structOf_eq hgame hresult))
    | some struct =>
        have hverdict := outgoingGameVerdict_for hrest
        refine ⟨hverdict.ignored.trans ?_, hverdict.forwarded⟩
        rw [IgnoresOutgoing, or_iff_right htrack, or_iff_right hlog, structOf_eq hgame hresult]
        simp only [Option.some.injEq, exists_eq_left']
  · rw [if_neg hgame] at hrun
    rw [structOf_eq_none hgame]
    by_cases hleft : getPacketType packet = NET_MESSAGE_TRACK ∨
        getPacketType packet = NET_MESSAGE_CLIENT_LOG_RESPONSE
    · rw [if_pos hleft] at hrun
      cases hrun
      exact .ignore (hleft.imp_right .inl)
    · rw [if_neg hleft] at hrun
      cases hrun
      rw [not_or] at hleft
      exact .forward (hkeeps hleft.1 hleft.2 (structOf_eq_none hgame))

theorem dicePacket_eq_ok {struct result : Bytes} {state middle : ProxyState}
    (htype : Packet.mType struct = 8)
    (hrun : (dicePacket struct).code.run state = .ok result middle) :
    result = editDice state.out struct := by
  unfold dicePacket at hrun
  rw [editDice]
  by_cases hdata : Packet.mIntData struct = 0
  · have hshown {now : ProxyState} {count : UInt8} (hend : (show Handler Bytes from
        if state.out.visdice = true then return Packet.setCount struct count
        else return struct).code.run now = .ok result middle) :
        result = if state.out.visdice = true then Packet.setCount struct count else struct := by
      by_cases hvisible : state.out.visdice = true
      · rw [if_pos hvisible] at hend ⊢
        cases hend
        rfl
      · rw [if_neg hvisible] at hend ⊢
        cases hend
        rfl
    simp only [if_pos hdata] at hrun
    simp only [htype, hdata, true_and]
    obtain ⟨out, same, hout, hrest⟩ := Confined.bind_eq_ok hrun
    cases hout
    by_cases hannounced : state.out.dicespeed = true
    · rw [if_pos hannounced] at hrest
      obtain ⟨_, logged, -, hrest⟩ := Confined.bind_eq_ok hrest
      exact hshown hrest
    · rw [if_neg hannounced] at hrest
      exact hshown hrest
  · simp only [if_neg hdata] at hrun
    obtain ⟨out, same, hout, hrest⟩ := Confined.bind_eq_ok hrun
    cases hrest
    rw [if_neg fun h => hdata h.2.1]

/-- The verdict on an accepted game packet from the server. -/
theorem incomingGameVerdict_for {struct : Bytes} {verdict : Verdict} {state middle : ProxyState}
    (hrun : (incomingGameVerdict struct).run state = .ok verdict middle) :
    verdict.For False (editDice state.out struct) := by
  unfold incomingGameVerdict at hrun
  by_cases hdice : Packet.mType struct = 8
  · rw [if_pos hdice] at hrun
    obtain ⟨result, after, hresult, hrest⟩ := run_bind_eq_ok state hrun
    cases hrest
    rw [← dicePacket_eq_ok hdice hresult]
    exact .forward not_false
  rw [if_neg hdice] at hrun
  have hsame : editDice state.out struct = struct := by
    rw [editDice, if_neg fun h => hdice h.1]
  rw [hsame]
  by_cases hrequest : Packet.mType struct = PACKET_PING_REQUEST
  · rw [if_pos hrequest] at hrun
    obtain ⟨_, after, -, hrest⟩ := run_bind_eq_ok state hrun
    cases hrest
    exact .forward not_false
  rw [if_neg hrequest] at hrun
  by_cases hcall : Packet.mType struct = PACKET_CALL_FUNCTION
  · rw [if_pos hcall] at hrun
    exact judge_verdict hrun not_false
  rw [if_neg hcall] at hrun
  by_cases hmap : Packet.mType struct = PACKET_SEND_MAP_DATA
  · rw [if_pos hmap] at hrun
    exact judge_verdict hrun not_false
  rw [if_neg hmap] at hrun
  by_cases hstate : Packet.mType struct = PACKET_STATE
  · rw [if_pos hstate] at hrun
    exact judge_verdict hrun not_false
  · rw [if_neg hstate] at hrun
    cases hrun
    exact .forward not_false

theorem incomingVerdict_for {packet : Bytes} {verdict : Verdict} {state middle : ProxyState}
    (hrun : (incomingVerdict packet).run state = .ok verdict middle) :
    verdict.For (IgnoresIncoming packet) (editedIncoming state.out packet) := by
  have htext {handler : Bytes → Handler Bool} {type : UInt8}
      (htype : getPacketType packet = type)
      (htext : IsText packet ∨ getPacketType packet = NET_MESSAGE_TRACK)
      (hrequest : type ≠ NET_MESSAGE_CLIENT_LOG_REQUEST)
      (hjudge : (view (getText packet) >>= fun result =>
        judge (handler result.1).code result.2).run state = .ok verdict middle) :
      verdict.For (IgnoresIncoming packet) (editedIncoming state.out packet) := by
    obtain ⟨result, hresult, hrest⟩ := view_eq_ok hjudge
    rw [editedIncoming, if_pos htext, ← getText_eq_ok hresult]
    subst htype
    exact judge_verdict hrest hrequest
  unfold incomingVerdict at hrun
  by_cases hempty : packet = []
  · rw [if_pos hempty] at hrun
    cases hrun
    subst hempty
    have hrequest : ¬ getPacketType [] = NET_MESSAGE_CLIENT_LOG_REQUEST := by decide
    exact .forward hrequest
  rw [if_neg hempty] at hrun
  by_cases hgeneric : getPacketType packet = NET_MESSAGE_GENERIC_TEXT
  · rw [if_pos hgeneric] at hrun
    exact htext hgeneric (.inl (.inl hgeneric)) (by decide) hrun
  rw [if_neg hgeneric] at hrun
  by_cases hmessage : getPacketType packet = NET_MESSAGE_GAME_MESSAGE
  · rw [if_pos hmessage] at hrun
    exact htext hmessage (.inl (.inr hmessage)) (by decide) hrun
  rw [if_neg hmessage] at hrun
  have hother : ¬ IsText packet := not_or.mpr ⟨hgeneric, hmessage⟩
  by_cases hgame : getPacketType packet = NET_MESSAGE_GAME_PACKET
  · rw [if_pos hgame] at hrun
    obtain ⟨result, hresult, hrest⟩ := view_eq_ok hrun
    have htrack : getPacketType packet ≠ NET_MESSAGE_TRACK := by rw [hgame]; decide
    have hrequest : ¬ IgnoresIncoming packet := by rw [IgnoresIncoming, hgame]; decide
    rw [editedIncoming, if_neg (not_or.mpr ⟨hother, htrack⟩), structOf_eq hgame hresult]
    cases result with
    | none =>
        cases hrest
        exact .forward hrequest
    | some struct =>
        have hverdict := incomingGameVerdict_for hrest
        exact ⟨hverdict.ignored.trans (iff_of_false not_false hrequest), hverdict.forwarded⟩
  rw [if_neg hgame] at hrun
  by_cases htrack : getPacketType packet = NET_MESSAGE_TRACK
  · rw [if_pos htrack] at hrun
    exact htext htrack (.inr htrack) (by decide) hrun
  rw [if_neg htrack] at hrun
  rw [editedIncoming, if_neg (not_or.mpr ⟨hother, htrack⟩), structOf_eq_none hgame]
  by_cases hrequest : getPacketType packet = NET_MESSAGE_CLIENT_LOG_REQUEST
  · rw [if_pos hrequest] at hrun
    cases hrun
    exact .ignore hrequest
  · rw [if_neg hrequest] at hrun
    cases hrun
    exact .forward hrequest

/-! ## Calls on the received packet -/

/-- The call is made on the packet of the event. -/
def onPacket : Call → Bool
  | .packetDestroy => true
  | .peerSend _ .received _ _ => true
  | _ => false

/-- The calls on received packets. -/
def packetCalls (trace : List Call) : List Call := trace.filter onPacket

theorem disconnect_packetCalls (state : ProxyState) (reset : Bool) :
    packetCalls (state.disconnect reset).trace = packetCalls state.trace := by
  have hdrop (state : ProxyState) :
      packetCalls state.dropConnection.trace = packetCalls state.trace := by
    unfold ProxyState.dropConnection
    cases state.server.mServerPeer with
    | none => rfl
    | some peer => cases state.server.mRealServer <;> rfl
  cases reset <;> exact hdrop _

theorem move_packetCalls {first second : ProxyState} (hmove : Move first second) :
    packetCalls second.trace = packetCalls first.trace := by
  cases hmove with
  | edit => rfl
  | send => rfl
  | disconnect reset => exact disconnect_packetCalls _ _

theorem dropHost_packetCalls (state : ProxyState) :
    packetCalls (dropHost state).trace = packetCalls state.trace := by
  unfold dropHost
  cases state.server.mRealServer <;> rfl

/-! ## What decisions leave alone -/

/-- A part of the state that neither moves nor redirects touch. -/
structure Untouched {γ : Type} (part : ProxyState → γ) : Prop where
  move : ∀ first second, Move first second → part second = part first
  stored : ∀ state server, SamePointers server state.server →
    part (redirectStored state server) = part state
  drop : ∀ state, part (dropHost state) = part state

theorem untouched_packetCalls : Untouched fun state => packetCalls state.trace where
  move := fun _ _ hmove => move_packetCalls hmove
  stored := fun _ _ _ => rfl
  drop := dropHost_packetCalls

/-- A computation that leaves a part of the state alone. -/
def Leaves {γ α : Type} (part : ProxyState → γ) (m : Proxy α) : Prop :=
  ∀ state value after, m.run state = .ok value after → part after = part state

namespace Leaves

variable {γ α β : Type} {part : ProxyState → γ}

theorem pure (value : α) : Leaves part (Pure.pure value : Proxy α) := by
  intro state result after hrun
  cases hrun
  rfl

theorem bind {first : Proxy α} {next : α → Proxy β} (hfirst : Leaves part first)
    (hnext : ∀ value, Leaves part (next value)) : Leaves part (first >>= next) := by
  intro state result after hrun
  obtain ⟨value, middle, hvalue, hrest⟩ := run_bind_eq_ok state hrun
  exact (hnext value middle result after hrest).trans (hfirst state value middle hvalue)

theorem ite {condition : Prop} [Decidable condition] {first second : Proxy α}
    (hfirst : Leaves part first) (hsecond : Leaves part second) :
    Leaves part (if condition then first else second) := by
  by_cases hcondition : condition
  · rwa [if_pos hcondition]
  · rwa [if_neg hcondition]

theorem get : Leaves part (MonadState.get : Proxy ProxyState) := by
  intro state result after hrun
  cases hrun
  rfl

theorem view (value : Except Abort α) : Leaves part (Server.view value) := by
  intro state result after hrun
  cases value with
  | error failure => cases hrun
  | ok found =>
      cases hrun
      rfl

/-- Handlers only move. -/
theorem handler (huntouched : Untouched part) (handler : Handler α) :
    Leaves part handler.code := by
  intro state value after hrun
  have hkeeps := Confined.keeps
    (I := fun now => part now = part state)
    (fun first second hmove hfirst => (huntouched.move first second hmove).trans hfirst)
    handler state rfl
  rwa [hrun] at hkeeps

theorem redirectServer (huntouched : Untouched part) (list : VariantList) :
    Leaves part (Server.redirectServer list) := by
  intro state value after hrun
  obtain ⟨-, sent, hsent, rfl⟩ := redirectServer_eq_ok hrun
  have hleaves := handler huntouched _ _ _ _ hsent
  rw [huntouched.stored _ _ (redirectTarget_pointers _ _)] at hleaves
  rw [huntouched.drop, hleaves]

theorem judge {handler : Proxy Bool} (hhandler : Leaves part handler) (packet : Bytes) :
    Leaves part (Server.judge handler packet) :=
  bind hhandler fun _ => ite (pure _) (pure _)

theorem variantlist (huntouched : Untouched part) (packet : Bytes) :
    Leaves part (Events.In.variantlist packet) := by
  unfold Events.In.variantlist
  cases Events.In.decodeCall packet with
  | error failure => exact fun _ _ _ hrun => by cases hrun
  | ok list =>
      refine bind (handler huntouched _) fun _ => ite ?_ (handler huntouched _)
      exact bind (redirectServer huntouched list) fun _ => pure _

theorem outgoingGameVerdict (huntouched : Untouched part) (packet : Bytes) :
    Leaves part (Server.outgoingGameVerdict packet) :=
  ite (judge (handler huntouched _) _) (ite (bind (view _) fun _ => pure _) (ite (pure _)
    (ite (bind get fun _ => ite (pure _) (pure _)) (pure _))))

theorem outgoingVerdict (huntouched : Untouched part) (packet : Bytes) :
    Leaves part (Server.outgoingVerdict packet) := by
  refine ite (bind (view _) fun _ => judge (handler huntouched _) _) ?_
  refine ite (bind (view _) fun _ => judge (handler huntouched _) _) ?_
  refine ite (bind (view _) fun result => ?_) (ite (pure _) (pure _))
  cases result with
  | none => exact pure _
  | some struct => exact outgoingGameVerdict huntouched struct

theorem incomingGameVerdict (huntouched : Untouched part) (packet : Bytes) :
    Leaves part (Server.incomingGameVerdict packet) := by
  refine ite (bind (handler huntouched _) fun _ => pure _) ?_
  refine ite (bind (handler huntouched _) fun _ => pure _) ?_
  refine ite (judge (variantlist huntouched _) _) (ite (judge (handler huntouched _) _) ?_)
  exact ite (judge (handler huntouched _) _) (pure _)

theorem incomingVerdict (huntouched : Untouched part) (packet : Bytes) :
    Leaves part (Server.incomingVerdict packet) := by
  refine ite (pure _) (ite (bind (view _) fun _ => judge (handler huntouched _) _) ?_)
  refine ite (bind (view _) fun _ => judge (handler huntouched _) _) ?_
  refine ite (bind (view _) fun result => ?_) ?_
  · cases result with
    | none => exact pure _
    | some struct => exact incomingGameVerdict huntouched struct
  · exact ite (bind (view _) fun _ => judge (handler huntouched _) _) (ite (pure _) (pure _))

end Leaves

/-! ## One received packet -/

/-- What the ending of a verdict makes of the state. -/
inductive Ends (client : Bool) : Verdict → ProxyState → ProxyState → Prop
  | ignored (state : ProxyState) : Ends client .ignored state state
  | consumed (state : ProxyState) :
      Ends client .consumed state { state with trace := .packetDestroy :: state.trace }
  | stranded (state : ProxyState) (packet : Bytes) (htarget : state.target client = none) :
      Ends client (.forwarded packet) state state
  | sent (state : ProxyState) (packet : Bytes) (peer : Peer) (host : Host)
      (htarget : state.target client = some (peer, host)) :
      Ends client (.forwarded packet) state (state.sendAndFlush .received peer host packet)

theorem ends_of_settle {client : Bool} {verdict : Verdict} {state after : ProxyState} {flow : Flow}
    (hrun : (settle client verdict).run state = .ok flow after) :
    Ends client verdict state after := by
  cases verdict with
  | ignored =>
      cases hrun
      exact .ignored state
  | consumed =>
      cases hrun
      exact .consumed state
  | forwarded packet =>
      cases htarget : state.target client with
      | none =>
          cases (forward_run_none htarget packet).symm.trans hrun
          exact .stranded state packet htarget
      | some pair =>
          cases (forward_run htarget packet).symm.trans hrun
          exact .sent state packet pair.1 pair.2 htarget

/-- The packet of a receive event. -/
def Input.packet : Input → Option Bytes
  | .client _ (.receive packet) => some packet
  | .server (.receive packet) => some packet
  | _ => none

/-- Whether the packet of an input goes on to the client. -/
def Input.towardsClient : Input → Bool
  | .client _ _ => false
  | .server _ => true

/-- The decision on the packet of an input, taken after the peer is remembered. -/
def judged (state : ProxyState) : Input → Option (EStateM.Result Abort ProxyState Verdict)
  | .client slot (.receive packet) =>
      state.server.mProxyServer.map fun host =>
        (outgoingVerdict packet).run (rememberPeer state host slot)
  | .server (.receive packet) =>
      state.server.mRealServer.map fun _ => (incomingVerdict packet).run state
  | _ => none

/-- A receive step is a decision with its ending. -/
theorem receive_cases {state after : ProxyState} {input : Input} {packet : Bytes}
    (hpacket : input.packet = some packet) (hstep : step state input = some after) :
    ∃ verdict middle, judged state input = some (.ok verdict middle) ∧
      packetCalls middle.trace = packetCalls state.trace ∧
      Ends input.towardsClient verdict middle after := by
  obtain ⟨flow, hrun⟩ := step_eq_some.mp hstep
  cases input with
  | client slot event =>
      cases event with
      | connect => cases hpacket
      | disconnect => cases hpacket
      | receive received =>
          cases hhost : state.server.mProxyServer with
          | none =>
              unfold body outgoingEvent at hrun
              rw [run_get_bind, hhost] at hrun
              cases hrun
          | some host =>
              rw [body, outgoingEvent_run hhost] at hrun
              change (outgoingPacket received).run (rememberPeer state host slot) = _ at hrun
              rw [outgoingPacket_eq] at hrun
              obtain ⟨verdict, middle, hverdict, hend⟩ := run_bind_eq_ok _ hrun
              have hquiet := Leaves.outgoingVerdict untouched_packetCalls received _ _ _ hverdict
              refine ⟨verdict, middle, ?_, hquiet, ends_of_settle hend⟩
              rw [judged, hhost, ← hverdict]
              rfl
  | server event =>
      cases event with
      | connect => cases hpacket
      | disconnect => cases hpacket
      | receive received =>
          cases hreal : state.server.mRealServer with
          | none =>
              unfold body incomingEvent at hrun
              rw [run_get_bind, hreal] at hrun
              cases hrun
          | some host =>
              unfold body incomingEvent at hrun
              rw [run_get_bind, hreal] at hrun
              simp only [incomingPacket_eq] at hrun
              obtain ⟨verdict, middle, hverdict, hend⟩ := run_bind_eq_ok _ hrun
              have hquiet := Leaves.incomingVerdict untouched_packetCalls received _ _ _ hverdict
              refine ⟨verdict, middle, ?_, hquiet, ends_of_settle hend⟩
              rw [judged, hreal, ← hverdict]
              rfl

/-- The packets that are left alone. -/
def Ignores (state : ProxyState) : Input → Prop
  | .client _ (.receive packet) => IgnoresOutgoing state packet
  | .server (.receive packet) => IgnoresIncoming packet
  | _ => False

/-- The bytes that are handed over, if the packet is. -/
def edited (state : ProxyState) : Input → Bytes
  | .client _ (.receive packet) => editedOutgoing packet
  | .server (.receive packet) => editedIncoming state.out packet
  | _ => []

theorem judged_for {state middle : ProxyState} {input : Input} {verdict : Verdict}
    (hjudged : judged state input = some (.ok verdict middle)) :
    verdict.For (Ignores state input) (edited state input) := by
  cases input with
  | client slot event =>
      cases event with
      | connect => cases hjudged
      | disconnect => cases hjudged
      | receive packet =>
          obtain ⟨host, -, hrun⟩ := Option.map_eq_some_iff.mp hjudged
          have hverdict := outgoingVerdict_for hrun
          exact hverdict
  | server event =>
      cases event with
      | connect => cases hjudged
      | disconnect => cases hjudged
      | receive packet =>
          obtain ⟨host, -, hrun⟩ := Option.map_eq_some_iff.mp hjudged
          exact incomingVerdict_for hrun

/-- A proxy between a client and a server. -/
def betweenPeers : ProxyState :=
  { server := { mProxyServer := some 0, mRealServer := some 1, mServerPeer := some ⟨1, 0⟩ } }

end SrmotionProxy.Server
