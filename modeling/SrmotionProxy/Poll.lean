/-
# The packet loops

`server::handle_outgoing`, `server::handle_incoming` and `server::poll`. Each loop is
given by its body for one event, which says whether the loop goes on or the method
returns. A run of the proxy is a sequence of such events in any order; an event that
ends in an uncaught exception or in undefined behaviour has no successor.
-/

import SrmotionProxy.Events.In
import SrmotionProxy.Events.Out
import SrmotionProxy.Lib.Runs

namespace SrmotionProxy

open SrmotionProxy.Lib SrmotionProxy.ENet SrmotionProxy.Proton

namespace Server

/-- An `ENetEvent`. -/
inductive Event where
  | connect
  | disconnect
  | receive (packet : Bytes)
  deriving DecidableEq, Repr

/-- How the body of a loop ends. -/
inductive Flow where
  | again
  | leave
  deriving DecidableEq, Repr

/-! ## Ends of the receive branches -/

/-- `enet_packet_destroy(evt.packet); return;` -/
def consume : Proxy Flow := do
  modify fun state => { state with trace := .packetDestroy :: state.trace }
  return .leave

/-- The tail of a receive branch: without a peer or a host the method returns,
otherwise the packet is handed over. -/
def forward (client : Bool) (packet : Bytes) : Proxy Flow := do
  let state ← get
  match state.target client with
  | none => return .leave
  | some (peer, host) =>
      set (state.sendAndFlush .received peer host packet)
      return .again

/-- `if (handler(...)) { enet_packet_destroy(evt.packet); return; } break;` -/
def consumeOrForward (client : Bool) (handler : Proxy Bool) (packet : Bytes) : Proxy Flow := do
  if ← handler then consume else forward client packet

/-- A view of a packet that may leave it. -/
def view {α : Type} (value : Except Abort α) : Proxy α :=
  match value with
  | .ok value => pure value
  | .error failure => throw failure

/-! ## Packets from the client -/

/-- A game packet that `get_struct` has accepted. -/
def outgoingGamePacket (packet : Bytes) : Proxy Flow := do
  let type := Packet.mType packet
  if type = PACKET_STATE then
    consumeOrForward false (Events.Out.state packet).code packet
  else if type = PACKET_CALL_FUNCTION then
    let _ ← view (Events.Out.variantlist packet)
    forward false packet
  else if type = PACKET_PING_REPLY then
    forward false (Events.Out.pingreply packet)
  else if type = PACKET_DISCONNECT ∨ type = PACKET_APP_INTEGRITY_FAIL then
    if (← get).gt.inGame then return .leave else forward false packet
  else
    forward false packet

/-- The receive branch of `handle_outgoing`. -/
def outgoingPacket (packet : Bytes) : Proxy Flow := do
  let type := getPacketType packet
  if type = NET_MESSAGE_GENERIC_TEXT then
    let (text, packet) ← view (getText packet)
    consumeOrForward false (Events.Out.generictext text).code packet
  else if type = NET_MESSAGE_GAME_MESSAGE then
    let (text, packet) ← view (getText packet)
    consumeOrForward false (Events.Out.gamemessage text).code packet
  else if type = NET_MESSAGE_GAME_PACKET then
    match ← view (getStruct packet) with
    | none => forward false packet
    | some packet => outgoingGamePacket packet
  else if type = NET_MESSAGE_TRACK ∨ type = NET_MESSAGE_CLIENT_LOG_RESPONSE then
    return .leave
  else
    forward false packet

/-- The disconnect branch of `handle_outgoing`. -/
def outgoingDisconnect : Proxy Flow := do
  let state ← get
  if state.gt.inGame then
    return .leave
  else if state.gt.connecting then
    (Handler.disconnect false).code
    modify fun state => { state with gt := { state.gt with connecting := false } }
    return .leave
  else
    return .again

/-- The body of the loop of `handle_outgoing`, for an event of peer `slot`. -/
def outgoingEvent (slot : Nat) (event : Event) : Proxy Flow := do
  match (← get).server.mProxyServer with
  | none => throw .undefinedBehaviour
  | some host =>
      modifyServer fun server => { server with mGtPeer := some ⟨host, slot⟩ }
      match event with
      | .connect => if ← connect then return .again else return .leave
      | .receive packet => outgoingPacket packet
      | .disconnect => outgoingDisconnect

/-! ## Packets from the server -/

/-- Dice packets with no `m_int_data`: the roll is announced, and shown as another
number. -/
def dicePacket (packet : Bytes) : Handler Bytes := do
  let out ← Handler.getSettings
  if Packet.mIntData packet = 0 then
    if out.dicespeed then
      Handler.sendLog (ascii "`bThe dice `bwill roll a `#" ++
        toDecimal ((Packet.mCount packet).toNat + 1))
    if out.visdice then
      return Packet.setCount packet (UInt8.ofNat (UInt32.ofInt out.sayi).toNat)
    else
      return packet
  else
    return packet

/-- The `gameupdatepacket_t` that answers a ping. -/
def pingReplyData (packet : Bytes) : Bytes :=
  let pkt := zeros sizeofGameUpdatePacket
  let pkt := overwrite pkt 0 [PACKET_PING_REPLY]
  let pkt := overwrite pkt 20 (le32 (UInt32.ofInt (Packet.mIntData packet)))
  let pkt := overwrite pkt 24 (le32 0x42800000)
  let pkt := overwrite pkt 28 (le32 0x42800000)
  let pkt := overwrite pkt 32 (le32 0x447A0000)
  overwrite pkt 36 (le32 0x437A0000)

/-- Ping requests are answered to the client and still forwarded. -/
def pingRequest (packet : Bytes) : Handler Unit := do
  Handler.sendRaw true NET_MESSAGE_GAME_PACKET.toNat (pingReplyData packet)
  Handler.sendLog (ascii ("`b[`#S`b]:Ping reply was successfully `2sent!`b" ++
    "(Saved you from a DC or a possible ban)"))

/-- A game packet that `get_struct` has accepted. -/
def incomingGamePacket (packet : Bytes) : Proxy Flow := do
  let type := Packet.mType packet
  if type = 8 then
    let packet ← (dicePacket packet).code
    forward true packet
  else if type = PACKET_PING_REQUEST then
    (pingRequest packet).code
    forward true packet
  else if type = PACKET_CALL_FUNCTION then
    consumeOrForward true (Events.In.variantlist packet) packet
  else if type = PACKET_SEND_MAP_DATA then
    consumeOrForward true (Events.In.sendmapdata packet).code packet
  else if type = PACKET_STATE then
    consumeOrForward true (Events.In.state packet).code packet
  else
    forward true packet

/-- The receive branch of `handle_incoming`; an empty packet has no data pointer. -/
def incomingPacket (packet : Bytes) : Proxy Flow := do
  let type := getPacketType packet
  if packet = [] then
    forward true packet
  else if type = NET_MESSAGE_GENERIC_TEXT then
    let (text, packet) ← view (getText packet)
    consumeOrForward true (Events.In.generictext text).code packet
  else if type = NET_MESSAGE_GAME_MESSAGE then
    let (text, packet) ← view (getText packet)
    consumeOrForward true (Events.In.gamemessage text).code packet
  else if type = NET_MESSAGE_GAME_PACKET then
    match ← view (getStruct packet) with
    | none => forward true packet
    | some packet => incomingGamePacket packet
  else if type = NET_MESSAGE_TRACK then
    let (text, packet) ← view (getText packet)
    consumeOrForward true (Events.In.tracking text).code packet
  else if type = NET_MESSAGE_CLIENT_LOG_REQUEST then
    return .leave
  else
    forward true packet

/-- The body of the loop of `handle_incoming`. -/
def incomingEvent (event : Event) : Proxy Flow := do
  match (← get).server.mRealServer with
  | none => throw .undefinedBehaviour
  | some _ =>
      match event with
      | .connect => return .again
      | .disconnect =>
          (Handler.disconnect true).code
          return .leave
      | .receive packet => incomingPacket packet

/-! ## Loops -/

/-- `server::handle_outgoing` on the events that `enet_host_service` has in store. -/
def handleOutgoing : List (Nat × Event) → Proxy Unit
  | [] => return ()
  | (slot, event) :: later => do
      match ← outgoingEvent slot event with
      | .again => handleOutgoing later
      | .leave => return ()

/-- `server::handle_incoming`. -/
def handleIncoming : List Event → Proxy Unit
  | [] => return ()
  | event :: later => do
      match ← incomingEvent event with
      | .again => handleIncoming later
      | .leave => return ()

/-- `server::poll`. -/
def poll (outgoing : List (Nat × Event)) (incoming : List Event) : Proxy Unit := do
  handleOutgoing outgoing
  match (← get).server.mRealServer with
  | none => return ()
  | some _ => handleIncoming incoming

/-! ## Runs -/

/-- One event at one of the two hosts. -/
inductive Input where
  | client (slot : Nat) (event : Event)
  | server (event : Event)
  deriving DecidableEq, Repr

/-- The body that processes an input. -/
def body : Input → Proxy Flow
  | .client slot event => outgoingEvent slot event
  | .server event => incomingEvent event

/-- The state after an input; none if the process does not survive it, or if there is
no host it could come from. -/
def step (state : ProxyState) (input : Input) : Option ProxyState :=
  match (body input).run state with
  | .ok _ after => some after
  | .error _ _ => none

/-- The state in which `main` calls `start`, with the port it got for the server. -/
def initial (env : Env) (port : Int) : ProxyState :=
  { env := env, server := { mPort := port, portz := port } }

/-- `server::start()` brings the proxy up in a state. -/
def Started (env : Env) (port : Int) (state : ProxyState) : Prop :=
  start.run (initial env port) = .ok true state

theorem step_eq_some {state after : ProxyState} {input : Input} :
    step state input = some after ↔ ∃ flow, (body input).run state = .ok flow after := by
  unfold step
  cases hrun : (body input).run state with
  | ok flow next => simp
  | error failure next => simp

/-- A call of `handle_outgoing` that returns is a run. -/
theorem handleOutgoing_runs (events : List (Nat × Event)) {state after : ProxyState}
    (hrun : (handleOutgoing events).run state = .ok () after) :
    ∃ inputs, runSteps step state inputs = some after := by
  induction events generalizing state with
  | nil =>
      cases hrun
      exact ⟨[], rfl⟩
  | cons first later ih =>
      obtain ⟨slot, event⟩ := first
      obtain ⟨flow, next, hfirst, hrest⟩ := run_bind_eq_ok state hrun
      have hstep : step state (.client slot event) = some next :=
        step_eq_some.mpr ⟨flow, hfirst⟩
      cases flow with
      | leave =>
          cases hrest
          exact ⟨[.client slot event], by simp [runSteps, hstep]⟩
      | again =>
          obtain ⟨inputs, hinputs⟩ := ih hrest
          exact ⟨.client slot event :: inputs, by simpa [runSteps, hstep] using hinputs⟩

/-- A call of `handle_incoming` that returns is a run. -/
theorem handleIncoming_runs (events : List Event) {state after : ProxyState}
    (hrun : (handleIncoming events).run state = .ok () after) :
    ∃ inputs, runSteps step state inputs = some after := by
  induction events generalizing state with
  | nil =>
      cases hrun
      exact ⟨[], rfl⟩
  | cons event later ih =>
      obtain ⟨flow, next, hfirst, hrest⟩ := run_bind_eq_ok state hrun
      have hstep : step state (.server event) = some next :=
        step_eq_some.mpr ⟨flow, hfirst⟩
      cases flow with
      | leave =>
          cases hrest
          exact ⟨[.server event], by simp [runSteps, hstep]⟩
      | again =>
          obtain ⟨inputs, hinputs⟩ := ih hrest
          exact ⟨.server event :: inputs, by simpa [runSteps, hstep] using hinputs⟩

/-- Whatever holds along all runs holds of `poll`: a call that returns is a run. -/
theorem poll_runs (outgoing : List (Nat × Event)) (incoming : List Event)
    {state after : ProxyState} (hrun : (poll outgoing incoming).run state = .ok () after) :
    ∃ inputs, runSteps step state inputs = some after := by
  obtain ⟨_, middle, hfirst, hrest⟩ := run_bind_eq_ok state hrun
  obtain ⟨inputs, hinputs⟩ := handleOutgoing_runs outgoing hfirst
  obtain ⟨now, same, hget, hrest⟩ := run_bind_eq_ok middle hrest
  cases hget
  cases hhost : middle.server.mRealServer with
  | none =>
      rw [hhost] at hrest
      cases hrest
      exact ⟨inputs, hinputs⟩
  | some host =>
      rw [hhost] at hrest
      obtain ⟨later, hlater⟩ := handleIncoming_runs incoming hrest
      exact ⟨inputs ++ later, by rw [runSteps_append inputs later hinputs, hlater]⟩

end Server

end SrmotionProxy
