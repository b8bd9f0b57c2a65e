/-
# The two sides of a channel

A peer sends and receives on every channel, and the two hardly touch. Here is what matters of
either side for the reliable commands of one channel, and the functions that leave a side
alone: everything that handles arriving packets keeps the outbound side, everything that sends
keeps the inbound side.
-/

import SrmotionProxy.ENet.Protocol

namespace SrmotionProxy.ENet.Protocol

open SrmotionProxy.Lib

/-! ## Sides -/

/-- What a peer keeps for the reliable commands it receives on one channel. -/
@[ext]
structure Inbound where
  number : Nat
  queue : List ENetIncomingCommand
  unreliable : List ENetIncomingCommand
  dispatched : List ENetIncomingCommand

/-- The reliable commands of one channel. -/
def reliableOn (channelID : Nat) (commands : List ENetIncomingCommand) :
    List ENetIncomingCommand :=
  commands.filter fun incoming =>
    incoming.command.channelID = channelID ∧ incoming.command.body.isReliable

@[simp] theorem reliableOn_append (channelID : Nat) (first second : List ENetIncomingCommand) :
    reliableOn channelID (first ++ second) =
      reliableOn channelID first ++ reliableOn channelID second :=
  List.filter_append ..

def ENetPeer.inbound (peer : ENetPeer) (channelID : Nat) : Inbound where
  number := (peer.channel channelID).incomingReliableSequenceNumber
  queue := (peer.channel channelID).incomingReliableCommands
  unreliable := (peer.channel channelID).incomingUnreliableCommands
  dispatched := reliableOn channelID peer.dispatchedCommands

/-- A step that changes no outbound side. -/
structure SameOutbound (before after : ENetPeer) : Prop where
  channel : ∀ channelID, (after.channel channelID).toOutgoingChannel =
    (before.channel channelID).toOutgoingChannel
  length : after.channels.length = before.channels.length
  sent : after.sentReliableCommands = before.sentReliableCommands
  queued : after.outgoingReliableCommands = before.outgoingReliableCommands

/-- A step that changes no inbound side. -/
structure SameInbound (before after : ENetPeer) : Prop where
  channel : ∀ channelID, (after.channel channelID).toIncomingChannel =
    (before.channel channelID).toIncomingChannel
  length : after.channels.length = before.channels.length
  dispatched : after.dispatchedCommands = before.dispatchedCommands
  allocated : after.allocated = before.allocated

variable {peer before middle after : ENetPeer} {host : ENetHost}

theorem SameOutbound.refl (peer : ENetPeer) : SameOutbound peer peer :=
  ⟨fun _ => rfl, rfl, rfl, rfl⟩

theorem SameOutbound.trans (hfirst : SameOutbound before middle)
    (hsecond : SameOutbound middle after) : SameOutbound before after :=
  ⟨fun channelID => (hsecond.channel channelID).trans (hfirst.channel channelID),
    hsecond.length.trans hfirst.length, hsecond.sent.trans hfirst.sent,
    hsecond.queued.trans hfirst.queued⟩

theorem SameInbound.refl (peer : ENetPeer) : SameInbound peer peer :=
  ⟨fun _ => rfl, rfl, rfl, rfl⟩

theorem SameInbound.trans (hfirst : SameInbound before middle)
    (hsecond : SameInbound middle after) : SameInbound before after :=
  ⟨fun channelID => (hsecond.channel channelID).trans (hfirst.channel channelID),
    hsecond.length.trans hfirst.length, hsecond.dispatched.trans hfirst.dispatched,
    hsecond.allocated.trans hfirst.allocated⟩

theorem SameInbound.inbound (hsame : SameInbound before after) (channelID : Nat) :
    after.inbound channelID = before.inbound channelID := by
  have hhalf := hsame.channel channelID
  ext1
  · exact congrArg IncomingChannel.incomingReliableSequenceNumber hhalf
  · exact congrArg IncomingChannel.incomingReliableCommands hhalf
  · exact congrArg IncomingChannel.incomingUnreliableCommands hhalf
  · exact congrArg (reliableOn channelID) hsame.dispatched

/-! ## Channels -/

theorem channel_setChannel (peer : ENetPeer) (channelID other : Nat) (channel : ENetChannel) :
    (peer.setChannel channelID channel).channel other =
      if channelID = other ∧ other < peer.channels.length then channel
      else peer.channel other := by
  unfold ENetPeer.channel ENetPeer.setChannel
  simp only [List.getD_eq_getElem?_getD, List.getElem?_set]
  by_cases hsame : channelID = other
  · subst hsame
    by_cases hlt : channelID < peer.channels.length
    · simp [hlt]
    · simp [hlt]
  · simp [hsame]

@[simp] theorem length_setChannel (peer : ENetPeer) (channelID : Nat) (channel : ENetChannel) :
    (peer.setChannel channelID channel).channels.length = peer.channels.length :=
  List.length_set

/-- What the new channel has in common with the old one is as it was on every channel. -/
theorem field_setChannel {α : Type} (field : ENetChannel → α) {channelID : Nat}
    {channel : ENetChannel} (hsame : field channel = field (peer.channel channelID))
    (other : Nat) :
    field ((peer.setChannel channelID channel).channel other) = field (peer.channel other) := by
  rw [channel_setChannel]
  split
  · next hhere => rw [hsame, hhere.1]
  · rfl

/-! ## What keeps both sides -/

theorem same_throttle (rtt : UInt32) :
    SameOutbound peer (enetPeerThrottle peer rtt).1 ∧
      SameInbound peer (enetPeerThrottle peer rtt).1 := by
  unfold enetPeerThrottle
  dsimp only
  split
  · exact ⟨⟨fun _ => rfl, rfl, rfl, rfl⟩, ⟨fun _ => rfl, rfl, rfl, rfl⟩⟩
  · split
    · exact ⟨⟨fun _ => rfl, rfl, rfl, rfl⟩, ⟨fun _ => rfl, rfl, rfl, rfl⟩⟩
    · split
      · exact ⟨⟨fun _ => rfl, rfl, rfl, rfl⟩, ⟨fun _ => rfl, rfl, rfl, rfl⟩⟩
      · exact ⟨.refl peer, .refl peer⟩

theorem same_measureRoundTrip (roundTripTime : UInt32) :
    SameOutbound peer (measureRoundTrip host peer roundTripTime) ∧
      SameInbound peer (measureRoundTrip host peer roundTripTime) := by
  obtain ⟨hout, hin⟩ := @same_throttle peer roundTripTime
  unfold measureRoundTrip
  dsimp only
  generalize (enetPeerThrottle peer roundTripTime).1 = throttled at hout hin
  constructor
  · refine hout.trans ?_
    repeat' split
    all_goals exact ⟨fun _ => rfl, rfl, rfl, rfl⟩
  · refine hin.trans ?_
    repeat' split
    all_goals exact ⟨fun _ => rfl, rfl, rfl, rfl⟩

theorem same_sendUnreliableLoop (queue : List ENetOutgoingCommand) (datagram : Datagram) :
    SameOutbound peer (sendUnreliableLoop queue peer datagram).2.1 ∧
      SameInbound peer (sendUnreliableLoop queue peer datagram).2.1 := by
  have hcounter (peer : ENetPeer) (counter : UInt32) :
      SameOutbound peer { peer with packetThrottleCounter := counter } ∧
        SameInbound peer { peer with packetThrottleCounter := counter } :=
    ⟨⟨fun _ => rfl, rfl, rfl, rfl⟩, ⟨fun _ => rfl, rfl, rfl, rfl⟩⟩
  fun_induction sendUnreliableLoop queue peer datagram with
  | case1 peer datagram => exact ⟨.refl peer, .refl peer⟩
  | case2 outgoing rest peer datagram commandSize hfull => exact ⟨.refl peer, .refl peer⟩
  | case3 outgoing rest peer datagram commandSize hroom hfirst counter throttled hdrop hshort ih =>
      exact ⟨(hcounter peer counter).1.trans ih.1, (hcounter peer counter).2.trans ih.2⟩
  | case4 outgoing rest peer datagram commandSize hroom hfirst counter throttled hkeep ih =>
      exact ⟨(hcounter peer counter).1.trans ih.1, (hcounter peer counter).2.trans ih.2⟩
  | case5 outgoing rest peer datagram commandSize hroom hlater ih => exact ih

theorem same_sendUnreliable (datagram : Datagram) :
    SameOutbound peer (enetProtocolSendUnreliableOutgoingCommands peer datagram).1 ∧
      SameInbound peer (enetProtocolSendUnreliableOutgoingCommands peer datagram).1 := by
  obtain ⟨hout, hin⟩ := @same_sendUnreliableLoop peer peer.outgoingUnreliableCommands datagram
  exact ⟨hout.trans ⟨fun _ => rfl, rfl, rfl, rfl⟩,
    hin.trans ⟨fun _ => rfl, rfl, rfl, rfl⟩⟩

/-! ## Sending keeps the inbound side -/

theorem sameInbound_enqueue (outgoing : ENetOutgoingCommand) :
    SameInbound peer (enetPeerSetupOutgoingCommand.enqueue peer outgoing) := by
  unfold enetPeerSetupOutgoingCommand.enqueue
  split
  · exact ⟨fun _ => rfl, rfl, rfl, rfl⟩
  · exact ⟨fun _ => rfl, rfl, rfl, rfl⟩

theorem sameInbound_setup (order : ENetOutgoingOrder) :
    SameInbound peer (enetPeerSetupOutgoingCommand peer order) := by
  unfold enetPeerSetupOutgoingCommand
  dsimp only
  split
  · refine .trans ?_ (sameInbound_enqueue _)
    exact ⟨fun _ => rfl, rfl, rfl, rfl⟩
  · split
    · refine .trans ?_ (sameInbound_enqueue _)
      exact ⟨field_setChannel (·.toIncomingChannel) rfl, length_setChannel .., rfl, rfl⟩
    · split
      · refine .trans ?_ (sameInbound_enqueue _)
        exact ⟨fun _ => rfl, rfl, rfl, rfl⟩
      · refine .trans ?_ (sameInbound_enqueue _)
        exact ⟨field_setChannel (·.toIncomingChannel) rfl, length_setChannel .., rfl, rfl⟩

theorem sameInbound_queueOutgoing (command : ENetProtocol) (packet : Option ENetPacket)
    (offset length : Nat) (allocates : Bool) :
    SameInbound peer ((enetPeerQueueOutgoingCommand peer command packet offset length
      allocates).getD peer) := by
  cases allocates with
  | false => exact .refl peer
  | true => exact sameInbound_setup _

theorem sameInbound_foldl_setup (orders : List ENetOutgoingOrder) :
    SameInbound peer (orders.foldl enetPeerSetupOutgoingCommand peer) := by
  induction orders generalizing peer with
  | nil => exact .refl peer
  | cons order orders ih => exact (sameInbound_setup order).trans ih

theorem sameInbound_send (channelID : Nat) (packet : ENetPacket) (allocates : Bool) :
    SameInbound peer (enetPeerSend host peer channelID packet allocates).1 := by
  unfold enetPeerSend
  dsimp only
  split
  · exact .refl peer
  · split
    · split
      · exact .refl peer
      · split
        · exact .refl peer
        · exact sameInbound_foldl_setup _
    · cases allocates with
      | false => exact .refl peer
      | true => exact sameInbound_setup _

theorem sameInbound_ping (allocates : Bool) : SameInbound peer (enetPeerPing peer allocates) := by
  unfold enetPeerPing
  split
  · exact .refl peer
  · exact sameInbound_queueOutgoing ..

theorem sameInbound_throttleConfigure (interval acceleration deceleration : UInt32)
    (allocates : Bool) : SameInbound peer
      (enetPeerThrottleConfigure peer interval acceleration deceleration allocates) := by
  refine .trans ?_ (sameInbound_queueOutgoing ..)
  exact ⟨fun _ => rfl, rfl, rfl, rfl⟩

theorem sameInbound_bandwidthThrottle (limit bandwidth : Option UInt32) (allocates : Bool) :
    SameInbound peer (enetHostBandwidthThrottle host peer limit bandwidth allocates) := by
  unfold enetHostBandwidthThrottle
  split
  · exact .refl peer
  · have hlimit : SameInbound peer (limit.elim peer peer.limitThrottle) := by
      cases limit with
      | none => exact .refl peer
      | some limit => exact ⟨fun _ => rfl, rfl, rfl, rfl⟩
    cases bandwidth with
    | none => exact hlimit
    | some bandwidth => exact hlimit.trans (sameInbound_queueOutgoing ..)

theorem sameInbound_removeSent (reliableSequenceNumber channelID : Nat) :
    SameInbound peer
      (enetProtocolRemoveSentReliableCommand peer reliableSequenceNumber channelID).1 := by
  have hleave : SameInbound peer
      (enetProtocolRemoveSentReliableCommand.leave reliableSequenceNumber channelID peer) := by
    unfold enetProtocolRemoveSentReliableCommand.leave
    split
    · exact ⟨field_setChannel (·.toIncomingChannel) rfl, length_setChannel .., rfl, rfl⟩
    · exact .refl peer
  have hschedule (peer : ENetPeer) : SameInbound peer
      (enetProtocolRemoveSentReliableCommand.schedule peer) := by
    unfold enetProtocolRemoveSentReliableCommand.schedule
    split
    · exact .refl peer
    · exact ⟨fun _ => rfl, rfl, rfl, rfl⟩
  unfold enetProtocolRemoveSentReliableCommand
  dsimp only
  split
  · refine .trans hleave (.trans ?_ (hschedule _))
    exact ⟨fun _ => rfl, rfl, rfl, rfl⟩
  · split
    · exact .refl peer
    · refine .trans hleave (.trans ?_ (hschedule _))
      exact ⟨fun _ => rfl, rfl, rfl, rfl⟩

theorem sameInbound_checkTimeoutsLoop {sent kept late : List ENetOutgoingCommand}
    {result : ENetPeer × List ENetOutgoingCommand × List ENetOutgoingCommand}
    (hloop : checkTimeoutsLoop host sent peer kept late = some result) :
    SameInbound peer result.1 := by
  induction sent generalizing peer kept late with
  | nil =>
      cases hloop
      exact .refl peer
  | cons outgoing rest ih =>
      rw [checkTimeoutsLoop] at hloop
      split at hloop
      · exact ih hloop
      · split at hloop
        · cases hloop
        · refine .trans ?_ (ih hloop)
          exact ⟨fun _ => rfl, rfl, rfl, rfl⟩

theorem sameInbound_checkTimeouts (hcheck : enetProtocolCheckTimeouts host peer = some after) :
    SameInbound peer after := by
  unfold enetProtocolCheckTimeouts at hcheck
  split at hcheck
  · cases hcheck
  · next hloop =>
      cases hcheck
      refine (sameInbound_checkTimeoutsLoop hloop).trans ?_
      exact ⟨fun _ => rfl, rfl, rfl, rfl⟩

theorem sameInbound_launch (outgoing : ENetOutgoingCommand) :
    SameInbound peer (launch host peer outgoing) := by
  unfold launch
  dsimp only
  split
  · exact ⟨field_setChannel (·.toIncomingChannel) rfl, length_setChannel .., rfl, rfl⟩
  · exact ⟨fun _ => rfl, rfl, rfl, rfl⟩

theorem sameInbound_sendReliableLoop (queue : List ENetOutgoingCommand)
    (sending : ReliableSending) :
    SameInbound sending.peer (sendReliableLoop host queue sending).peer := by
  induction queue generalizing sending with
  | nil => exact .refl _
  | cons outgoing rest ih =>
      rw [sendReliableLoop]
      dsimp only
      split
      · exact ih ((sending.checkWrap outgoing).skip outgoing)
      · split
        · exact ih (((sending.checkWrap outgoing).checkExceeded outgoing).skip outgoing)
        · split
          · exact .refl sending.peer
          · exact (sameInbound_launch outgoing).trans
              (ih (((sending.checkWrap outgoing).checkExceeded outgoing).send host outgoing))

theorem sameInbound_sendReliable (datagram : Datagram) :
    SameInbound peer (enetProtocolSendReliableOutgoingCommands host peer datagram).1 :=
  (sameInbound_sendReliableLoop peer.outgoingReliableCommands
    { peer := peer, datagram := datagram }).trans ⟨fun _ => rfl, rfl, rfl, rfl⟩

/-! ## A whole datagram -/

section

variable {P : ENetPeer → Prop} {checkForTimeouts allocates : Bool} {datagram : Datagram}
  (hreliable : ∀ peer datagram, P peer →
    P (enetProtocolSendReliableOutgoingCommands host peer datagram).1)
  (hping : ∀ peer, P peer → P (enetPeerPing peer allocates))
  (hunreliable : ∀ peer datagram, P peer →
    P (enetProtocolSendUnreliableOutgoingCommands peer datagram).1)

include hreliable hping hunreliable

theorem sendCommands_keeps (datagram : Datagram) (hpeer : P peer) :
    P (sendCommands host peer datagram allocates).1 := by
  unfold sendCommands
  dsimp only
  apply hunreliable
  have hfirst : P (if peer.outgoingReliableCommands = [] then (peer, datagram, true)
      else enetProtocolSendReliableOutgoingCommands host peer datagram).1 := by
    split
    · exact hpeer
    · exact hreliable peer datagram hpeer
  generalize (if peer.outgoingReliableCommands = [] then (peer, datagram, true)
    else enetProtocolSendReliableOutgoingCommands host peer datagram) = first at hfirst
  split
  · exact hreliable _ _ (hping _ hfirst)
  · exact hfirst

/-- What the parts of putting a datagram together keep, the whole keeps: `Q` up to the timeouts, `P`
behind them. -/
theorem sendOutgoing_keeps {Q : ENetPeer → Prop}
    (hacknowledgements : ∀ peer datagram, Q peer →
      Q (enetProtocolSendAcknowledgements peer datagram).1)
    (htimeouts : ∀ peer after, Q peer → enetProtocolCheckTimeouts host peer = some after → Q after)
    (hready : ∀ peer, Q peer → P peer) (hpeer : Q peer)
    (hsend : enetProtocolSendOutgoingCommands host peer checkForTimeouts allocates =
      some (after, datagram)) : P after := by
  unfold enetProtocolSendOutgoingCommands at hsend
  dsimp only at hsend
  have hstart := hacknowledgements peer { packetSize := if host.usingNewPacket then 10 else 4 } hpeer
  generalize enetProtocolSendAcknowledgements peer _ = acknowledged at hstart hsend
  split at hsend
  · obtain ⟨checked, hchecked, hafter⟩ := Option.map_eq_some_iff.mp hsend
    have hkeeps := sendCommands_keeps hreliable hping hunreliable acknowledged.2
      (hready _ (htimeouts _ checked hstart hchecked))
    rw [hafter] at hkeeps
    exact hkeeps
  · have hkeeps := sendCommands_keeps hreliable hping hunreliable acknowledged.2
      (hready _ hstart)
    rw [Option.some.inj hsend] at hkeeps
    exact hkeeps

end

theorem sameInbound_sendOutgoing {checkForTimeouts allocates : Bool} {datagram : Datagram}
    (hsend : enetProtocolSendOutgoingCommands host peer checkForTimeouts allocates =
      some (after, datagram)) : SameInbound peer after :=
  sendOutgoing_keeps (P := SameInbound peer)
    (fun _ datagram hsame => hsame.trans (sameInbound_sendReliable datagram))
    (fun _ hsame => hsame.trans (sameInbound_ping allocates))
    (fun _ datagram hsame => hsame.trans (same_sendUnreliable datagram).2)
    (fun _ _ hsame => hsame.trans ⟨fun _ => rfl, rfl, rfl, rfl⟩)
    (fun _ _ hsame hcheck => hsame.trans (sameInbound_checkTimeouts hcheck))
    (fun _ hsame => hsame) (.refl peer) hsend

end SrmotionProxy.ENet.Protocol
