/-
# Runs of a connected peer

Everything that can happen to one connected peer, call after call and in any order: the program
sends and takes packets and changes settings, the host sends a datagram or adjusts the throttle,
and commands arrive, whoever made them. Whatever arrives, the program gets the reliable packets
of a channel complete, in the order of their numbers, without a gap and each one once.
-/

import SrmotionProxy.ENet.Receiving
import SrmotionProxy.Lib.Runs

namespace SrmotionProxy.ENet.Protocol

open SrmotionProxy.Lib

/-- One call; the host, its clock above all, is as it is at that moment. -/
inductive PeerEvent where
  | send (host : ENetHost) (channelID : Nat) (packet : ENetPacket) (allocates : Bool)
  | ping (allocates : Bool)
  | take
  | arrive (host : ENetHost) (command : ENetProtocol) (data : Memory) (sentTime : Option Nat)
      (allocates : Bool)
  | service (host : ENetHost) (checkForTimeouts allocates : Bool)
  | bandwidthThrottle (host : ENetHost) (packetThrottleLimit incomingBandwidth : Option UInt32)
      (allocates : Bool)
  | throttleConfigure (interval acceleration deceleration : UInt32) (allocates : Bool)
  | pingInterval (pingInterval : UInt32)
  | timeout (timeoutLimit timeoutMinimum timeoutMaximum : UInt32)
  deriving DecidableEq, Repr

/-- A peer, with the commands whose packets the program has taken. -/
structure PeerRun where
  peer : ENetPeer
  taken : List ENetIncomingCommand := []
  deriving DecidableEq, Repr

/-- One call. There is no next state once a timeout has disconnected the peer, and none where a
fragment is written into a command that has been freed. -/
def PeerRun.step (run : PeerRun) : PeerEvent → Option PeerRun
  | .send host channelID packet allocates =>
      some { run with peer := (enetPeerSend host run.peer channelID packet allocates).1 }
  | .ping allocates => some { run with peer := enetPeerPing run.peer allocates }
  | .take => some {
      peer := (enetPeerReceive run.peer).elim run.peer (·.2.2)
      taken := run.taken ++ run.peer.dispatchedCommands.take 1 }
  | .arrive host command data sentTime allocates =>
      (enetProtocolHandleIncomingCommand host run.peer command data sentTime allocates).map
        fun result => { run with peer := result.1 }
  | .service host checkForTimeouts allocates =>
      (enetProtocolSendOutgoingCommands host run.peer checkForTimeouts allocates).map
        fun result => { run with peer := result.1 }
  | .bandwidthThrottle host limit bandwidth allocates =>
      some { run with peer := enetHostBandwidthThrottle host run.peer limit bandwidth allocates }
  | .throttleConfigure interval acceleration deceleration allocates => some { run with
      peer := enetPeerThrottleConfigure run.peer interval acceleration deceleration allocates }
  | .pingInterval pingInterval =>
      some { run with peer := enetPeerPingInterval run.peer pingInterval }
  | .timeout timeoutLimit timeoutMinimum timeoutMaximum => some { run with
      peer := enetPeerTimeout run.peer timeoutLimit timeoutMinimum timeoutMaximum }

/-- A peer as a connection leaves it: nothing has been sent or received on its channels, and the
length of its datagrams is one that the protocol allows. -/
structure ENetPeer.Fresh (peer : ENetPeer) : Prop where
  connected : peer.state = .connected
  mtu : 576 ≤ peer.mtu ∧ peer.mtu ≤ 4096
  count : peer.channels.length ≤ 255
  channels : ∀ channel ∈ peer.channels, channel = {}
  sent : peer.sentReliableCommands = []
  queued : peer.outgoingReliableCommands = []
  dispatched : peer.dispatchedCommands = []

variable {peer after : ENetPeer} {run next : PeerRun} {event : PeerEvent}

theorem ENetPeer.Fresh.channel (hfresh : peer.Fresh) (channelID : Nat) :
    peer.channel channelID = {} := by
  rw [ENetPeer.channel, List.getD_eq_getElem?_getD]
  cases hchannel : peer.channels[channelID]? with
  | none => rfl
  | some channel => exact hfresh.channels channel (List.mem_of_getElem? hchannel)

/-! ## Taking packets -/

/-- Taking a packet changes nothing but the packets that wait for the program. -/
theorem take_cases (peer : ENetPeer) :
    ∃ rest waiting, (enetPeerReceive peer).elim peer (·.2.2) =
        { peer with dispatchedCommands := rest, totalWaitingData := waiting } ∧
      peer.dispatchedCommands.take 1 ++ rest = peer.dispatchedCommands := by
  unfold enetPeerReceive
  split
  · next hnone =>
      exact ⟨peer.dispatchedCommands, peer.totalWaitingData, rfl, by rw [hnone]; rfl⟩
  · next incoming rest hsome => exact ⟨rest, _, rfl, by rw [hsome]; rfl⟩

/-! ## Delivery -/

/-- What the program has got so far, and what waits for it, has come in turn. -/
structure PeerRun.Delivered (run : PeerRun) : Prop where
  filed : run.peer.Filed
  inTurn : ∀ channelID, InTurn 0
    (reliableOn channelID (run.taken ++ run.peer.dispatchedCommands))
    (run.peer.channel channelID).incomingReliableSequenceNumber

theorem PeerRun.Delivered.of_inboundStep (hrun : run.Delivered)
    (hstep : InboundStep run.peer after) : PeerRun.Delivered { run with peer := after } := by
  refine ⟨hstep.filed hrun.filed, fun channelID => ?_⟩
  obtain ⟨delivered, hdispatched, hturn⟩ := hstep.delivers hrun.filed channelID
  have hbefore := hrun.inTurn channelID
  rw [reliableOn_append] at hbefore ⊢
  change reliableOn channelID after.dispatchedCommands = _ at hdispatched
  rw [hdispatched, ← List.append_assoc]
  exact hbefore.append hturn

/-- Each call keeps the delivery in turn. -/
theorem PeerRun.Delivered.step (hrun : run.Delivered) (hstep : run.step event = some next) :
    next.Delivered := by
  cases event with
  | send host channelID packet allocates =>
      cases hstep
      exact hrun.of_inboundStep (.of_same (sameInbound_send channelID packet allocates))
  | ping allocates =>
      cases hstep
      exact hrun.of_inboundStep (.of_same (sameInbound_ping allocates))
  | take =>
      cases hstep
      obtain ⟨rest, waiting, hpeer, hrest⟩ := take_cases run.peer
      refine ⟨?_, fun channelID => ?_⟩
      · rw [hpeer]
        exact hrun.filed
      · dsimp only
        rw [hpeer, List.append_assoc, hrest]
        exact hrun.inTurn channelID
  | arrive host command data sentTime allocates =>
      obtain ⟨result, hresult, rfl⟩ := Option.map_eq_some_iff.mp hstep
      obtain ⟨middle, handled, hmiddle, hhandled, hlast⟩ := handleIncoming_cases hresult
      refine hrun.of_inboundStep (hmiddle.inbound.trans (.trans ?_ hlast.inbound))
      rcases hhandled with rfl | ⟨number, channelID, rfl⟩
      · exact .of_same (.refl _)
      · exact .of_same (sameInbound_removeSent number channelID)
  | service host checkForTimeouts allocates =>
      obtain ⟨result, hsend, rfl⟩ := Option.map_eq_some_iff.mp hstep
      exact hrun.of_inboundStep (.of_same (sameInbound_sendOutgoing hsend))
  | bandwidthThrottle host limit bandwidth allocates =>
      cases hstep
      exact hrun.of_inboundStep (.of_same (sameInbound_bandwidthThrottle limit bandwidth allocates))
  | throttleConfigure interval acceleration deceleration allocates =>
      cases hstep
      exact hrun.of_inboundStep (.of_same (sameInbound_throttleConfigure ..))
  | pingInterval pingInterval =>
      cases hstep
      exact hrun.of_inboundStep (.of_same ⟨fun _ => rfl, rfl, rfl, rfl⟩)
  | timeout timeoutLimit timeoutMinimum timeoutMaximum =>
      cases hstep
      exact hrun.of_inboundStep (.of_same ⟨fun _ => rfl, rfl, rfl, rfl⟩)

theorem ENetPeer.Fresh.delivered (hfresh : peer.Fresh) :
    PeerRun.Delivered { peer := peer } := by
  refine ⟨fun channelID => ?_, fun channelID => ?_⟩
  · rw [hfresh.channel]
    exact ⟨by simp, by simp, by simp [IncomingChannel.queued], List.nodup_nil⟩
  · rw [hfresh.channel, hfresh.dispatched]
    rfl

/-- In every run, whatever arrives, and as far as it goes, the program gets the reliable packets of
a channel in turn, beginning with number one: complete, none twice, none left out, none out of
order. -/
theorem delivered_in_turn {events : List PeerEvent} {last : PeerRun} (hfresh : peer.Fresh)
    (hrun : runSteps PeerRun.step { peer := peer } events = some last) (channelID : Nat) :
    InTurn 0 (reliableOn channelID (last.taken ++ last.peer.dispatchedCommands))
      (last.peer.channel channelID).incomingReliableSequenceNumber :=
  (Runs.runSteps_invariant (fun _ _ _ hrun hstep => PeerRun.Delivered.step hrun hstep) events
    hfresh.delivered hrun).inTurn channelID

/-- A packet of one byte arrives on the first channel. -/
def sampleArrival (number : Nat) (byte : UInt8) : PeerEvent :=
  .arrive {} {
    channelID := 0
    flagAcknowledge := true
    reliableSequenceNumber := number
    body := .sendReliable 1 } [some byte] (some 0) true

/-- The second packet arrives before the first, and once more behind it. -/
def sampleArrivals : List PeerEvent :=
  [sampleArrival 2 20, sampleArrival 1 10, sampleArrival 2 20, .take, .take]

theorem delivered_in_turn_swapped : ∃ last,
    runSteps PeerRun.step { peer := { channels := [{}] } } sampleArrivals = some last ∧
      last.taken.map (·.packet.data) = [[some 10], [some 20]] ∧
      InTurn 0 (reliableOn 0 (last.taken ++ last.peer.dispatchedCommands))
        (last.peer.channel 0).incomingReliableSequenceNumber :=
  ⟨_, rfl, rfl, @delivered_in_turn { channels := [{}] } sampleArrivals _
    ⟨rfl, by decide, by decide, fun _ hchannel => List.mem_singleton.mp hchannel, rfl, rfl, rfl⟩ rfl 0⟩

/-- The first fragment of two that go with packet `start` of a channel. -/
def sampleFragment (start : Nat) : PeerEvent :=
  .arrive {} {
    channelID := 0
    body := .sendUnreliableFragment {
      startSequenceNumber := start
      dataLength := 1
      fragmentCount := 2
      fragmentNumber := 0
      totalLength := 2
      fragmentOffset := 0 } } [some 10] none true

/-- The packet that arrives last is dropped before its fragment is in. -/
example : runSteps PeerRun.step { peer := { channels := [{}] } }
    [sampleFragment 5, sampleFragment 7, sampleFragment 3] = none := by
  decide +kernel

end SrmotionProxy.ENet.Protocol
