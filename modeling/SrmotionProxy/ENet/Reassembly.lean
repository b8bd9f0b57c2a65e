/-
# A packet in fragments reaches the program

The fragments that `enet_peer_send` queues for a packet come to the other side one by one, in
any order and as often as the network repeats them. The receiver goes through three stages: it
has nothing of the packet, it has the packet begun in its queue, it has handed the packet over.
It hands the packet over exactly when the last fragment is there, once, and as it was sent.
-/

import SrmotionProxy.ENet.Fragments
import SrmotionProxy.ENet.PeerRuns
import Mathlib.Data.List.Forall2

namespace SrmotionProxy.ENet.Protocol

open SrmotionProxy.Lib

/-! ## What is queued -/

section

variable {host : ENetHost} {sender after : ENetPeer} {channelID number : Nat}
  {packet : ENetPacket} {outgoing : ENetOutgoingCommand}

/-- What the header of a fragment says. -/
def fragmentHeader (host : ENetHost) (sender : ENetPeer) (channelID : Nat) (packet : ENetPacket)
    (number : Nat) (piece : Nat × Nat) : ENetProtocolSendFragment where
  startSequenceNumber :=
    nextSequenceNumber (sender.channel channelID).outgoingReliableSequenceNumber
  dataLength := piece.2 % 2 ^ 16
  fragmentCount := fragmentCount host sender packet
  fragmentNumber := number
  totalLength := packet.data.length
  fragmentOffset := piece.1

/-- A queued command carries the piece with this number. -/
structure Carries (host : ENetHost) (sender : ENetPeer) (channelID : Nat) (packet : ENetPacket)
    (number : Nat) (piece : Nat × Nat) (outgoing : ENetOutgoingCommand) : Prop where
  cut : (pieces host sender packet)[number]? = some piece
  channel : outgoing.command.channelID = channelID
  body : outgoing.command.body =
    .sendFragment (fragmentHeader host sender channelID packet number piece)
  payload : outgoing.payload = (packet.data.drop piece.1).take (piece.2 % 2 ^ 16)

/-- The numbers an order gets. -/
def ENetOutgoingOrder.Becomes (order : ENetOutgoingOrder) (outgoing : ENetOutgoingCommand) : Prop :=
  ∃ reliable unreliable group, outgoing = order.numbered reliable unreliable group

theorem enqueue_acknowledged (hflag : outgoing.command.flagAcknowledge) :
    (enetPeerSetupOutgoingCommand.enqueue sender outgoing).outgoingReliableCommands =
      sender.outgoingReliableCommands ++ [outgoing] := by
  rw [enetPeerSetupOutgoingCommand.enqueue, if_pos hflag]

theorem foldl_setup_queue {orders : List ENetOutgoingOrder} (hchannel : channelID ≠ 0xFF)
    (horders : ∀ order ∈ orders,
      order.command.channelID = channelID ∧ order.command.flagAcknowledge) :
    ∃ added, (orders.foldl enetPeerSetupOutgoingCommand sender).outgoingReliableCommands =
        sender.outgoingReliableCommands ++ added ∧
      List.Forall₂ ENetOutgoingOrder.Becomes orders added := by
  induction orders generalizing sender with
  | nil => exact ⟨[], (List.append_nil _).symm, .nil⟩
  | cons order orders ih =>
      obtain ⟨⟨hown, hflag⟩, hrest⟩ := List.forall_mem_cons.mp horders
      obtain ⟨added, hadded, hbecome⟩ := @ih (enetPeerSetupOutgoingCommand sender order) hrest
      have hfirst : ∃ outgoing, (enetPeerSetupOutgoingCommand sender order).outgoingReliableCommands =
          sender.outgoingReliableCommands ++ [outgoing] ∧ order.Becomes outgoing := by
        unfold enetPeerSetupOutgoingCommand
        dsimp only
        rw [if_neg (hown.trans_ne hchannel), if_pos hflag]
        exact ⟨_, enqueue_acknowledged hflag, _, _, _, rfl⟩
      obtain ⟨outgoing, hqueued, hbecomes⟩ := hfirst
      refine ⟨outgoing :: added, ?_, .cons hbecomes hbecome⟩
      rw [List.foldl_cons, hadded, hqueued, List.append_assoc, List.singleton_append]

theorem fragmentOrders_eq (hreliably : goesReliably host sender channelID packet) :
    fragmentOrders host sender channelID packet =
      (pieces host sender packet).mapIdx fun number piece =>
        fragmentOrder channelID packet true
          (nextSequenceNumber (sender.channel channelID).outgoingReliableSequenceNumber)
          (fragmentCount host sender packet) number piece.1 piece.2 := by
  unfold fragmentOrders
  simp only [hreliably]
  rfl

/-- The commands that `enet_peer_send` queues for a packet carry its pieces, one each. -/
theorem fragments_carry {fragments : List ENetOutgoingCommand}
    (hsend : enetPeerSend host sender channelID packet true = (after, 0))
    (hqueued : after.outgoingReliableCommands = sender.outgoingReliableCommands ++ fragments)
    (hfragmented : isFragmented host sender packet)
    (hreliably : goesReliably host sender channelID packet)
    (hcount : sender.channels.length ≤ 255) :
    fragments.length = (pieces host sender packet).length ∧
      ∀ (number : Nat) (outgoing : ENetOutgoingCommand), fragments[number]? = some outgoing →
        ∃ piece, Carries host sender channelID packet number piece outgoing := by
  unfold enetPeerSend at hsend
  dsimp only at hsend
  rw [if_pos hfragmented] at hsend
  split at hsend
  · cases hsend
  · next hallowed =>
      split at hsend
      · cases hsend
      · rw [if_neg (by simp)] at hsend
        cases hsend
        have hchannel : channelID ≠ 0xFF := by omega
        obtain ⟨added, hadded, hbecome⟩ := @foldl_setup_queue sender channelID
          (fragmentOrders host sender channelID packet) hchannel fun order horder => by
            obtain ⟨number, hnumber, rfl⟩ := List.mem_mapIdx.mp horder
            exact ⟨rfl, hreliably⟩
        have hsame : fragments = added := List.append_cancel_left (hqueued.symm.trans hadded)
        subst hsame
        obtain ⟨hlength, hall⟩ := List.forall₂_iff_get.mp hbecome
        rw [fragmentOrders_eq hreliably, List.length_mapIdx] at hlength
        refine ⟨hlength.symm, fun number outgoing houtgoing => ?_⟩
        obtain ⟨hlt, hget⟩ := List.getElem?_eq_some_iff.mp houtgoing
        have hpiece := List.getElem?_eq_getElem (hlt.trans_eq hlength.symm)
        obtain ⟨reliable, unreliable, group, hbecomes⟩ := hall number
          (by rw [fragmentOrders_eq hreliably, List.length_mapIdx, hlength]; exact hlt) hlt
        simp only [List.get_eq_getElem, hget, fragmentOrders_eq hreliably, List.getElem_mapIdx]
          at hbecomes
        subst hbecomes
        exact ⟨_, hpiece, rfl, rfl, rfl⟩

end

/-! ## The receiver -/

/-- A connected peer with nothing but reliable commands queued on a channel: the number of the last
packet that was handed over there, these commands, and those that wait for the program. -/
structure Receiver (channelID number : Nat) (queue dispatched : List ENetIncomingCommand)
    (peer : ENetPeer) : Prop where
  connected : peer.state = .connected
  known : channelID < peer.channels.length
  number : (peer.channel channelID).incomingReliableSequenceNumber = number
  queue : (peer.channel channelID).incomingReliableCommands = queue
  unreliable : (peer.channel channelID).incomingUnreliableCommands = []
  dispatched : peer.dispatchedCommands = dispatched

section

variable {host : ENetHost} {peer : ENetPeer} {channelID number : Nat}
  {queue dispatched : List ENetIncomingCommand} {incoming : ENetIncomingCommand}
  {command : ENetProtocol} {fragment : ENetProtocolSendFragment} {data : Memory}

/-- The queue of the channel changes. -/
theorem Receiver.setQueue (hreceiver : Receiver channelID number queue dispatched peer)
    (other : List ENetIncomingCommand) : Receiver channelID number other dispatched
      (peer.setChannel channelID { peer.channel channelID with incomingReliableCommands := other }) := by
  have hchannel := channel_setChannel peer channelID channelID
    { peer.channel channelID with incomingReliableCommands := other }
  rw [if_pos ⟨rfl, hreceiver.known⟩] at hchannel
  refine ⟨hreceiver.connected, by rw [length_setChannel]; exact hreceiver.known, ?_, ?_, ?_,
    hreceiver.dispatched⟩
  · rw [hchannel]
    exact hreceiver.number
  · rw [hchannel]
  · rw [hchannel]
    exact hreceiver.unreliable

/-- A packet that is not complete stays in the queue. -/
theorem dispatch_incomplete (hreceiver : Receiver channelID number [incoming] dispatched peer)
    (hmissing : 0 < incoming.fragmentsRemaining) :
    enetPeerDispatchIncomingReliableCommands peer channelID = peer := by
  have hloop : dispatchReliableLoop number [incoming] = ([], [incoming], number) := by
    rw [dispatchReliableLoop, if_pos (Or.inl hmissing)]
  unfold enetPeerDispatchIncomingReliableCommands
  dsimp only
  rw [hreceiver.queue, hreceiver.number, hloop, if_pos rfl]

/-- The next packet is handed over once it is complete. -/
theorem Receiver.dispatch (hreceiver : Receiver channelID number [incoming] dispatched peer)
    (hcomplete : incoming.fragmentsRemaining = 0)
    (hnext : incoming.reliableSequenceNumber = nextSequenceNumber number) :
    Receiver channelID incoming.lastNumber [] (dispatched ++ [incoming])
      (enetPeerDispatchIncomingReliableCommands peer channelID) := by
  have hloop : dispatchReliableLoop number [incoming] =
      ([incoming], [], incoming.lastNumber) := by
    rw [dispatchReliableLoop, if_neg (by simp [hcomplete, hnext])]
    rfl
  unfold enetPeerDispatchIncomingReliableCommands
  dsimp only
  rw [hreceiver.queue, hreceiver.number, hloop]
  dsimp only
  rw [if_neg (List.cons_ne_nil _ _), if_pos hreceiver.unreliable]
  have hchannel := channel_setChannel peer channelID channelID
    { peer.channel channelID with
      incomingReliableSequenceNumber := incoming.lastNumber
      incomingUnreliableSequenceNumber := 0
      incomingReliableCommands := [] }
  rw [if_pos ⟨rfl, hreceiver.known⟩] at hchannel
  refine ⟨hreceiver.connected, by rw [length_setChannel]; exact hreceiver.known, ?_, ?_, ?_, ?_⟩
  · exact congrArg (·.incomingReliableSequenceNumber) hchannel
  · exact congrArg (·.incomingReliableCommands) hchannel
  · exact (congrArg (·.incomingUnreliableCommands) hchannel).trans hreceiver.unreliable
  · exact congrArg (· ++ [incoming]) hreceiver.dispatched

/-- The number behind the last one is in a window that is received in. -/
theorem inWindow_next {channel : IncomingChannel}
    (hnumber : channel.incomingReliableSequenceNumber < 2 ^ 16) :
    inWindow channel (nextSequenceNumber channel.incomingReliableSequenceNumber) := by
  unfold inWindow reliableWindow currentWindow nextSequenceNumber
  simp only [ENET_PEER_RELIABLE_WINDOW_SIZE, ENET_PEER_RELIABLE_WINDOWS,
    ENET_PEER_FREE_RELIABLE_WINDOWS]
  apply decide_eq_true
  split <;> omega

theorem Receiver.inWindow_next (hreceiver : Receiver channelID number queue dispatched peer)
    (hnumber : number < 2 ^ 16) :
    inWindow (peer.channel channelID).toIncomingChannel (nextSequenceNumber number) := by
  rw [← hreceiver.number]
  exact Protocol.inWindow_next (hreceiver.number.trans_lt hnumber)

theorem nextSequenceNumber_ne (number : Nat) : nextSequenceNumber number ≠ number := by
  unfold nextSequenceNumber
  omega

/-- Behind a packet of up to nine windows its first number is in none of these. -/
theorem not_inWindow_behind {channel : IncomingChannel} {start count : Nat}
    (hstart : start < 2 ^ 16) (hcount : 1 < count ∧ count ≤ 9 * 4096)
    (hnumber : channel.incomingReliableSequenceNumber = (start + (count - 1)) % 2 ^ 16) :
    ¬ inWindow channel start := by
  unfold inWindow reliableWindow currentWindow
  simp only [ENET_PEER_RELIABLE_WINDOW_SIZE, ENET_PEER_RELIABLE_WINDOWS,
    ENET_PEER_FREE_RELIABLE_WINDOWS, decide_eq_true_eq, hnumber]
  split <;> omega

/-- A fragment with a number that nothing is queued for starts a packet. -/
theorem queueIncoming_first {packet : ENetPacket} {count : Nat}
    (hreceiver : Receiver command.channelID number [] dispatched peer)
    (hbody : command.body = .sendFragment fragment)
    (hwindow : inWindow (peer.channel command.channelID).toIncomingChannel
      command.reliableSequenceNumber)
    (hnew : command.reliableSequenceNumber ≠ number)
    (hroom : peer.totalWaitingData < host.maximumWaitingData)
    (hcount : 0 < count ∧ count ≤ ENET_PROTOCOL_MAXIMUM_FRAGMENT_COUNT) :
    ∃ middle, enetPeerQueueIncomingCommand host peer command packet count true =
        .queued middle peer.allocated ∧
      Receiver command.channelID number [.start peer.allocated command packet count] dispatched
        middle := by
  have hplace : incomingPlace (peer.channel command.channelID).toIncomingChannel command =
      some 0 := by
    rw [incomingPlace, hbody]
    dsimp only
    rw [hreceiver.number, if_neg hnew, hreceiver.queue]
    rfl
  have hqueue := (show Receiver command.channelID number [] dispatched { peer with
      totalWaitingData := peer.totalWaitingData + packet.data.length
      allocated := peer.allocated + 1 } from
    ⟨hreceiver.connected, hreceiver.known, hreceiver.number, hreceiver.queue,
      hreceiver.unreliable, hreceiver.dispatched⟩).setQueue
      [.start peer.allocated command packet count]
  refine ⟨_, ?_, hqueue⟩
  unfold enetPeerQueueIncomingCommand
  dsimp only
  rw [if_neg (by rw [hreceiver.connected]; decide), if_neg (fun hnot => hnot.2 hwindow), hplace]
  dsimp only
  rw [if_neg (by simp [hroom, hcount.2]), if_pos (by rw [hbody]; rfl), hreceiver.queue]
  exact congrArg (Queued.queued · _) (dispatch_incomplete hqueue hcount.1)

/-- The search finds the packet with the number that is looked for. -/
theorem findStart_here {current start : Nat} (hnumber : incoming.reliableSequenceNumber = start) :
    findStart
      (fun incoming =>
        if current ≤ start ∧ incoming.reliableSequenceNumber < current then true
        else if start < current ∧ current ≤ incoming.reliableSequenceNumber then false
        else start < incoming.reliableSequenceNumber)
      (fun incoming =>
        start < current ∧ current ≤ incoming.reliableSequenceNumber ∨
          incoming.reliableSequenceNumber < start)
      [incoming].reverse = some incoming := by
  rw [List.reverse_singleton, findStart, if_neg, if_neg]
  · rw [decide_eq_true_eq, hnumber]
    omega
  · rw [hnumber, if_neg (by omega), if_neg (by omega)]
    simp

/-- A fragment of the packet that is queued goes to it. -/
theorem storeFragment_single (hreceiver : Receiver command.channelID number [incoming] dispatched peer) :
    enetProtocolHandleSendFragment.store command fragment peer incoming.address data =
      some (if ¬ incoming.fragments.getD fragment.fragmentNumber false ∧
          (incoming.receive fragment data).fragmentsRemaining = 0 then
        enetPeerDispatchIncomingReliableCommands
          (peer.setChannel command.channelID { peer.channel command.channelID with
            incomingReliableCommands := [incoming.receive fragment data] }) command.channelID
      else peer.setChannel command.channelID { peer.channel command.channelID with
        incomingReliableCommands := [incoming.receive fragment data] }) := by
  unfold enetProtocolHandleSendFragment.store
  dsimp only
  rw [hreceiver.queue, receiveFragment, if_pos rfl]
  simp only [Option.map_some, decide_eq_true_eq]

end

/-! ## The handler -/

section

variable {host : ENetHost} {peer middle : ENetPeer} {command : ENetProtocol}
  {fragment another : ENetProtocolSendFragment} {data bytes : Memory} {allocates : Bool}
  {incoming : ENetIncomingCommand} {address : Nat}
  (hpayload : payloadOf host peer command.channelID fragment.dataLength data = some bytes)

include hpayload

theorem handleSendFragment_outside
    (hwindow : ¬ inWindow (peer.channel command.channelID).toIncomingChannel
      fragment.startSequenceNumber) :
    enetProtocolHandleSendFragment host peer command fragment data allocates = some (peer, 0) := by
  unfold enetProtocolHandleSendFragment
  rw [hpayload]
  exact if_pos hwindow

variable (hwindow : inWindow (peer.channel command.channelID).toIncomingChannel
    fragment.startSequenceNumber)
  (hrefused : ¬ fragment.refused host)

include hwindow hrefused

theorem handleSendFragment_first
    (hqueue : (peer.channel command.channelID).incomingReliableCommands = [])
    (hqueued : enetPeerQueueIncomingCommand host peer
      { command with reliableSequenceNumber := fragment.startSequenceNumber }
      { reliable := true, data := List.replicate fragment.totalLength none }
      fragment.fragmentCount allocates = .queued middle address) :
    enetProtocolHandleSendFragment host peer command fragment data allocates =
      (enetProtocolHandleSendFragment.store command fragment middle address bytes).map (·, 0) := by
  unfold enetProtocolHandleSendFragment
  rw [hpayload]
  dsimp only
  rw [if_neg (not_not.mpr hwindow), if_neg hrefused, hqueue, hqueued]
  rfl

theorem handleSendFragment_again
    (hqueue : (peer.channel command.channelID).incomingReliableCommands = [incoming])
    (hnumber : incoming.reliableSequenceNumber = fragment.startSequenceNumber)
    (hbody : incoming.command.body = .sendFragment another)
    (htotal : fragment.totalLength = incoming.packet.data.length)
    (hcount : fragment.fragmentCount = incoming.fragmentCount) :
    enetProtocolHandleSendFragment host peer command fragment data allocates =
      (enetProtocolHandleSendFragment.store command fragment peer incoming.address bytes).map
        (·, 0) := by
  unfold enetProtocolHandleSendFragment
  rw [hpayload]
  dsimp only
  rw [if_neg (not_not.mpr hwindow), if_neg hrefused, hqueue, findStart_here hnumber]
  dsimp only
  rw [hbody]
  exact if_neg (by simp [htotal, hcount])

end

/-! ## Stages -/

/-- The packet that is put together from the fragments of a packet. -/
structure IsStart (host : ENetHost) (sender : ENetPeer) (channelID : Nat) (packet : ENetPacket)
    (incoming : ENetIncomingCommand) : Prop where
  channel : incoming.command.channelID = channelID
  number : incoming.reliableSequenceNumber =
    nextSequenceNumber (sender.channel channelID).outgoingReliableSequenceNumber
  body : ∃ fragment, incoming.command.body = .sendFragment fragment
  count : incoming.fragmentCount = fragmentCount host sender packet

theorem IsStart.receive {host : ENetHost} {sender : ENetPeer} {channelID : Nat}
    {packet : ENetPacket} {incoming : ENetIncomingCommand}
    (hstart : IsStart host sender channelID packet incoming) (fragment : ENetProtocolSendFragment)
    (data : Memory) : IsStart host sender channelID packet (incoming.receive fragment data) := by
  unfold ENetIncomingCommand.receive
  split
  · exact hstart
  · exact ⟨hstart.channel, hstart.number, hstart.body, hstart.count⟩

/-- How far the receiver is with a packet of which these fragments have arrived; `before` waits for
the program already. -/
inductive Stage (host : ENetHost) (sender : ENetPeer) (channelID : Nat) (packet : ENetPacket)
    (before : List ENetIncomingCommand) (waitingData : Nat) : List Nat → ENetPeer → Prop
  | nothing {peer : ENetPeer}
      (hreceiver : Receiver channelID (sender.channel channelID).outgoingReliableSequenceNumber []
        before peer)
      (hroom : peer.totalWaitingData = waitingData) :
      Stage host sender channelID packet before waitingData [] peer
  | begun {arrived : List Nat} {peer : ENetPeer} {incoming : ENetIncomingCommand}
      (hreceiver : Receiver channelID (sender.channel channelID).outgoingReliableSequenceNumber
        [incoming] before peer)
      (hstart : IsStart host sender channelID packet incoming)
      (harrived : Arrived host sender packet arrived incoming)
      (hmissing : 0 < incoming.fragmentsRemaining) :
      Stage host sender channelID packet before waitingData arrived peer
  | complete {arrived : List Nat} {peer : ENetPeer} {incoming : ENetIncomingCommand}
      (hreceiver : Receiver channelID
        ((nextSequenceNumber (sender.channel channelID).outgoingReliableSequenceNumber +
          (fragmentCount host sender packet - 1)) % 2 ^ 16) [] (before ++ [incoming]) peer)
      (hchannel : incoming.command.channelID = channelID)
      (hdata : incoming.packet.data = packet.data)
      (hall : ∀ number < (pieces host sender packet).length, number ∈ arrived) :
      Stage host sender channelID packet before waitingData arrived peer

/-- What is asked of the sender: its datagrams are of a length the protocol allows, its numbers have
16 bits, and the packet needs at least two fragments and at most nine windows of them. -/
structure Splits (host : ENetHost) (sender : ENetPeer) (channelID : Nat) (packet : ENetPacket) :
    Prop where
  mtu : 576 ≤ sender.mtu ∧ sender.mtu ≤ 4096
  number : (sender.channel channelID).outgoingReliableSequenceNumber < 2 ^ 16
  count : (pieces host sender packet).length = fragmentCount host sender packet
  few : 1 < fragmentCount host sender packet ∧ fragmentCount host sender packet ≤ 9 * 4096

section

variable {host receiverHost : ENetHost} {sender peer : ENetPeer} {channelID number waitingData : Nat}
  {packet : ENetPacket} {before : List ENetIncomingCommand} {arrived : List Nat}
  {incoming : ENetIncomingCommand} {piece : Nat × Nat} {outgoing : ENetOutgoingCommand}

/-- The bytes that travel with a fragment are those of its piece. -/
theorem Carries.bytes (hcarries : Carries host sender channelID packet number piece outgoing)
    (hmtu : 576 ≤ sender.mtu ∧ sender.mtu ≤ 4096) :
    piece.1 < packet.data.length ∧ piece.1 + piece.2 ≤ packet.data.length ∧
      piece.2 % 2 ^ 16 = piece.2 ∧ outgoing.payload.length = piece.2 ∧
      outgoing.payload = (packet.data.drop piece.1).take piece.2 := by
  obtain ⟨hfrom, hinside, hshort⟩ :=
    fragmentLoop_inside _ _ _ piece (List.mem_of_getElem? hcarries.cut)
  have hsmall := Nat.mod_eq_of_lt (hshort.trans_lt (@fragmentLimit_bounds host sender hmtu).2)
  have hpayload := hcarries.payload
  rw [hsmall] at hpayload
  refine ⟨hfrom, hinside, hsmall, ?_, hpayload⟩
  rw [hpayload]
  exact List.length_take_of_le (by rw [List.length_drop]; omega)

/-- A fragment says its number. -/
theorem Carries.number_eq {other : Nat} {another : Nat × Nat}
    (hcarries : Carries host sender channelID packet number piece outgoing)
    (hagain : Carries host sender channelID packet other another outgoing) : number = other := by
  have hsame := hcarries.body.symm.trans hagain.body
  injection hsame with hheader
  exact congrArg ENetProtocolSendFragment.fragmentNumber hheader

theorem receive_known {fragment : ENetProtocolSendFragment} {data : Memory}
    (hknown : incoming.fragments.getD fragment.fragmentNumber false) :
    incoming.receive fragment data = incoming :=
  if_pos hknown

/-- One more fragment comes to the packet that is begun. -/
theorem Stage.store (hsplits : Splits host sender channelID packet)
    (hcarries : Carries host sender channelID packet number piece outgoing)
    (hreceiver : Receiver channelID (sender.channel channelID).outgoingReliableSequenceNumber
      [incoming] before peer)
    (hstart : IsStart host sender channelID packet incoming)
    (harrived : Arrived host sender packet arrived incoming)
    (hmissing : 0 < incoming.fragmentsRemaining) {command : ENetProtocol}
    (hcommand : command.channelID = channelID) :
    ∃ after, enetProtocolHandleSendFragment.store command
        (fragmentHeader host sender channelID packet number piece) peer incoming.address
        outgoing.payload = some after ∧
      Stage host sender channelID packet before waitingData (arrived ++ [number]) after := by
  subst hcommand
  obtain ⟨-, -, -, -, hbytes⟩ := hcarries.bytes hsplits.mtu
  have hfew := hsplits.few
  have hnow : Arrived host sender packet (arrived ++ [number])
      (incoming.receive (fragmentHeader host sender command.channelID packet number piece)
        outgoing.payload) :=
    harrived.receive (by rw [hsplits.count]; omega) hcarries.cut rfl rfl hbytes
  have hnext := hstart.receive
    (fragmentHeader host sender command.channelID packet number piece) outgoing.payload
  rw [storeFragment_single hreceiver]
  refine ⟨_, rfl, ?_⟩
  have hqueue := hreceiver.setQueue [incoming.receive
    (fragmentHeader host sender command.channelID packet number piece) outgoing.payload]
  by_cases hzero : (incoming.receive (fragmentHeader host sender command.channelID packet number
      piece) outgoing.payload).fragmentsRemaining = 0
  · -- a fragment that was known would have left something missing
    have hnew : ¬ incoming.fragments.getD number false := fun hknown => by
      rw [receive_known hknown] at hzero
      omega
    rw [if_pos ⟨hnew, hzero⟩]
    have hall := hnow.complete_iff.mp hzero
    have hhanded := hqueue.dispatch hzero hnext.number
    rw [ENetIncomingCommand.lastNumber, hnext.count, if_pos (by omega), hnext.number] at hhanded
    exact .complete hhanded hnext.channel (hnow.restored hsplits.mtu hall) hall
  · rw [if_neg fun hlast => hzero hlast.2]
    exact .begun hqueue hnext hnow (Nat.pos_of_ne_zero hzero)

/-- A host that takes a packet of this size, with what waits for the program already. -/
structure Takes (receiverHost : ENetHost) (packet : ENetPacket) (waitingData : Nat) : Prop where
  size : packet.data.length ≤ receiverHost.maximumPacketSize
  room : waitingData < receiverHost.maximumWaitingData

/-- The handler lets the fragment through to the search. -/
theorem Carries.admitted (hsplits : Splits host sender channelID packet)
    (hcarries : Carries host sender channelID packet number piece outgoing)
    (hsize : packet.data.length ≤ receiverHost.maximumPacketSize)
    (hconnected : peer.state = .connected) (hknown : channelID < peer.channels.length) :
    payloadOf receiverHost peer outgoing.command.channelID
        (fragmentHeader host sender channelID packet number piece).dataLength outgoing.payload =
      some outgoing.payload ∧
    ¬ (fragmentHeader host sender channelID packet number piece).refused receiverHost := by
  obtain ⟨hfrom, hinside, hsmall, hlength, -⟩ := hcarries.bytes hsplits.mtu
  have hnumber := (List.getElem?_eq_some_iff.mp hcarries.cut).1
  rw [hsplits.count] at hnumber
  have hfew := hsplits.few
  have hup : peer.isUp := decide_eq_true (.inl hconnected)
  constructor
  · simp only [payloadOf, fragmentHeader, hsmall, hcarries.channel]
    rw [if_neg (by simp [hup, hknown]), if_neg (by omega), List.take_of_length_le hlength.le]
  · simp only [ENetProtocolSendFragment.refused, fragmentHeader, hsmall,
      ENET_PROTOCOL_MAXIMUM_FRAGMENT_COUNT, decide_eq_true_eq]
    omega

/-- The command by which a fragment starts its packet. -/
def startCommand (sender : ENetPeer) (command : ENetProtocol) : ENetProtocol :=
  { command with
    reliableSequenceNumber :=
      nextSequenceNumber (sender.channel command.channelID).outgoingReliableSequenceNumber }

/-- The handler takes the receiver one fragment further, whether it is new or not. -/
theorem Stage.handle (hsplits : Splits host sender channelID packet)
    (hcarries : Carries host sender channelID packet number piece outgoing)
    (htakes : Takes receiverHost packet waitingData)
    (hstage : Stage host sender channelID packet before waitingData arrived peer) :
    ∃ after, enetProtocolHandleSendFragment receiverHost peer outgoing.command
        (fragmentHeader host sender channelID packet number piece) outgoing.payload true =
          some (after, 0) ∧
      Stage host sender channelID packet before waitingData (arrived ++ [number]) after := by
  have hchannel := hcarries.channel
  subst hchannel
  have hfew := hsplits.few
  have hnumber := hsplits.number
  cases hstage with
  | nothing hreceiver hroom =>
      obtain ⟨hpayload, hrefused⟩ := hcarries.admitted hsplits htakes.size hreceiver.connected
        hreceiver.known
      have hwindow := hreceiver.inWindow_next hnumber
      obtain ⟨middle, hqueued, hfirst⟩ := @queueIncoming_first receiverHost peer
        (sender.channel outgoing.command.channelID).outgoingReliableSequenceNumber before
        (startCommand sender outgoing.command) _
        { reliable := true, data := List.replicate packet.data.length none }
        (fragmentCount host sender packet) hreceiver hcarries.body hwindow
        (nextSequenceNumber_ne _) (hroom.trans_lt htakes.room)
        ⟨by omega, hfew.2.trans (by decide)⟩
      have harrived := @arrived_start host sender packet peer.allocated
        (startCommand sender outgoing.command) { reliable := true }
      rw [hsplits.count] at harrived
      obtain ⟨after, hstored, hstage⟩ := @Stage.store host sender middle _ number waitingData packet
        before [] _ piece outgoing hsplits hcarries hfirst ⟨rfl, rfl, ⟨_, hcarries.body⟩, rfl⟩
        harrived (Nat.zero_lt_of_lt hfew.1) outgoing.command rfl
      refine ⟨after, ?_, hstage⟩
      rw [handleSendFragment_first hpayload hwindow hrefused hreceiver.queue hqueued]
      exact congrArg (Option.map (·, 0)) hstored
  | begun hreceiver hstart harrived hmissing =>
      obtain ⟨hpayload, hrefused⟩ := hcarries.admitted hsplits htakes.size hreceiver.connected
        hreceiver.known
      have hwindow := hreceiver.inWindow_next hnumber
      obtain ⟨another, hbody⟩ := hstart.body
      obtain ⟨after, hstored, hstage⟩ := Stage.store hsplits hcarries hreceiver hstart harrived
        hmissing (rfl : outgoing.command.channelID = _)
      refine ⟨after, ?_, hstage⟩
      rw [handleSendFragment_again hpayload hwindow hrefused hreceiver.queue hstart.number hbody
        harrived.length.symm hstart.count.symm, hstored]
      rfl
  | complete hreceiver hown hdata hall =>
      obtain ⟨hpayload, -⟩ := hcarries.admitted hsplits htakes.size hreceiver.connected
        hreceiver.known
      have hwindow := @not_inWindow_behind
        (peer.channel outgoing.command.channelID).toIncomingChannel _ _
        (Nat.mod_lt _ (by decide)) hfew hreceiver.number
      exact ⟨peer, handleSendFragment_outside hpayload hwindow,
        .complete hreceiver hown hdata fun other hother => List.mem_append_left _ (hall other hother)⟩

/-- Acknowledging a command changes the acknowledgements only. -/
theorem acknowledgeCommand_eq (command : ENetProtocol) (code : Int) (sentTime : Option Nat)
    (allocates : Bool) : ∃ acknowledgements,
      acknowledgeCommand peer command code sentTime allocates =
        { peer with acknowledgements := acknowledgements } := by
  cases sentTime with
  | none => exact ⟨peer.acknowledgements, rfl⟩
  | some sentTime =>
      unfold acknowledgeCommand enetPeerQueueAcknowledgement
      dsimp only
      split
      · split
        · exact ⟨peer.acknowledgements, rfl⟩
        · split
          · exact ⟨_, rfl⟩
          · exact ⟨peer.acknowledgements, rfl⟩
      · exact ⟨peer.acknowledgements, rfl⟩

theorem Stage.acknowledged
    (hstage : Stage host sender channelID packet before waitingData arrived peer)
    (acknowledgements : List ENetAcknowledgement) :
    Stage host sender channelID packet before waitingData arrived
      { peer with acknowledgements := acknowledgements } := by
  have hsame {number : Nat} {queue dispatched : List ENetIncomingCommand}
      (hreceiver : Receiver channelID number queue dispatched peer) :
      Receiver channelID number queue dispatched
        { peer with acknowledgements := acknowledgements } :=
    ⟨hreceiver.connected, hreceiver.known, hreceiver.number, hreceiver.queue,
      hreceiver.unreliable, hreceiver.dispatched⟩
  cases hstage with
  | nothing hreceiver hroom => exact .nothing (hsame hreceiver) hroom
  | begun hreceiver hstart harrived hmissing =>
      exact .begun (hsame hreceiver) hstart harrived hmissing
  | complete hreceiver hchannel hdata hall => exact .complete (hsame hreceiver) hchannel hdata hall

/-- What the receiver has handed over at this stage. -/
theorem Stage.handed (hstage : Stage host sender channelID packet before waitingData arrived peer)
    (hsome : 0 < (pieces host sender packet).length) :
    ∃ handed, peer.dispatchedCommands = before ++ handed ∧
      handed.map (fun incoming => (incoming.command.channelID, incoming.packet.data)) =
        if ∀ number < (pieces host sender packet).length, number ∈ arrived
        then [(channelID, packet.data)] else [] := by
  cases hstage with
  | nothing hreceiver hroom =>
      refine ⟨[], hreceiver.dispatched.trans (List.append_nil _).symm, ?_⟩
      rw [if_neg fun hall => by cases hall 0 hsome]
      rfl
  | begun hreceiver hstart harrived hmissing =>
      refine ⟨[], hreceiver.dispatched.trans (List.append_nil _).symm, ?_⟩
      rw [if_neg fun hall => hmissing.ne' (harrived.complete_iff.mpr hall)]
      rfl
  | @complete _ _ incoming hreceiver hchannel hdata hall =>
      refine ⟨[incoming], hreceiver.dispatched, ?_⟩
      rw [if_pos hall, List.map_singleton, hchannel, hdata]

end

/-! ## Arrivals -/

/-- A fragment comes to the other side. -/
structure FragmentArrival where
  host : ENetHost
  outgoing : ENetOutgoingCommand
  sentTime : Option Nat
  deriving DecidableEq, Repr

def FragmentArrival.event (arrival : FragmentArrival) : PeerEvent :=
  .arrive arrival.host arrival.outgoing.command arrival.outgoing.payload arrival.sentTime true

section

variable {host : ENetHost} {sender after receiver : ENetPeer} {channelID waitingData : Nat}
  {packet : ENetPacket} {before : List ENetIncomingCommand} {arrived : List Nat}
  {fragments : List ENetOutgoingCommand}

/-- Each arrival takes the receiver one fragment further. -/
theorem Stage.step {run : PeerRun} {arrival : FragmentArrival} {number : Nat} {piece : Nat × Nat}
    (hsplits : Splits host sender channelID packet)
    (hcarries : Carries host sender channelID packet number piece arrival.outgoing)
    (htakes : Takes arrival.host packet waitingData)
    (hstage : Stage host sender channelID packet before waitingData arrived run.peer) :
    ∃ next, run.step arrival.event = some next ∧
      Stage host sender channelID packet before waitingData (arrived ++ [number]) next.peer := by
  obtain ⟨handled, hhandled, hnext⟩ := hstage.handle hsplits hcarries htakes
  obtain ⟨acknowledgements, hacknowledged⟩ := @acknowledgeCommand_eq handled
    arrival.outgoing.command 0 arrival.sentTime true
  refine ⟨{ run with peer := { handled with acknowledgements := acknowledgements } }, ?_,
    hnext.acknowledged acknowledgements⟩
  rw [FragmentArrival.event, PeerRun.step, enetProtocolHandleIncomingCommand, handleCommand,
    hcarries.body]
  dsimp only
  rw [hhandled]
  dsimp only [Option.map_some]
  rw [hacknowledged]

/-- Any number of arrivals, each of some fragment. -/
theorem Stage.run {run : PeerRun} {arrivals : List FragmentArrival}
    (hsplits : Splits host sender channelID packet)
    (hcarry : ∀ (number : Nat) (outgoing : ENetOutgoingCommand),
      fragments[number]? = some outgoing →
        ∃ piece, Carries host sender channelID packet number piece outgoing)
    (harrivals : ∀ arrival ∈ arrivals,
      arrival.outgoing ∈ fragments ∧ Takes arrival.host packet waitingData)
    (hstage : Stage host sender channelID packet before waitingData arrived run.peer) :
    ∃ last numbers, runSteps PeerRun.step run (arrivals.map (·.event)) = some last ∧
      Stage host sender channelID packet before waitingData (arrived ++ numbers) last.peer ∧
      ∀ number, number ∈ numbers ↔
        ∃ arrival ∈ arrivals, fragments[number]? = some arrival.outgoing := by
  induction arrivals generalizing run arrived with
  | nil => exact ⟨run, [], rfl, by rwa [List.append_nil], by simp⟩
  | cons arrival rest ih =>
      obtain ⟨⟨hmember, htakes⟩, hrest⟩ := List.forall_mem_cons.mp harrivals
      obtain ⟨number, hnumber⟩ := List.mem_iff_getElem?.mp hmember
      obtain ⟨piece, hcarries⟩ := hcarry number arrival.outgoing hnumber
      obtain ⟨next, hnext, hmoved⟩ := hstage.step hsplits hcarries htakes
      obtain ⟨last, numbers, hrun, hlast, hnumbers⟩ := ih hrest hmoved
      refine ⟨last, number :: numbers, ?_, ?_, fun other => ?_⟩
      · rw [List.map_cons, runSteps, hnext]
        exact hrun
      · rwa [List.append_assoc, List.singleton_append] at hlast
      · -- a fragment says its number, so it stands at no other place
        have hwhich : fragments[other]? = some arrival.outgoing ↔ other = number := by
          constructor
          · intro hother
            obtain ⟨another, hagain⟩ := hcarry other arrival.outgoing hother
            exact hagain.number_eq hcarries
          · rintro rfl
            exact hnumber
        rw [List.mem_cons, hnumbers, List.exists_mem_cons_iff, hwhich]

/-- A packet that takes more than one datagram has two fragments at least. -/
theorem Splits.of_fragmented (hmtu : 576 ≤ sender.mtu ∧ sender.mtu ≤ 4096)
    (hnumber : (sender.channel channelID).outgoingReliableSequenceNumber < 2 ^ 16)
    (hfragmented : isFragmented host sender packet)
    (hfew : (pieces host sender packet).length ≤ 9 * 4096) :
    Splits host sender channelID packet := by
  have hcount : (pieces host sender packet).length = fragmentCount host sender packet := by
    rw [fragmentCount, ← length_pieces hmtu, Nat.mod_eq_of_lt (by omega)]
  refine ⟨hmtu, hnumber, hcount, ?_, hcount ▸ hfew⟩
  have hlong := of_decide_eq_true hfragmented
  rw [← hcount, length_pieces hmtu]
  exact (Nat.le_div_iff_mul_le (fragmentLimit_bounds hmtu).1).mpr (by omega)

/-- A packet that is cut into fragments reaches the program of the other side: whatever the order
in which the fragments arrive there, and however often each of them, it is handed over as it was
sent and once if every fragment is among them, and else not at all. -/
theorem fragments_delivered {arrivals : List FragmentArrival}
    (hsend : enetPeerSend host sender channelID packet true = (after, 0))
    (hqueued : after.outgoingReliableCommands = sender.outgoingReliableCommands ++ fragments)
    (hfragmented : isFragmented host sender packet)
    (hreliably : goesReliably host sender channelID packet)
    (hmtu : 576 ≤ sender.mtu ∧ sender.mtu ≤ 4096)
    (hcount : sender.channels.length ≤ 255)
    (hnumber : (sender.channel channelID).outgoingReliableSequenceNumber < 2 ^ 16)
    (hfew : fragments.length ≤ 9 * 4096)
    (hreceiver : Receiver channelID (sender.channel channelID).outgoingReliableSequenceNumber []
      before receiver)
    (harrivals : ∀ arrival ∈ arrivals,
      arrival.outgoing ∈ fragments ∧ Takes arrival.host packet receiver.totalWaitingData) :
    ∃ last handed,
      runSteps PeerRun.step { peer := receiver } (arrivals.map (·.event)) = some last ∧
      last.peer.dispatchedCommands = before ++ handed ∧
      handed.map (fun incoming => (incoming.command.channelID, incoming.packet.data)) =
        if ∀ fragment ∈ fragments, fragment ∈ arrivals.map (·.outgoing)
        then [(channelID, packet.data)] else [] := by
  obtain ⟨hlength, hcarry⟩ := fragments_carry hsend hqueued hfragmented hreliably hcount
  rw [hlength] at hfew
  have hsplits := Splits.of_fragmented hmtu hnumber hfragmented hfew
  obtain ⟨last, numbers, hrun, hlast, hnumbers⟩ := @Stage.run host sender channelID
    receiver.totalWaitingData packet before [] fragments { peer := receiver } arrivals hsplits
    hcarry harrivals (.nothing hreceiver rfl)
  have hsome : 0 < (pieces host sender packet).length :=
    hsplits.count ▸ Nat.zero_lt_of_lt hsplits.few.1
  obtain ⟨handed, hdispatched, hhanded⟩ := hlast.handed hsome
  have hall : (∀ number < (pieces host sender packet).length, number ∈ numbers) ↔
      ∀ fragment ∈ fragments, fragment ∈ arrivals.map (·.outgoing) := by
    rw [← hlength]
    constructor
    · intro hall fragment hfragment
      obtain ⟨number, hnumber⟩ := List.mem_iff_getElem?.mp hfragment
      obtain ⟨arrival, harrival, hsame⟩ :=
        (hnumbers number).mp (hall number (List.getElem?_eq_some_iff.mp hnumber).1)
      rw [Option.some.inj (hnumber.symm.trans hsame)]
      exact List.mem_map_of_mem harrival
    · intro hall number hlt
      obtain ⟨arrival, harrival, hsame⟩ :=
        List.mem_map.mp (hall _ (List.getElem_mem hlt))
      exact (hnumbers number).mpr
        ⟨arrival, harrival, (List.getElem?_eq_getElem hlt).trans (congrArg some hsame.symm)⟩
  simp only [List.nil_append, hall] at hhanded
  exact ⟨last, handed, hrun, hdispatched, hhanded⟩

/-- A packet of six hundred bytes, for datagrams of 576. -/
def samplePacket : ENetPacket where
  reliable := true
  data := (List.range 600).map fun byte => some (UInt8.ofNat byte)

def sampleSender : ENetPeer := { channels := [{}], mtu := 576 }

/-- A peer with one channel, on which nothing has been received. -/
theorem sampleReceiver : Receiver 0 0 [] [] { channels := [{}] } :=
  ⟨rfl, by decide, rfl, rfl, rfl, rfl⟩

theorem sampleTakes : Takes { serviceTime := 1000 } samplePacket 0 :=
  ⟨by decide +kernel, by decide +kernel⟩

/-- The two fragments of the packet. -/
def sampleFragments : List ENetOutgoingCommand :=
  (enetPeerSend {} sampleSender 0 samplePacket true).1.outgoingReliableCommands

/-- The second one arrives, then the first, and both once more. -/
def sampleFragmentArrivals : List FragmentArrival :=
  (sampleFragments.reverse ++ sampleFragments).map fun outgoing =>
    { host := { serviceTime := 1000 }, outgoing := outgoing, sentTime := some 990 }

theorem fragments_delivered_repeated :
    sampleFragments.length = 2 ∧ ∃ last handed,
      runSteps PeerRun.step { peer := { channels := [{}] } }
        (sampleFragmentArrivals.map (·.event)) = some last ∧
      last.peer.dispatchedCommands = handed ∧
      handed.map (fun incoming => (incoming.command.channelID, incoming.packet.data)) =
        [(0, samplePacket.data)] := by
  obtain ⟨last, handed, hrun, hdispatched, hhanded⟩ := @fragments_delivered {} sampleSender
    (enetPeerSend {} sampleSender 0 samplePacket true).1 { channels := [{}] } 0 samplePacket []
    sampleFragments sampleFragmentArrivals (by decide +kernel) (by decide +kernel)
    (by decide +kernel) (by decide +kernel) (by decide) (by decide) (by decide)
    (by decide +kernel) sampleReceiver fun arrival harrival => by
      obtain ⟨outgoing, houtgoing, rfl⟩ := List.mem_map.mp harrival
      exact ⟨by simpa using houtgoing, sampleTakes⟩
  refine ⟨by decide +kernel, last, handed, hrun, hdispatched, hhanded.trans (if_pos ?_)⟩
  decide +kernel

end

end SrmotionProxy.ENet.Protocol
