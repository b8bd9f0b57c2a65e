/-
# The protocol between connected peers

`enet/protocol.c` while a connection lasts: what a peer puts into a datagram, what it does with
the commands it receives, and how it takes back what is acknowledged or has timed out. A
datagram is the list of its commands, each with the bytes of the packet behind it.
Establishing and closing a connection is left out: where the source gives the peer up, the
functions here have no result, and neither have they where it writes into freed memory.
-/

import SrmotionProxy.ENet.Peer

namespace SrmotionProxy.ENet.Protocol

open SrmotionProxy.Lib

/-! ## Time -/

/-- `ENET_TIME_LESS` -/
def timeLess (a b : UInt32) : Bool := ENET_TIME_OVERFLOW ≤ a - b

/-- `ENET_TIME_DIFFERENCE` -/
def timeDifference (a b : UInt32) : UInt32 :=
  if ENET_TIME_OVERFLOW ≤ a - b then b - a else a - b

/-! ## Datagrams -/

/-- The part of `ENetHost` in which a datagram is put together. -/
structure Datagram where
  commands : List (ENetProtocol × Memory) := []
  bufferCount : Nat := 1
  packetSize : Nat
  hasSentTime : Bool := false
  continueSending : Bool := false
  deriving DecidableEq, Repr

/-- `mtu - packetSize`, in the arithmetic of `size_t`. -/
def Datagram.room (datagram : Datagram) (peer : ENetPeer) : Nat :=
  subSize peer.mtu datagram.packetSize

/-- The bytes of the packet that travel with a command. -/
def ENetOutgoingOrder.payload (order : ENetOutgoingOrder) : Memory :=
  match order.packet with
  | none => []
  | some packet => (packet.data.drop order.fragmentOffset).take order.fragmentLength

/-- The order takes its place in the datagram. -/
def Datagram.add (datagram : Datagram) (order : ENetOutgoingOrder) : Datagram :=
  { datagram with
    commands := datagram.commands ++ [(order.command, order.payload)]
    bufferCount := datagram.bufferCount + (if order.packet.isSome then 2 else 1)
    packetSize := datagram.packetSize + order.command.body.size +
      (if order.packet.isSome then order.fragmentLength else 0) }

/-! ## Acknowledgements -/

/-- `enet_protocol_send_acknowledgements`, by its queue: the acknowledgements that fit. -/
def sendAcknowledgementsLoop (peer : ENetPeer) :
    List ENetAcknowledgement → Datagram → List ENetAcknowledgement × Datagram
  | [], datagram => ([], datagram)
  | acknowledgement :: rest, datagram =>
      if ENET_PROTOCOL_MAXIMUM_PACKET_COMMANDS ≤ datagram.commands.length ∨
          ENET_BUFFER_MAXIMUM ≤ datagram.bufferCount ∨ datagram.room peer < 8 then
        (acknowledgement :: rest, { datagram with continueSending := true })
      else
        sendAcknowledgementsLoop peer rest (datagram.add { command := {
          channelID := acknowledgement.command.channelID
          reliableSequenceNumber := acknowledgement.command.reliableSequenceNumber
          body := .acknowledge acknowledgement.command.reliableSequenceNumber
            acknowledgement.sentTime } })

def enetProtocolSendAcknowledgements (peer : ENetPeer) (datagram : Datagram) :
    ENetPeer × Datagram :=
  let (rest, datagram) := sendAcknowledgementsLoop peer peer.acknowledgements datagram
  ({ peer with acknowledgements := rest }, datagram)

/-- The command an acknowledgement is for. -/
def ENetOutgoingCommand.isFor (outgoing : ENetOutgoingCommand)
    (reliableSequenceNumber channelID : Nat) : Bool :=
  outgoing.reliableSequenceNumber = reliableSequenceNumber ∧
    outgoing.command.channelID = channelID

def ENetOutgoingCommand.attempted (outgoing : ENetOutgoingCommand) : Bool :=
  1 ≤ outgoing.sendAttempts

/-- One command fewer of this window is on its way. -/
def OutgoingChannel.leaveWindow (channel : OutgoingChannel) (window : Nat) : OutgoingChannel :=
  let count := channel.reliableWindows.getD window 0
  if 0 < count then
    { channel with
      reliableWindows := channel.reliableWindows.set window (count - 1)
      usedReliableWindows := if count - 1 = 0
        then channel.usedReliableWindows &&& ((2 ^ 16 - 1) ^^^ (1 <<< window))
        else channel.usedReliableWindows }
  else channel

/-- One command more of this window is on its way, in a count of 16 bits. -/
def OutgoingChannel.enterWindow (channel : OutgoingChannel) (window : Nat) : OutgoingChannel :=
  { channel with
    reliableWindows := channel.reliableWindows.set window
      ((channel.reliableWindows.getD window 0 + 1) % 2 ^ 16)
    usedReliableWindows := channel.usedReliableWindows ||| 1 <<< window }

/-- `enet_protocol_remove_sent_reliable_command`, with the command it removed. -/
def enetProtocolRemoveSentReliableCommand (peer : ENetPeer)
    (reliableSequenceNumber channelID : Nat) : ENetPeer × Option ENetOutgoingCommand :=
  let isFor (outgoing : ENetOutgoingCommand) := outgoing.isFor reliableSequenceNumber channelID
  match peer.sentReliableCommands.find? isFor with
  | some outgoing =>
      let peer := leave peer
      let peer := { peer with
        sentReliableCommands := peer.sentReliableCommands.eraseP isFor
        reliableDataInTransit := if outgoing.packet.isSome
          then peer.reliableDataInTransit - UInt32.ofNat outgoing.fragmentLength
          else peer.reliableDataInTransit }
      (schedule peer, some outgoing)
  | none =>
      match (peer.outgoingReliableCommands.takeWhile (·.attempted)).find? isFor with
      | none => (peer, none)
      | some outgoing =>
          let peer := leave peer
          (schedule { peer with
            outgoingReliableCommands := peer.outgoingReliableCommands.eraseP isFor },
            some outgoing)
where
  leave (peer : ENetPeer) : ENetPeer :=
    if channelID < peer.channels.length then
      let channel := peer.channel channelID
      peer.setChannel channelID { channel with
        toOutgoingChannel := channel.toOutgoingChannel.leaveWindow
          (reliableSequenceNumber / ENET_PEER_RELIABLE_WINDOW_SIZE) }
    else peer
  schedule (peer : ENetPeer) : ENetPeer :=
    match peer.sentReliableCommands with
    | [] => peer
    | first :: _ => { peer with nextTimeout := first.sentTime + first.roundTripTimeout }

/-- The round trip times after a measurement, in `enet_protocol_handle_acknowledge`. -/
def measureRoundTrip (host : ENetHost) (peer : ENetPeer) (roundTripTime : UInt32) : ENetPeer :=
  let (peer, _) := enetPeerThrottle peer roundTripTime
  let variance := peer.roundTripTimeVariance - peer.roundTripTimeVariance / 4
  let peer : ENetPeer :=
    if peer.roundTripTime ≤ roundTripTime then
      let mean := peer.roundTripTime + (roundTripTime - peer.roundTripTime) / 8
      { peer with
        roundTripTime := mean
        roundTripTimeVariance := variance + (roundTripTime - mean) / 4 }
    else
      let mean := peer.roundTripTime - (peer.roundTripTime - roundTripTime) / 8
      { peer with
        roundTripTime := mean
        roundTripTimeVariance := variance + (mean - roundTripTime) / 4 }
  let peer : ENetPeer := { peer with
    lowestRoundTripTime := if peer.roundTripTime < peer.lowestRoundTripTime
      then peer.roundTripTime else peer.lowestRoundTripTime
    highestRoundTripTimeVariance := if peer.highestRoundTripTimeVariance < peer.roundTripTimeVariance
      then peer.roundTripTimeVariance else peer.highestRoundTripTimeVariance }
  if peer.packetThrottleEpoch = 0 ∨
      peer.packetThrottleInterval ≤ timeDifference host.serviceTime peer.packetThrottleEpoch then
    { peer with
      lastRoundTripTime := peer.lowestRoundTripTime
      lastRoundTripTimeVariance := peer.highestRoundTripTimeVariance
      lowestRoundTripTime := peer.roundTripTime
      highestRoundTripTimeVariance := peer.roundTripTimeVariance
      packetThrottleEpoch := host.serviceTime }
  else peer

/-- `receivedSentTime`, completed from the 16 bits that travel. -/
def completeSentTime (host : ENetHost) (sentTime : Nat) : UInt32 :=
  let completed := UInt32.ofNat sentTime ||| (host.serviceTime &&& 0xFFFF0000)
  if host.serviceTime &&& 0x8000 < completed &&& 0x8000 then completed - 0x10000 else completed

/-- `enet_protocol_handle_acknowledge` for a connected peer. -/
def enetProtocolHandleAcknowledge (host : ENetHost) (peer : ENetPeer)
    (channelID receivedReliableSequenceNumber receivedSentTime : Nat) : ENetPeer :=
  let sentTime := completeSentTime host receivedSentTime
  if timeLess host.serviceTime sentTime then peer
  else
    let peer := { peer with
      lastReceiveTime := host.serviceTime
      earliestTimeout := 0 }
    let peer := measureRoundTrip host peer (timeDifference host.serviceTime sentTime)
    (enetProtocolRemoveSentReliableCommand peer receivedReliableSequenceNumber channelID).1

/-! ## Receiving packets -/

/-- The payload a handler reads: the length must be allowed and the bytes there. -/
def payloadOf (host : ENetHost) (peer : ENetPeer) (channelID dataLength : Nat) (data : Memory) :
    Option Memory :=
  if peer.channels.length ≤ channelID ∨ ¬ peer.isUp then none
  else if host.maximumPacketSize < dataLength ∨ data.length < dataLength then none
  else some (data.take dataLength)

/-- The return of a handler that queued a command. -/
def Queued.code (peer : ENetPeer) : Queued → ENetPeer × Int
  | .queued peer _ => (peer, 0)
  | .discarded => (peer, 0)
  | .failed => (peer, -1)

/-- `enet_protocol_handle_send_reliable` -/
def enetProtocolHandleSendReliable (host : ENetHost) (peer : ENetPeer) (command : ENetProtocol)
    (dataLength : Nat) (data : Memory) (allocates : Bool) : ENetPeer × Int :=
  match payloadOf host peer command.channelID dataLength data with
  | none => (peer, -1)
  | some data =>
      (enetPeerQueueIncomingCommand host peer command { reliable := true, data := data } 0
        allocates).code peer

/-- `enet_protocol_handle_send_unreliable` -/
def enetProtocolHandleSendUnreliable (host : ENetHost) (peer : ENetPeer) (command : ENetProtocol)
    (dataLength : Nat) (data : Memory) (allocates : Bool) : ENetPeer × Int :=
  match payloadOf host peer command.channelID dataLength data with
  | none => (peer, -1)
  | some data =>
      (enetPeerQueueIncomingCommand host peer command { data := data } 0 allocates).code peer

/-- An empty window for unsequenced packets. -/
def ENetPeer.startGroup (peer : ENetPeer) (group : Nat) : ENetPeer :=
  { peer with
    incomingUnsequencedGroup := group
    unsequencedWindow := List.replicate ENET_PEER_UNSEQUENCED_WINDOW_SIZE false }

/-- The packet with this index of the window has arrived. -/
def ENetPeer.noteUnsequenced (peer : ENetPeer) (index : Nat) : ENetPeer :=
  { peer with unsequencedWindow := peer.unsequencedWindow.set index true }

/-- `enet_protocol_handle_send_unsequenced` -/
def enetProtocolHandleSendUnsequenced (host : ENetHost) (peer : ENetPeer) (command : ENetProtocol)
    (unsequencedGroup dataLength : Nat) (data : Memory) (allocates : Bool) : ENetPeer × Int :=
  match payloadOf host peer command.channelID dataLength data with
  | none => (peer, -1)
  | some data =>
      let index := unsequencedGroup % ENET_PEER_UNSEQUENCED_WINDOW_SIZE
      let group := if unsequencedGroup < peer.incomingUnsequencedGroup
        then unsequencedGroup + 0x10000 else unsequencedGroup
      if peer.incomingUnsequencedGroup +
          ENET_PEER_FREE_UNSEQUENCED_WINDOWS * ENET_PEER_UNSEQUENCED_WINDOW_SIZE ≤ group then
        (peer, 0)
      else
        let fresh := unsequencedGroup - index ≠ peer.incomingUnsequencedGroup
        if ¬ fresh ∧ peer.unsequencedWindow.getD index false then (peer, 0)
        else
          let peer := if fresh then peer.startGroup (unsequencedGroup - index) else peer
          match enetPeerQueueIncomingCommand host peer command
            { unsequenced := true, data := data } 0 allocates with
          | .failed => (peer, -1)
          | .queued peer _ => (peer.noteUnsequenced index, 0)
          | .discarded => (peer.noteUnsequenced index, 0)

/-- The search of the fragment handlers, given last command first: it passes what lies `beyond`
the packet and ends at what lies `before` it. -/
def findStart (beyond before : ENetIncomingCommand → Bool) :
    List ENetIncomingCommand → Option ENetIncomingCommand
  | [] => none
  | incoming :: earlier =>
      if beyond incoming then findStart beyond before earlier
      else if before incoming then none
      else some incoming

/-- `memcpy(memory + offset, data, data.length)` -/
def writeMemory (memory : Memory) (offset : Nat) (data : Memory) : Memory :=
  memory.take offset ++ data ++ memory.drop (offset + data.length)

/-- A fragment is noted and copied into its packet, unless it is there already. -/
def ENetIncomingCommand.receive (incoming : ENetIncomingCommand)
    (fragment : ENetProtocolSendFragment) (data : Memory) : ENetIncomingCommand :=
  if incoming.fragments.getD fragment.fragmentNumber false then incoming
  else { incoming with
    fragmentsRemaining := (incoming.fragmentsRemaining + (2 ^ 32 - 1)) % 2 ^ 32
    fragments := incoming.fragments.set fragment.fragmentNumber true
    packet := { incoming.packet with
      data := writeMemory incoming.packet.data fragment.fragmentOffset
        (data.take (incoming.packet.data.length - fragment.fragmentOffset)) } }

/-- The fragment goes to the queued command at this address: the queue with it, and whether it was
the last one that was missing. There is no result where the source writes into a command that
has been freed. -/
def receiveFragment (fragment : ENetProtocolSendFragment) (data : Memory) (address : Nat) :
    List ENetIncomingCommand → Option (List ENetIncomingCommand × Bool)
  | [] => none
  | incoming :: rest =>
      if incoming.address = address then
        let known := incoming.fragments.getD fragment.fragmentNumber false
        let received := incoming.receive fragment data
        some (received :: rest, ¬ known ∧ received.fragmentsRemaining = 0)
      else
        (receiveFragment fragment data address rest).map fun (rest, complete) =>
          (incoming :: rest, complete)

/-- What a fragment says about its packet is refused by both fragment handlers. -/
def ENetProtocolSendFragment.refused (host : ENetHost) (fragment : ENetProtocolSendFragment) :
    Bool :=
  ENET_PROTOCOL_MAXIMUM_FRAGMENT_COUNT < fragment.fragmentCount ∨
    fragment.fragmentCount ≤ fragment.fragmentNumber ∨
    host.maximumPacketSize < fragment.totalLength ∨
    fragment.totalLength ≤ fragment.fragmentOffset ∨
    fragment.totalLength - fragment.fragmentOffset < fragment.dataLength

/-- `enet_protocol_handle_send_fragment` -/
def enetProtocolHandleSendFragment (host : ENetHost) (peer : ENetPeer) (command : ENetProtocol)
    (fragment : ENetProtocolSendFragment) (data : Memory) (allocates : Bool) :
    Option (ENetPeer × Int) :=
  match payloadOf host peer command.channelID fragment.dataLength data with
  | none => some (peer, -1)
  | some data =>
      let channel := peer.channel command.channelID
      let current := channel.incomingReliableSequenceNumber
      let start := fragment.startSequenceNumber
      if ¬ inWindow channel.toIncomingChannel start then some (peer, 0)
      else if fragment.refused host then some (peer, -1)
      else
        let found := findStart
          (fun incoming =>
            if current ≤ start ∧ incoming.reliableSequenceNumber < current then true
            else if start < current ∧ current ≤ incoming.reliableSequenceNumber then false
            else start < incoming.reliableSequenceNumber)
          (fun incoming =>
            start < current ∧ current ≤ incoming.reliableSequenceNumber ∨
              incoming.reliableSequenceNumber < start)
          channel.incomingReliableCommands.reverse
        match found with
        | some incoming =>
            match incoming.command.body with
            | .sendFragment _ =>
                if fragment.totalLength ≠ incoming.packet.data.length ∨
                    fragment.fragmentCount ≠ incoming.fragmentCount then some (peer, -1)
                else (store peer incoming.address data).map (·, 0)
            | _ => some (peer, -1)
        | none =>
            match enetPeerQueueIncomingCommand host peer
              { command with reliableSequenceNumber := start }
              { reliable := true, data := List.replicate fragment.totalLength none }
              fragment.fragmentCount allocates with
            | .queued peer address => (store peer address data).map (·, 0)
            | _ => some (peer, -1)
where
  store (peer : ENetPeer) (address : Nat) (data : Memory) : Option ENetPeer :=
    let channel := peer.channel command.channelID
    (receiveFragment fragment data address channel.incomingReliableCommands).map
      fun (queue, complete) =>
        let peer := peer.setChannel command.channelID { channel with
          incomingReliableCommands := queue }
        if complete then enetPeerDispatchIncomingReliableCommands peer command.channelID else peer

/-- `enet_protocol_handle_send_unreliable_fragment` -/
def enetProtocolHandleSendUnreliableFragment (host : ENetHost) (peer : ENetPeer)
    (command : ENetProtocol) (fragment : ENetProtocolSendFragment) (data : Memory)
    (allocates : Bool) : Option (ENetPeer × Int) :=
  match payloadOf host peer command.channelID fragment.dataLength data with
  | none => some (peer, -1)
  | some data =>
      let channel := peer.channel command.channelID
      let current := channel.incomingReliableSequenceNumber
      let number := command.reliableSequenceNumber
      let start := fragment.startSequenceNumber
      if ¬ inWindow channel.toIncomingChannel number then some (peer, 0)
      else if number = current ∧ start ≤ channel.incomingUnreliableSequenceNumber then some (peer, 0)
      else if fragment.refused host then some (peer, -1)
      else
        let found := findStart
          (fun incoming =>
            if current ≤ number ∧ incoming.reliableSequenceNumber < current then true
            else if number < current ∧ current ≤ incoming.reliableSequenceNumber then false
            else if incoming.reliableSequenceNumber < number then false
            else if number < incoming.reliableSequenceNumber then true
            else start < incoming.unreliableSequenceNumber)
          (fun incoming =>
            number < current ∧ current ≤ incoming.reliableSequenceNumber ∨
              incoming.reliableSequenceNumber < number ∨
              incoming.unreliableSequenceNumber < start)
          channel.incomingUnreliableCommands.reverse
        match found with
        | some incoming =>
            match incoming.command.body with
            | .sendUnreliableFragment _ =>
                if fragment.totalLength ≠ incoming.packet.data.length ∨
                    fragment.fragmentCount ≠ incoming.fragmentCount then some (peer, -1)
                else (store peer incoming.address data).map (·, 0)
            | _ => some (peer, -1)
        | none =>
            match enetPeerQueueIncomingCommand host peer command
              { unreliableFragment := true, data := List.replicate fragment.totalLength none }
              fragment.fragmentCount allocates with
            | .queued peer address => (store peer address data).map (·, 0)
            | _ => some (peer, -1)
where
  store (peer : ENetPeer) (address : Nat) (data : Memory) : Option ENetPeer :=
    let channel := peer.channel command.channelID
    (receiveFragment fragment data address channel.incomingUnreliableCommands).map
      fun (queue, complete) =>
        let peer := peer.setChannel command.channelID { channel with
          incomingUnreliableCommands := queue }
        if complete then enetPeerDispatchIncomingUnreliableCommands peer command.channelID
        else peer

/-! ## Other commands -/

/-- `enet_protocol_handle_bandwidth_limit`: the window follows the smaller of the two bandwidths
that are limited. -/
def enetProtocolHandleBandwidthLimit (host : ENetHost) (peer : ENetPeer)
    (incomingBandwidth outgoingBandwidth : UInt32) : ENetPeer × Int :=
  if ¬ peer.isUp then (peer, -1)
  else
    let bandwidth := if incomingBandwidth = 0 ∨ host.outgoingBandwidth = 0
      then max incomingBandwidth host.outgoingBandwidth
      else min incomingBandwidth host.outgoingBandwidth
    let windowSize : UInt32 := if incomingBandwidth = 0 ∧ host.outgoingBandwidth = 0 then 65536
      else bandwidth / 65536 * 4096
    ({ peer with
      incomingBandwidth := incomingBandwidth
      outgoingBandwidth := outgoingBandwidth
      windowSize := if windowSize < 4096 then 4096 else if 65536 < windowSize then 65536
        else windowSize }, 0)

/-- `enet_protocol_handle_throttle_configure` -/
def enetProtocolHandleThrottleConfigure (peer : ENetPeer)
    (interval acceleration deceleration : UInt32) : ENetPeer × Int :=
  if ¬ peer.isUp then (peer, -1)
  else ({ peer with
    packetThrottleInterval := interval
    packetThrottleAcceleration := acceleration
    packetThrottleDeceleration := deceleration }, 0)

/-- The handler for a command, as `enet_protocol_handle_incoming_commands` chooses it. -/
def handleCommand (host : ENetHost) (peer : ENetPeer) (command : ENetProtocol) (data : Memory)
    (allocates : Bool) : Option (ENetPeer × Int) :=
  match command.body with
  | .acknowledge number time =>
      some (enetProtocolHandleAcknowledge host peer command.channelID number time, 0)
  | .ping => some (peer, if peer.isUp then 0 else -1)
  | .sendReliable dataLength =>
      some (enetProtocolHandleSendReliable host peer command dataLength data allocates)
  | .sendUnreliable _ dataLength =>
      some (enetProtocolHandleSendUnreliable host peer command dataLength data allocates)
  | .sendUnsequenced group dataLength =>
      some (enetProtocolHandleSendUnsequenced host peer command group dataLength data allocates)
  | .sendFragment fragment =>
      enetProtocolHandleSendFragment host peer command fragment data allocates
  | .sendUnreliableFragment fragment =>
      enetProtocolHandleSendUnreliableFragment host peer command fragment data allocates
  | .bandwidthLimit incoming outgoing =>
      some (enetProtocolHandleBandwidthLimit host peer incoming outgoing)
  | .throttleConfigure interval acceleration deceleration =>
      some (enetProtocolHandleThrottleConfigure peer interval acceleration deceleration)

/-- The acknowledgement of a command that has been handled, if the sender wants one and the datagram
says when it was sent. -/
def acknowledgeCommand (peer : ENetPeer) (command : ENetProtocol) (code : Int) :
    (sentTime : Option Nat) → (allocates : Bool) → ENetPeer
  | some sentTime, allocates =>
      if code = 0 ∧ command.flagAcknowledge
      then enetPeerQueueAcknowledgement peer command sentTime allocates else peer
  | none, _ => peer

/-- One round of the loop in `enet_protocol_handle_incoming_commands`. -/
def enetProtocolHandleIncomingCommand (host : ENetHost) (peer : ENetPeer) (command : ENetProtocol)
    (data : Memory) (sentTime : Option Nat) (allocates : Bool) : Option (ENetPeer × Int) :=
  (handleCommand host peer command data allocates).map fun (peer, code) =>
    (acknowledgeCommand peer command code sentTime allocates, code)

/-! ## Sending packets -/

/-- `earliestTimeout`, once this command has timed out as well. -/
def ENetPeer.timeoutEpoch (peer : ENetPeer) (outgoing : ENetOutgoingCommand) : UInt32 :=
  if peer.earliestTimeout = 0 ∨ timeLess outgoing.sentTime peer.earliestTimeout
  then outgoing.sentTime else peer.earliestTimeout

/-- This timeout disconnects the peer. -/
def ENetPeer.isLost (host : ENetHost) (peer : ENetPeer) (outgoing : ENetOutgoingCommand) : Bool :=
  let waited := timeDifference host.serviceTime (peer.timeoutEpoch outgoing)
  peer.timeoutEpoch outgoing ≠ 0 ∧ (peer.timeoutMaximum ≤ waited ∨
    outgoing.roundTripTimeoutLimit ≤ outgoing.roundTripTimeout ∧ peer.timeoutMinimum ≤ waited)

/-- `nextTimeout` after a command has left the sent commands, which `kept` and `rest` are now. -/
def ENetPeer.timeoutAfter (peer : ENetPeer) : (kept rest : List ENetOutgoingCommand) → UInt32
  | [], next :: _ => next.sentTime + next.roundTripTimeout
  | _, _ => peer.nextTimeout

/-- The loop of `enet_protocol_check_timeouts` over the sent commands: the peer, the commands it
keeps there, and those that go back to be sent again. It has no result where the source
disconnects the peer. -/
def checkTimeoutsLoop (host : ENetHost) :
    List ENetOutgoingCommand → ENetPeer → List ENetOutgoingCommand → List ENetOutgoingCommand →
      Option (ENetPeer × List ENetOutgoingCommand × List ENetOutgoingCommand)
  | [], peer, kept, late => some (peer, kept, late)
  | outgoing :: rest, peer, kept, late =>
      if timeDifference host.serviceTime outgoing.sentTime < outgoing.roundTripTimeout then
        checkTimeoutsLoop host rest peer (kept ++ [outgoing]) late
      else if peer.isLost host outgoing then none
      else
        checkTimeoutsLoop host rest { peer with
            earliestTimeout := peer.timeoutEpoch outgoing
            nextTimeout := peer.timeoutAfter kept rest
            reliableDataInTransit := if outgoing.packet.isSome
              then peer.reliableDataInTransit - UInt32.ofNat outgoing.fragmentLength
              else peer.reliableDataInTransit }
          kept (late ++ [{ outgoing with roundTripTimeout := outgoing.roundTripTimeout * 2 }])

/-- `enet_protocol_check_timeouts` -/
def enetProtocolCheckTimeouts (host : ENetHost) (peer : ENetPeer) : Option ENetPeer :=
  match checkTimeoutsLoop host peer.sentReliableCommands peer [] [] with
  | none => none
  | some (peer, kept, late) => some { peer with
      sentReliableCommands := kept
      outgoingReliableCommands := late ++ peer.outgoingReliableCommands }

/-- What `enet_protocol_send_reliable_outgoing_commands` carries through its loop; `skipped` are
the commands it has passed and left in the queue. -/
structure ReliableSending where
  peer : ENetPeer
  datagram : Datagram
  skipped : List ENetOutgoingCommand := []
  windowExceeded : Bool := false
  windowWrap : Bool := false
  canPing : Bool := true
  deriving DecidableEq, Repr

/-- The windows that may not be in use when window `reliableWindow` is started, as bits. -/
def freeWindows (reliableWindow : Nat) : Nat :=
  ((1 <<< ENET_PEER_FREE_RELIABLE_WINDOWS - 1) <<< reliableWindow) |||
    ((1 <<< ENET_PEER_FREE_RELIABLE_WINDOWS - 1) >>> (ENET_PEER_RELIABLE_WINDOWS - reliableWindow))

/-- A command that starts a window must wait: the window before it is full, or a window it
would run into is still in use. -/
def OutgoingChannel.wraps (channel : OutgoingChannel) (outgoing : ENetOutgoingCommand) : Bool :=
  let window := outgoing.reliableSequenceNumber / ENET_PEER_RELIABLE_WINDOW_SIZE
  ¬ outgoing.attempted ∧
    outgoing.reliableSequenceNumber % ENET_PEER_RELIABLE_WINDOW_SIZE = 0 ∧
    (ENET_PEER_RELIABLE_WINDOW_SIZE ≤ channel.reliableWindows.getD
        ((window + ENET_PEER_RELIABLE_WINDOWS - 1) % ENET_PEER_RELIABLE_WINDOWS) 0 ∨
      channel.usedReliableWindows &&& freeWindows window ≠ 0)

/-- The packet does not fit into what may be in transit. -/
def ENetPeer.exceeds (peer : ENetPeer) (outgoing : ENetOutgoingCommand) : Bool :=
  let windowSize := peer.packetThrottle * peer.windowSize / ENET_PEER_PACKET_THROTTLE_SCALE
  max windowSize (UInt32.ofNat peer.mtu) <
    peer.reliableDataInTransit + UInt32.ofNat outgoing.fragmentLength

/-- The datagram has no room for the command. -/
def Datagram.full (datagram : Datagram) (peer : ENetPeer) (outgoing : ENetOutgoingCommand) :
    Bool :=
  let commandSize := outgoing.command.body.size
  ENET_PROTOCOL_MAXIMUM_PACKET_COMMANDS ≤ datagram.commands.length ∨
    ENET_BUFFER_MAXIMUM ≤ datagram.bufferCount + 1 ∨
    datagram.room peer < commandSize ∨
    outgoing.packet.isSome ∧
      datagram.room peer % 2 ^ 16 < (commandSize + outgoing.fragmentLength) % 2 ^ 16

/-- The command goes into the datagram and waits for its acknowledgement. -/
def launch (host : ENetHost) (peer : ENetPeer) (outgoing : ENetOutgoingCommand) : ENetPeer :=
  let channelID := outgoing.command.channelID
  let channel := peer.channel channelID
  let peer := if channelID < peer.channels.length ∧ ¬ outgoing.attempted
    then peer.setChannel channelID { channel with
      toOutgoingChannel := channel.toOutgoingChannel.enterWindow
        (outgoing.reliableSequenceNumber / ENET_PEER_RELIABLE_WINDOW_SIZE) }
    else peer
  let timeout := if outgoing.roundTripTimeout = 0
    then peer.roundTripTime + 4 * peer.roundTripTimeVariance else outgoing.roundTripTimeout
  let limit := if outgoing.roundTripTimeout = 0
    then peer.timeoutLimit * timeout else outgoing.roundTripTimeoutLimit
  { peer with
    nextTimeout := if peer.sentReliableCommands = [] then host.serviceTime + timeout
      else peer.nextTimeout
    reliableDataInTransit := if outgoing.packet.isSome
      then peer.reliableDataInTransit + UInt32.ofNat outgoing.fragmentLength
      else peer.reliableDataInTransit
    sentReliableCommands := peer.sentReliableCommands ++ [{ outgoing with
      sendAttempts := (outgoing.sendAttempts + 1) % 2 ^ 16
      sentTime := host.serviceTime
      roundTripTimeout := timeout
      roundTripTimeoutLimit := limit }] }

namespace ReliableSending

/-- Set `windowWrap` if this command has to wait for a window. -/
def checkWrap (sending : ReliableSending) (outgoing : ENetOutgoingCommand) : ReliableSending :=
  let channelID := outgoing.command.channelID
  { sending with windowWrap := sending.windowWrap ||
      (channelID < sending.peer.channels.length &&
        (sending.peer.channel channelID).toOutgoingChannel.wraps outgoing) }

/-- Set `windowExceeded` if this command does not fit into what may be in transit. -/
def checkExceeded (sending : ReliableSending) (outgoing : ENetOutgoingCommand) :
    ReliableSending :=
  { sending with windowExceeded := sending.windowExceeded ||
      (outgoing.packet.isSome && sending.peer.exceeds outgoing) }

/-- The command stays in the queue. -/
def skip (sending : ReliableSending) (outgoing : ENetOutgoingCommand) : ReliableSending :=
  { sending with skipped := sending.skipped ++ [outgoing] }

/-- The datagram is full. -/
def stop (sending : ReliableSending) (rest : List ENetOutgoingCommand) : ReliableSending :=
  { sending with
    skipped := sending.skipped ++ rest
    canPing := false
    datagram := { sending.datagram with continueSending := true } }

def send (host : ENetHost) (sending : ReliableSending) (outgoing : ENetOutgoingCommand) :
    ReliableSending :=
  { sending with
    canPing := false
    peer := launch host sending.peer outgoing
    datagram := { sending.datagram.add outgoing.toENetOutgoingOrder with hasSentTime := true } }

end ReliableSending

/-- The loop of `enet_protocol_send_reliable_outgoing_commands` over the outgoing commands. -/
def sendReliableLoop (host : ENetHost) :
    List ENetOutgoingCommand → ReliableSending → ReliableSending
  | [], sending => sending
  | outgoing :: rest, sending =>
      let sending := sending.checkWrap outgoing
      if outgoing.command.channelID < sending.peer.channels.length ∧ sending.windowWrap then
        sendReliableLoop host rest (sending.skip outgoing)
      else
        let sending := sending.checkExceeded outgoing
        if outgoing.packet.isSome ∧ sending.windowExceeded then
          sendReliableLoop host rest (sending.skip outgoing)
        else if sending.datagram.full sending.peer outgoing then sending.stop (outgoing :: rest)
        else sendReliableLoop host rest (sending.send host outgoing)

/-- `enet_protocol_send_reliable_outgoing_commands`; the flag says that a ping may be sent. -/
def enetProtocolSendReliableOutgoingCommands (host : ENetHost) (peer : ENetPeer)
    (datagram : Datagram) : ENetPeer × Datagram × Bool :=
  let sending := sendReliableLoop host peer.outgoingReliableCommands
    { peer := peer, datagram := datagram }
  ({ sending.peer with outgoingReliableCommands := sending.skipped }, sending.datagram,
    sending.canPing)

/-- The packet of a dropped unreliable command: it and the fragments behind it go. -/
def dropPacket (reliable unreliable : Nat) :
    List ENetOutgoingCommand → List ENetOutgoingCommand
  | [] => []
  | outgoing :: rest =>
      if outgoing.reliableSequenceNumber ≠ reliable ∨
          outgoing.unreliableSequenceNumber ≠ unreliable then outgoing :: rest
      else dropPacket reliable unreliable rest

theorem length_dropPacket_le (reliable unreliable : Nat) (queue : List ENetOutgoingCommand) :
    (dropPacket reliable unreliable queue).length ≤ queue.length := by
  induction queue with
  | nil => exact le_refl _
  | cons outgoing rest ih =>
      rw [dropPacket]
      split
      · exact le_refl _
      · exact ih.trans (Nat.le_succ _)

/-- The loop of `enet_protocol_send_unreliable_outgoing_commands`; the commands it takes out of
the queue are dropped by the throttle or sent, and forgotten either way. -/
def sendUnreliableLoop : List ENetOutgoingCommand → ENetPeer → Datagram →
    List ENetOutgoingCommand × ENetPeer × Datagram
  | [], peer, datagram => ([], peer, datagram)
  | outgoing :: rest, peer, datagram =>
      let commandSize := outgoing.command.body.size
      if ENET_PROTOCOL_MAXIMUM_PACKET_COMMANDS ≤ datagram.commands.length ∨
          ENET_BUFFER_MAXIMUM ≤ datagram.bufferCount + 1 ∨
          datagram.room peer < commandSize ∨
          outgoing.packet.isSome ∧ datagram.room peer < commandSize + outgoing.fragmentLength then
        (outgoing :: rest, peer, { datagram with continueSending := true })
      else if outgoing.packet.isSome ∧ outgoing.fragmentOffset = 0 then
        let counter := (peer.packetThrottleCounter + ENET_PEER_PACKET_THROTTLE_COUNTER) %
          ENET_PEER_PACKET_THROTTLE_SCALE
        let peer := { peer with packetThrottleCounter := counter }
        if peer.packetThrottle < counter then
          have := length_dropPacket_le outgoing.reliableSequenceNumber
            outgoing.unreliableSequenceNumber rest
          sendUnreliableLoop (dropPacket outgoing.reliableSequenceNumber
            outgoing.unreliableSequenceNumber rest) peer datagram
        else sendUnreliableLoop rest peer (datagram.add outgoing.toENetOutgoingOrder)
      else sendUnreliableLoop rest peer (datagram.add outgoing.toENetOutgoingOrder)
  termination_by queue => queue.length

/-- `enet_protocol_send_unreliable_outgoing_commands` -/
def enetProtocolSendUnreliableOutgoingCommands (peer : ENetPeer) (datagram : Datagram) :
    ENetPeer × Datagram :=
  let (rest, peer, datagram) := sendUnreliableLoop peer.outgoingUnreliableCommands peer datagram
  ({ peer with outgoingUnreliableCommands := rest }, datagram)

/-- The commands behind the acknowledgements: the reliable ones, a ping if there are none and
nothing has arrived for a while, and the unreliable ones. -/
def sendCommands (host : ENetHost) (peer : ENetPeer) (datagram : Datagram) (allocates : Bool) :
    ENetPeer × Datagram :=
  let (peer, datagram, canPing) :=
    if peer.outgoingReliableCommands = [] then (peer, datagram, true)
    else enetProtocolSendReliableOutgoingCommands host peer datagram
  let (peer, datagram) :=
    if canPing ∧ peer.sentReliableCommands = [] ∧
        peer.pingInterval ≤ timeDifference host.serviceTime peer.lastReceiveTime ∧
        4 ≤ datagram.room peer then
      let (peer, datagram, _) :=
        enetProtocolSendReliableOutgoingCommands host (enetPeerPing peer allocates) datagram
      (peer, datagram)
    else (peer, datagram)
  enetProtocolSendUnreliableOutgoingCommands peer datagram

/-- The loop body of `enet_protocol_send_outgoing_commands` for one connected peer: the datagram
it sends, without result where a timeout disconnects the peer. -/
def enetProtocolSendOutgoingCommands (host : ENetHost) (peer : ENetPeer)
    (checkForTimeouts allocates : Bool) : Option (ENetPeer × Datagram) :=
  let (peer, datagram) := enetProtocolSendAcknowledgements peer
    { packetSize := if host.usingNewPacket then 10 else 4 }
  if checkForTimeouts ∧ peer.sentReliableCommands ≠ [] ∧
      ¬ timeLess host.serviceTime peer.nextTimeout then
    (enetProtocolCheckTimeouts host peer).map (sendCommands host · datagram allocates)
  else some (sendCommands host peer datagram allocates)

end SrmotionProxy.ENet.Protocol
