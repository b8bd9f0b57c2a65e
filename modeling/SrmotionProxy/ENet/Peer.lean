/-
# Peers of the network library

`enet/peer.c` for peers whose connection is established: channels, the queues of commands on
their way out and in, and the functions that put commands into them. Sequence numbers are 16
bits wide and wrap; times and round trips are the 32 bit words of the source.

Memory is explicit where it shows: a byte that nothing has been written to is `none`. The
lists of the source are lists here, first command first. A pointer to an incoming command is
the command's address; a new command gets one that no command of the peer has had before, so
that a pointer to a freed command finds nothing. Whether the allocations of a call succeed is
an argument. Reference counts, statistics, and the traffic totals that only the bandwidth
throttle reads, are left out.
-/

import SrmotionProxy.Lib.Text

namespace SrmotionProxy.ENet.Protocol

open SrmotionProxy.Lib

/-! ## Constants -/

def ENET_PEER_PACKET_THROTTLE_SCALE : UInt32 := 32
def ENET_PEER_PACKET_THROTTLE_COUNTER : UInt32 := 7

def ENET_PEER_PING_INTERVAL : UInt32 := 500
def ENET_PEER_TIMEOUT_LIMIT : UInt32 := 32
def ENET_PEER_TIMEOUT_MINIMUM : UInt32 := 5000
def ENET_PEER_TIMEOUT_MAXIMUM : UInt32 := 30000

def ENET_PEER_UNSEQUENCED_WINDOW_SIZE : Nat := 1024
def ENET_PEER_FREE_UNSEQUENCED_WINDOWS : Nat := 32

def ENET_PEER_RELIABLE_WINDOWS : Nat := 16
def ENET_PEER_RELIABLE_WINDOW_SIZE : Nat := 0x1000
def ENET_PEER_FREE_RELIABLE_WINDOWS : Nat := 8

def ENET_PROTOCOL_MAXIMUM_PACKET_COMMANDS : Nat := 32
def ENET_BUFFER_MAXIMUM : Nat := 1 + 2 * ENET_PROTOCOL_MAXIMUM_PACKET_COMMANDS
def ENET_PROTOCOL_MAXIMUM_FRAGMENT_COUNT : Nat := 1024 * 1024

def ENET_TIME_OVERFLOW : UInt32 := 86400000

/-! ## Packets and commands -/

/-- Bytes in memory. -/
abbrev Memory := List (Option UInt8)

/-- `ENetPacket`, with the flags that decide how it travels. -/
structure ENetPacket where
  reliable : Bool := false
  unsequenced : Bool := false
  unreliableFragment : Bool := false
  data : Memory := []
  deriving DecidableEq, Repr

structure ENetProtocolSendFragment where
  startSequenceNumber : Nat
  dataLength : Nat
  fragmentCount : Nat
  fragmentNumber : Nat
  totalLength : Nat
  fragmentOffset : Nat
  deriving DecidableEq, Repr

/-- What follows the header of a command; the constructor stands for the command number. -/
inductive ENetProtocolBody where
  | acknowledge (receivedReliableSequenceNumber receivedSentTime : Nat)
  | ping
  | sendReliable (dataLength : Nat)
  | sendUnreliable (unreliableSequenceNumber dataLength : Nat)
  | sendFragment (fragment : ENetProtocolSendFragment)
  | sendUnsequenced (unsequencedGroup dataLength : Nat)
  | bandwidthLimit (incomingBandwidth outgoingBandwidth : UInt32)
  | throttleConfigure (interval acceleration deceleration : UInt32)
  | sendUnreliableFragment (fragment : ENetProtocolSendFragment)
  deriving DecidableEq, Repr

/-- `ENetProtocol`: the header, its command byte taken apart, and the body. -/
structure ENetProtocol where
  channelID : Nat
  flagAcknowledge : Bool := false
  flagUnsequenced : Bool := false
  reliableSequenceNumber : Nat := 0
  body : ENetProtocolBody
  deriving DecidableEq, Repr

/-- `enet_protocol_command_size` -/
def ENetProtocolBody.size : ENetProtocolBody → Nat
  | .acknowledge _ _ => 8
  | .ping => 4
  | .sendReliable _ => 6
  | .sendUnreliable _ _ => 8
  | .sendFragment _ => 24
  | .sendUnsequenced _ _ => 8
  | .bandwidthLimit _ _ => 12
  | .throttleConfigure _ _ _ => 16
  | .sendUnreliableFragment _ => 24

/-- What a queued outgoing command will put on the wire. -/
structure ENetOutgoingOrder where
  command : ENetProtocol
  packet : Option ENetPacket := none
  fragmentOffset : Nat := 0
  fragmentLength : Nat := 0
  reliableSequenceNumber : Nat := 0
  unreliableSequenceNumber : Nat := 0
  deriving DecidableEq, Repr

/-- `ENetOutgoingCommand`: an order and the attempts made so far. -/
structure ENetOutgoingCommand extends ENetOutgoingOrder where
  sendAttempts : Nat := 0
  sentTime : UInt32 := 0
  roundTripTimeout : UInt32 := 0
  roundTripTimeoutLimit : UInt32 := 0
  deriving DecidableEq, Repr

/-- `ENetIncomingCommand` and where it lies; `fragments` has one bit for each fragment. -/
structure ENetIncomingCommand where
  address : Nat
  reliableSequenceNumber : Nat
  unreliableSequenceNumber : Nat
  command : ENetProtocol
  fragmentCount : Nat
  fragmentsRemaining : Nat
  fragments : List Bool
  packet : ENetPacket
  deriving DecidableEq, Repr

structure ENetAcknowledgement where
  sentTime : Nat
  command : ENetProtocol
  deriving DecidableEq, Repr

/-! ## Channels and peers -/

structure OutgoingChannel where
  outgoingReliableSequenceNumber : Nat := 0
  outgoingUnreliableSequenceNumber : Nat := 0
  usedReliableWindows : Nat := 0
  reliableWindows : List Nat := List.replicate ENET_PEER_RELIABLE_WINDOWS 0
  deriving DecidableEq, Repr

structure IncomingChannel where
  incomingReliableSequenceNumber : Nat := 0
  incomingUnreliableSequenceNumber : Nat := 0
  incomingReliableCommands : List ENetIncomingCommand := []
  incomingUnreliableCommands : List ENetIncomingCommand := []
  deriving DecidableEq, Repr

/-- `ENetChannel`, by direction. -/
structure ENetChannel extends OutgoingChannel, IncomingChannel
  deriving DecidableEq, Repr

inductive ENetPeerState where
  | disconnected | connecting | acknowledgingConnect | connectionPending | connectionSucceeded
  | connected | disconnectLater | disconnecting | acknowledgingDisconnect | zombie
  deriving DecidableEq, Repr

/-- What a peer keeps for the packets it sends. -/
structure OutgoingPeer where
  outgoingReliableSequenceNumber : Nat := 0
  outgoingUnsequencedGroup : Nat := 0
  sentReliableCommands : List ENetOutgoingCommand := []
  outgoingReliableCommands : List ENetOutgoingCommand := []
  outgoingUnreliableCommands : List ENetOutgoingCommand := []
  mtu : Nat := 1400
  windowSize : UInt32 := 65536
  reliableDataInTransit : UInt32 := 0
  incomingBandwidth : UInt32 := 0
  outgoingBandwidth : UInt32 := 0
  pingInterval : UInt32 := ENET_PEER_PING_INTERVAL
  lastReceiveTime : UInt32 := 0
  nextTimeout : UInt32 := 0
  earliestTimeout : UInt32 := 0
  timeoutLimit : UInt32 := ENET_PEER_TIMEOUT_LIMIT
  timeoutMinimum : UInt32 := ENET_PEER_TIMEOUT_MINIMUM
  timeoutMaximum : UInt32 := ENET_PEER_TIMEOUT_MAXIMUM
  packetThrottle : UInt32 := 32
  packetThrottleLimit : UInt32 := 32
  packetThrottleCounter : UInt32 := 0
  packetThrottleEpoch : UInt32 := 0
  packetThrottleAcceleration : UInt32 := 2
  packetThrottleDeceleration : UInt32 := 2
  packetThrottleInterval : UInt32 := 5000
  lastRoundTripTime : UInt32 := 500
  lowestRoundTripTime : UInt32 := 500
  lastRoundTripTimeVariance : UInt32 := 0
  highestRoundTripTimeVariance : UInt32 := 0
  roundTripTime : UInt32 := 500
  roundTripTimeVariance : UInt32 := 0
  deriving DecidableEq, Repr

/-- What a peer keeps for the packets it receives, and how many incoming commands have been
allocated for it. -/
structure IncomingPeer where
  acknowledgements : List ENetAcknowledgement := []
  dispatchedCommands : List ENetIncomingCommand := []
  needsDispatch : Bool := false
  incomingUnsequencedGroup : Nat := 0
  unsequencedWindow : List Bool := List.replicate ENET_PEER_UNSEQUENCED_WINDOW_SIZE false
  totalWaitingData : Nat := 0
  allocated : Nat := 0
  deriving DecidableEq, Repr

/-- `ENetPeer`, by direction; `channelCount` is the number of channels. -/
structure ENetPeer extends OutgoingPeer, IncomingPeer where
  state : ENetPeerState := .connected
  channels : List ENetChannel := []
  deriving DecidableEq, Repr

/-- What the functions read of `ENetHost`. -/
structure ENetHost where
  serviceTime : UInt32 := 0
  usingNewPacket : Bool := false
  checksum : Bool := true
  outgoingBandwidth : UInt32 := 0
  maximumPacketSize : Nat := 32 * 1024 * 1024
  maximumWaitingData : Nat := 32 * 1024 * 1024
  deriving DecidableEq, Repr

namespace ENetPeer

/-- `peer->channels[channelID]` -/
def channel (peer : ENetPeer) (channelID : Nat) : ENetChannel := peer.channels.getD channelID {}

def setChannel (peer : ENetPeer) (channelID : Nat) (channel : ENetChannel) : ENetPeer :=
  { peer with channels := peer.channels.set channelID channel }

/-- The connection is up, also while it waits for its last packets to leave. -/
def isUp (peer : ENetPeer) : Bool := peer.state = .connected ∨ peer.state = .disconnectLater

end ENetPeer

/-! ## Packets on their way out -/

/-- The number a command of the acknowledged kind gets on its channel. -/
def nextSequenceNumber (number : Nat) : Nat := (number + 1) % 2 ^ 16

/-- The fields of the body that are filled in once the numbers are known. -/
def ENetProtocolBody.numbered (unreliableSequenceNumber unsequencedGroup : Nat) :
    ENetProtocolBody → ENetProtocolBody
  | .sendUnreliable _ dataLength => .sendUnreliable unreliableSequenceNumber dataLength
  | .sendUnsequenced _ dataLength => .sendUnsequenced unsequencedGroup dataLength
  | body => body

/-- The command with its numbers, as it is queued. -/
def ENetOutgoingOrder.numbered (order : ENetOutgoingOrder)
    (reliableSequenceNumber unreliableSequenceNumber unsequencedGroup : Nat) :
    ENetOutgoingCommand :=
  { order with
    reliableSequenceNumber := reliableSequenceNumber
    unreliableSequenceNumber := unreliableSequenceNumber
    command := { order.command with
      reliableSequenceNumber := reliableSequenceNumber
      body := order.command.body.numbered unreliableSequenceNumber unsequencedGroup } }

/-- `enet_peer_setup_outgoing_command` -/
def enetPeerSetupOutgoingCommand (peer : ENetPeer) (order : ENetOutgoingOrder) : ENetPeer :=
  let channelID := order.command.channelID
  let channel := peer.channel channelID
  if channelID = 0xFF then
    let number := nextSequenceNumber peer.outgoingReliableSequenceNumber
    let peer := { peer with outgoingReliableSequenceNumber := number }
    enqueue peer (order.numbered number 0 peer.outgoingUnsequencedGroup)
  else if order.command.flagAcknowledge then
    let number := nextSequenceNumber channel.outgoingReliableSequenceNumber
    let peer := peer.setChannel channelID { channel with
      outgoingReliableSequenceNumber := number
      outgoingUnreliableSequenceNumber := 0 }
    enqueue peer (order.numbered number 0 peer.outgoingUnsequencedGroup)
  else if order.command.flagUnsequenced then
    let group := nextSequenceNumber peer.outgoingUnsequencedGroup
    let peer := { peer with outgoingUnsequencedGroup := group }
    enqueue peer (order.numbered 0 0 group)
  else
    let number := if order.fragmentOffset = 0
      then nextSequenceNumber channel.outgoingUnreliableSequenceNumber
      else channel.outgoingUnreliableSequenceNumber
    let peer := peer.setChannel channelID { channel with
      outgoingUnreliableSequenceNumber := number }
    enqueue peer (order.numbered channel.outgoingReliableSequenceNumber number
      peer.outgoingUnsequencedGroup)
where
  enqueue (peer : ENetPeer) (outgoing : ENetOutgoingCommand) : ENetPeer :=
    if outgoing.command.flagAcknowledge then
      { peer with outgoingReliableCommands := peer.outgoingReliableCommands ++ [outgoing] }
    else { peer with outgoingUnreliableCommands := peer.outgoingUnreliableCommands ++ [outgoing] }

/-- `enet_peer_queue_outgoing_command`; without memory nothing is queued. -/
def enetPeerQueueOutgoingCommand (peer : ENetPeer) (command : ENetProtocol)
    (packet : Option ENetPacket) (offset length : Nat) (allocates : Bool) : Option ENetPeer :=
  if allocates then
    some (enetPeerSetupOutgoingCommand peer {
      command := command
      packet := packet
      fragmentOffset := offset
      fragmentLength := length })
  else none

/-- `fragmentLength` at the start of `enet_peer_send`: what the headers leave of a datagram. -/
def fragmentLimit (host : ENetHost) (peer : ENetPeer) : Nat :=
  let room := subSize (subSize peer.mtu (if host.usingNewPacket then 10 else 4)) 24
  if host.checksum then subSize room 4 else room

/-- The loop of `enet_peer_send` over a packet of `total` bytes: offset and length of each
fragment. It runs once for every fragment, so `total` rounds are enough. The 32 bits of the offset
hold every packet below 4 GiB; one above, up to terabytes, has more fragments than are let
through. -/
def fragmentLoop (total : Nat) : Nat → Nat → Nat → List (Nat × Nat)
  | 0, _, _ => []
  | rounds + 1, fragmentOffset, fragmentLength =>
      if fragmentOffset < total then
        let fragmentLength :=
          if total - fragmentOffset < fragmentLength then total - fragmentOffset
          else fragmentLength
        (fragmentOffset, fragmentLength) ::
          fragmentLoop total rounds (fragmentOffset + fragmentLength) fragmentLength
      else []

/-- The order for one fragment of `enet_peer_send`. -/
def fragmentOrder (channelID : Nat) (packet : ENetPacket) (reliably : Bool)
    (startSequenceNumber fragmentCount fragmentNumber fragmentOffset fragmentLength : Nat) :
    ENetOutgoingOrder :=
  let fragment : ENetProtocolSendFragment := {
    startSequenceNumber := startSequenceNumber
    dataLength := fragmentLength % 2 ^ 16
    fragmentCount := fragmentCount
    fragmentNumber := fragmentNumber
    totalLength := packet.data.length
    fragmentOffset := fragmentOffset }
  { command := {
      channelID := channelID
      flagAcknowledge := reliably
      body := if reliably then .sendFragment fragment else .sendUnreliableFragment fragment }
    packet := some packet
    fragmentOffset := fragmentOffset
    fragmentLength := fragmentLength % 2 ^ 16 }

/-- `enet_peer_send` splits the packet. -/
def isFragmented (host : ENetHost) (peer : ENetPeer) (packet : ENetPacket) : Bool :=
  fragmentLimit host peer < packet.data.length

/-- The packet goes out as commands that are acknowledged. -/
def goesReliably (host : ENetHost) (peer : ENetPeer) (channelID : Nat) (packet : ENetPacket) :
    Bool :=
  let exhausted := 0xFFFF ≤ (peer.channel channelID).outgoingUnreliableSequenceNumber
  if isFragmented host peer packet then packet.reliable ∨ ¬ packet.unreliableFragment ∨ exhausted
  else (packet.reliable ∨ ¬ packet.unsequenced) ∧ (packet.reliable ∨ exhausted)

/-- `fragmentCount` in `enet_peer_send` -/
def fragmentCount (host : ENetHost) (peer : ENetPeer) (packet : ENetPacket) : Nat :=
  (packet.data.length + fragmentLimit host peer - 1) / fragmentLimit host peer % 2 ^ 32

/-- The commands `enet_peer_send` makes of a packet that it splits. -/
def fragmentOrders (host : ENetHost) (peer : ENetPeer) (channelID : Nat) (packet : ENetPacket) :
    List ENetOutgoingOrder :=
  let channel := peer.channel channelID
  let reliably := goesReliably host peer channelID packet
  let startSequenceNumber := nextSequenceNumber (if reliably
    then channel.outgoingReliableSequenceNumber else channel.outgoingUnreliableSequenceNumber)
  let dataLength := packet.data.length
  (fragmentLoop dataLength dataLength 0 (fragmentLimit host peer)).mapIdx
    fun fragmentNumber piece =>
      fragmentOrder channelID packet reliably startSequenceNumber (fragmentCount host peer packet)
        fragmentNumber piece.1 piece.2

/-- `enet_peer_send` -/
def enetPeerSend (host : ENetHost) (peer : ENetPeer) (channelID : Nat) (packet : ENetPacket)
    (allocates : Bool) : ENetPeer × Int :=
  let channel := peer.channel channelID
  let dataLength := packet.data.length
  if peer.state ≠ .connected ∨ peer.channels.length ≤ channelID ∨
      host.maximumPacketSize < dataLength then (peer, -1)
  else if isFragmented host peer packet then
    if ENET_PROTOCOL_MAXIMUM_FRAGMENT_COUNT < fragmentCount host peer packet then (peer, -1)
    else if ¬ allocates then (peer, -1)
    else
      ((fragmentOrders host peer channelID packet).foldl enetPeerSetupOutgoingCommand peer, 0)
  else
    let command : ENetProtocol :=
      if ¬ packet.reliable ∧ packet.unsequenced then {
        channelID := channelID
        flagUnsequenced := true
        body := .sendUnsequenced 0 (dataLength % 2 ^ 16) }
      else if packet.reliable ∨ 0xFFFF ≤ channel.outgoingUnreliableSequenceNumber then {
        channelID := channelID
        flagAcknowledge := true
        body := .sendReliable (dataLength % 2 ^ 16) }
      else {
        channelID := channelID
        body := .sendUnreliable 0 (dataLength % 2 ^ 16) }
    match enetPeerQueueOutgoingCommand peer command (some packet) 0 (dataLength % 2 ^ 16)
      allocates with
    | none => (peer, -1)
    | some peer => (peer, 0)

/-- `enet_peer_ping` -/
def enetPeerPing (peer : ENetPeer) (allocates : Bool) : ENetPeer :=
  if peer.state ≠ .connected then peer
  else
    (enetPeerQueueOutgoingCommand peer { channelID := 0xFF, flagAcknowledge := true, body := .ping }
      none 0 0 allocates).getD peer

/-! ## Packets on their way in -/

/-- Distance in windows, as `enet_peer_queue_incoming_command` computes it; a number below the
incoming one counts as wrapped. -/
def reliableWindow (channel : IncomingChannel) (number : Nat) : Nat :=
  if number < channel.incomingReliableSequenceNumber
  then number / ENET_PEER_RELIABLE_WINDOW_SIZE + ENET_PEER_RELIABLE_WINDOWS
  else number / ENET_PEER_RELIABLE_WINDOW_SIZE

def currentWindow (channel : IncomingChannel) : Nat :=
  channel.incomingReliableSequenceNumber / ENET_PEER_RELIABLE_WINDOW_SIZE

/-- The number belongs to a window the channel receives in. -/
def inWindow (channel : IncomingChannel) (number : Nat) : Bool :=
  currentWindow channel ≤ reliableWindow channel number ∧
    reliableWindow channel number < currentWindow channel + ENET_PEER_FREE_RELIABLE_WINDOWS - 1

/-- `enet_peer_queue_acknowledgement` -/
def enetPeerQueueAcknowledgement (peer : ENetPeer) (command : ENetProtocol) (sentTime : Nat)
    (allocates : Bool) : ENetPeer :=
  let channel := (peer.channel command.channelID).toIncomingChannel
  let window := reliableWindow channel command.reliableSequenceNumber
  if command.channelID < peer.channels.length ∧
      currentWindow channel + ENET_PEER_FREE_RELIABLE_WINDOWS - 1 ≤ window ∧
      window ≤ currentWindow channel + ENET_PEER_FREE_RELIABLE_WINDOWS then peer
  else if allocates then
    { peer with acknowledgements := peer.acknowledgements ++
        [{ sentTime := sentTime, command := command }] }
  else peer

/-- What the unreliable dispatch loop carries: the commands it has passed and left in the list,
the run of commands to hand over, where the commands to drop end, and the results so far. -/
structure UnreliableDispatch where
  passed : List ENetIncomingCommand := []
  ready : List ENetIncomingCommand := []
  dropped : Nat := 0
  dispatched : List ENetIncomingCommand := []
  incomingUnreliableSequenceNumber : Nat
  deriving DecidableEq, Repr

/-- Hand over the current run of commands and mark the end of those to drop. -/
def UnreliableDispatch.flush (loop : UnreliableDispatch) : UnreliableDispatch :=
  if loop.ready = [] then loop
  else { loop with
    ready := []
    dropped := loop.passed.length
    dispatched := loop.dispatched ++ loop.ready }

/-- The loop of `enet_peer_dispatch_incoming_unreliable_commands`: what to dispatch, what stays
queued and the last unreliable number. -/
def dispatchUnreliableLoop (channel : IncomingChannel) :
    List ENetIncomingCommand → UnreliableDispatch → UnreliableDispatch × List ENetIncomingCommand
  | [], loop => (loop.flush, [])
  | incoming :: rest, loop =>
      match incoming.command.body with
      | .sendUnsequenced _ _ =>
          dispatchUnreliableLoop channel rest { loop with ready := loop.ready ++ [incoming] }
      | _ =>
          if incoming.reliableSequenceNumber = channel.incomingReliableSequenceNumber then
            if incoming.fragmentsRemaining = 0 then
              dispatchUnreliableLoop channel rest { loop with
                ready := loop.ready ++ [incoming]
                incomingUnreliableSequenceNumber := incoming.unreliableSequenceNumber }
            else
              -- an unfinished packet: what stands before the previous one is dropped
              let dropped := if loop.ready = [] ∧ loop.dropped ≠ loop.passed.length
                then loop.passed.length - 1 else loop.flush.dropped
              dispatchUnreliableLoop channel rest { loop.flush with
                passed := loop.passed ++ [incoming]
                dropped := dropped }
          else if inWindow channel incoming.reliableSequenceNumber then
            (loop.flush, incoming :: rest)
          else
            dispatchUnreliableLoop channel rest { loop.flush with
              passed := loop.passed ++ [incoming]
              dropped := loop.passed.length + 1 }

/-- `enet_peer_dispatch_incoming_unreliable_commands` -/
def enetPeerDispatchIncomingUnreliableCommands (peer : ENetPeer) (channelID : Nat) : ENetPeer :=
  let channel := peer.channel channelID
  let (loop, rest) := dispatchUnreliableLoop channel.toIncomingChannel
    channel.incomingUnreliableCommands
    { incomingUnreliableSequenceNumber := channel.incomingUnreliableSequenceNumber }
  { peer.setChannel channelID { channel with
      incomingUnreliableSequenceNumber := loop.incomingUnreliableSequenceNumber
      incomingUnreliableCommands := (loop.passed ++ rest).drop loop.dropped } with
    dispatchedCommands := peer.dispatchedCommands ++ loop.dispatched
    needsDispatch := peer.needsDispatch || !loop.dispatched.isEmpty }

/-- The loop of `enet_peer_dispatch_incoming_reliable_commands`: the commands that are next in
turn and complete, those that stay, and the number of the last one in turn. -/
def dispatchReliableLoop (incomingReliableSequenceNumber : Nat) :
    List ENetIncomingCommand → List ENetIncomingCommand × List ENetIncomingCommand × Nat
  | [] => ([], [], incomingReliableSequenceNumber)
  | incoming :: rest =>
      if 0 < incoming.fragmentsRemaining ∨
          incoming.reliableSequenceNumber ≠ nextSequenceNumber incomingReliableSequenceNumber then
        ([], incoming :: rest, incomingReliableSequenceNumber)
      else
        let number := if 0 < incoming.fragmentCount
          then (incoming.reliableSequenceNumber + (incoming.fragmentCount - 1)) % 2 ^ 16
          else incoming.reliableSequenceNumber
        let (dispatched, kept, number) := dispatchReliableLoop number rest
        (incoming :: dispatched, kept, number)

/-- `enet_peer_dispatch_incoming_reliable_commands` -/
def enetPeerDispatchIncomingReliableCommands (peer : ENetPeer) (channelID : Nat) : ENetPeer :=
  let channel := peer.channel channelID
  let (dispatched, kept, number) := dispatchReliableLoop channel.incomingReliableSequenceNumber
    channel.incomingReliableCommands
  if dispatched = [] then peer
  else
    let peer := { peer.setChannel channelID { channel with
        incomingReliableSequenceNumber := number
        incomingUnreliableSequenceNumber := 0
        incomingReliableCommands := kept } with
      dispatchedCommands := peer.dispatchedCommands ++ dispatched
      needsDispatch := true }
    if channel.incomingUnreliableCommands = [] then peer
    else enetPeerDispatchIncomingUnreliableCommands peer channelID

/-- The search of `enet_peer_queue_incoming_command` through the reliable queue, given last
command first: how many commands the new one goes before, nothing for a duplicate. -/
def reliablePlace (incomingReliableSequenceNumber number : Nat) :
    List ENetIncomingCommand → Option Nat
  | [] => some 0
  | incoming :: earlier =>
      if incomingReliableSequenceNumber ≤ number ∧
          incoming.reliableSequenceNumber < incomingReliableSequenceNumber then
        (reliablePlace incomingReliableSequenceNumber number earlier).map (· + 1)
      else if number < incomingReliableSequenceNumber ∧
          incomingReliableSequenceNumber ≤ incoming.reliableSequenceNumber then some 0
      else if incoming.reliableSequenceNumber < number then some 0
      else if incoming.reliableSequenceNumber = number then none
      else (reliablePlace incomingReliableSequenceNumber number earlier).map (· + 1)

/-- The same search through the unreliable queue. -/
def unreliablePlace (incomingReliableSequenceNumber reliable unreliable : Nat) :
    List ENetIncomingCommand → Option Nat
  | [] => some 0
  | incoming :: earlier =>
      let further := (unreliablePlace incomingReliableSequenceNumber reliable unreliable
        earlier).map (· + 1)
      if incomingReliableSequenceNumber ≤ reliable ∧
          incoming.reliableSequenceNumber < incomingReliableSequenceNumber then further
      else if reliable < incomingReliableSequenceNumber ∧
          incomingReliableSequenceNumber ≤ incoming.reliableSequenceNumber then some 0
      else if incoming.reliableSequenceNumber < reliable then some 0
      else if reliable < incoming.reliableSequenceNumber then further
      else if incoming.unreliableSequenceNumber < unreliable then some 0
      else if incoming.unreliableSequenceNumber = unreliable then none
      else further

/-- `enet_list_insert (enet_list_next (currentCommand), incomingCommand)`, where the search has
passed the last `place` commands. -/
def insertFromEnd (queue : List ENetIncomingCommand) (place : Nat)
    (incoming : ENetIncomingCommand) : List ENetIncomingCommand :=
  queue.take (queue.length - place) ++ incoming :: queue.drop (queue.length - place)

/-- What `enet_peer_queue_incoming_command` returns: the queued command, by its address, its dummy
for a command that is not needed, or null. -/
inductive Queued where
  | queued (peer : ENetPeer) (address : Nat)
  | discarded
  | failed
  deriving DecidableEq, Repr

/-- Where a command goes, if it is one to queue and needed. -/
def incomingPlace (channel : IncomingChannel) (command : ENetProtocol) : Option Nat :=
  match command.body with
  | .sendFragment _ | .sendReliable _ =>
      if command.reliableSequenceNumber = channel.incomingReliableSequenceNumber then none
      else reliablePlace channel.incomingReliableSequenceNumber command.reliableSequenceNumber
        channel.incomingReliableCommands.reverse
  | .sendUnreliable unreliable _ | .sendUnreliableFragment { startSequenceNumber := unreliable, .. } =>
      if command.reliableSequenceNumber = channel.incomingReliableSequenceNumber ∧
          unreliable ≤ channel.incomingUnreliableSequenceNumber then none
      else unreliablePlace channel.incomingReliableSequenceNumber command.reliableSequenceNumber
        unreliable channel.incomingUnreliableCommands.reverse
  -- the end of a circular list: the command goes to its front
  | .sendUnsequenced _ _ => some channel.incomingUnreliableCommands.length
  | _ => none

/-- The first two bytes behind the header, as `sendUnreliable.unreliableSequenceNumber`; the
other kinds are queued with zero. -/
def ENetProtocolBody.unreliableSequenceNumber : ENetProtocolBody → Nat
  | .sendUnreliable number _ => number
  | .sendUnreliableFragment fragment => fragment.startSequenceNumber
  | _ => 0

def ENetProtocolBody.isReliable : ENetProtocolBody → Bool
  | .sendFragment _ | .sendReliable _ => true
  | _ => false

def ENetProtocolBody.isUnsequenced : ENetProtocolBody → Bool
  | .sendUnsequenced _ _ => true
  | _ => false

/-- The command `enet_peer_queue_incoming_command` queues. -/
def ENetIncomingCommand.start (address : Nat) (command : ENetProtocol) (packet : ENetPacket)
    (fragmentCount : Nat) : ENetIncomingCommand where
  address := address
  reliableSequenceNumber := command.reliableSequenceNumber
  unreliableSequenceNumber := command.body.unreliableSequenceNumber % 2 ^ 16
  command := command
  fragmentCount := fragmentCount
  fragmentsRemaining := fragmentCount
  fragments := List.replicate fragmentCount false
  packet := packet

/-- `enet_peer_queue_incoming_command`; `packet` is what `enet_packet_create` makes. -/
def enetPeerQueueIncomingCommand (host : ENetHost) (peer : ENetPeer) (command : ENetProtocol)
    (packet : ENetPacket) (fragmentCount : Nat) (allocates : Bool) : Queued :=
  let channel := peer.channel command.channelID
  let discard : Queued := if 0 < fragmentCount then .failed else .discarded
  if peer.state = .disconnectLater then discard
  else if ¬ command.body.isUnsequenced ∧
      ¬ inWindow channel.toIncomingChannel command.reliableSequenceNumber then discard
  else
    match incomingPlace channel.toIncomingChannel command with
    | none => discard
    | some place =>
        if host.maximumWaitingData ≤ peer.totalWaitingData ∨ ¬ allocates ∨
            ENET_PROTOCOL_MAXIMUM_FRAGMENT_COUNT < fragmentCount then .failed
        else
          let incoming :=
            ENetIncomingCommand.start peer.allocated command packet fragmentCount
          let peer := { peer with
            totalWaitingData := peer.totalWaitingData + packet.data.length
            allocated := peer.allocated + 1 }
          if command.body.isReliable then
            .queued (enetPeerDispatchIncomingReliableCommands
              (peer.setChannel command.channelID { channel with
                incomingReliableCommands :=
                  insertFromEnd channel.incomingReliableCommands place incoming })
              command.channelID) incoming.address
          else
            .queued (enetPeerDispatchIncomingUnreliableCommands
              (peer.setChannel command.channelID { channel with
                incomingUnreliableCommands :=
                  insertFromEnd channel.incomingUnreliableCommands place incoming })
              command.channelID) incoming.address

/-- `enet_peer_receive`: the next dispatched packet and its channel. -/
def enetPeerReceive (peer : ENetPeer) : Option (ENetPacket × Nat × ENetPeer) :=
  match peer.dispatchedCommands with
  | [] => none
  | incoming :: rest =>
      some (incoming.packet, incoming.command.channelID, { peer with
        dispatchedCommands := rest
        totalWaitingData := peer.totalWaitingData - incoming.packet.data.length })

/-! ## Settings -/

/-- `enet_peer_throttle_configure` -/
def enetPeerThrottleConfigure (peer : ENetPeer) (interval acceleration deceleration : UInt32)
    (allocates : Bool) : ENetPeer :=
  let peer := { peer with
    packetThrottleInterval := interval
    packetThrottleAcceleration := acceleration
    packetThrottleDeceleration := deceleration }
  (enetPeerQueueOutgoingCommand peer {
    channelID := 0xFF
    flagAcknowledge := true
    body := .throttleConfigure interval acceleration deceleration } none 0 0 allocates).getD peer

/-- `enet_peer_ping_interval` -/
def enetPeerPingInterval (peer : ENetPeer) (pingInterval : UInt32) : ENetPeer :=
  { peer with
    pingInterval := if pingInterval = 0 then ENET_PEER_PING_INTERVAL else pingInterval }

/-- `enet_peer_timeout` -/
def enetPeerTimeout (peer : ENetPeer) (timeoutLimit timeoutMinimum timeoutMaximum : UInt32) :
    ENetPeer :=
  { peer with
    timeoutLimit := if timeoutLimit = 0 then ENET_PEER_TIMEOUT_LIMIT else timeoutLimit
    timeoutMinimum := if timeoutMinimum = 0 then ENET_PEER_TIMEOUT_MINIMUM else timeoutMinimum
    timeoutMaximum := if timeoutMaximum = 0 then ENET_PEER_TIMEOUT_MAXIMUM else timeoutMaximum }

/-! ## The throttle -/

/-- `enet_peer_throttle` -/
def enetPeerThrottle (peer : ENetPeer) (rtt : UInt32) : ENetPeer × Int :=
  if peer.lastRoundTripTime ≤ peer.lastRoundTripTimeVariance then
    ({ peer with packetThrottle := peer.packetThrottleLimit }, 0)
  else if rtt < peer.lastRoundTripTime then
    let raised := peer.packetThrottle + peer.packetThrottleAcceleration
    ({ peer with packetThrottle :=
        if peer.packetThrottleLimit < raised then peer.packetThrottleLimit else raised }, 1)
  else if peer.lastRoundTripTime + 2 * peer.lastRoundTripTimeVariance < rtt then
    ({ peer with packetThrottle :=
        if peer.packetThrottleDeceleration < peer.packetThrottle
        then peer.packetThrottle - peer.packetThrottleDeceleration else 0 }, -1)
  else (peer, 0)

/-- The throttle gets a new limit. -/
def ENetPeer.limitThrottle (peer : ENetPeer) (limit : UInt32) : ENetPeer :=
  { peer with
    packetThrottleLimit := limit
    packetThrottle := if limit < peer.packetThrottle then limit else peer.packetThrottle }

/-- What `enet_host_bandwidth_throttle` does to a peer. The limit it works out from the traffic of
all peers and the bandwidth it leaves to the peer are given, where it comes to them. -/
def enetHostBandwidthThrottle (host : ENetHost) (peer : ENetPeer)
    (packetThrottleLimit incomingBandwidth : Option UInt32) (allocates : Bool) : ENetPeer :=
  if ¬ peer.isUp then peer
  else
    let peer := packetThrottleLimit.elim peer peer.limitThrottle
    incomingBandwidth.elim peer fun bandwidth =>
      (enetPeerQueueOutgoingCommand peer {
        channelID := 0xFF
        flagAcknowledge := true
        body := .bandwidthLimit bandwidth host.outgoingBandwidth } none 0 0 allocates).getD peer

end SrmotionProxy.ENet.Protocol
