/-
# The network library as the proxy uses it

Hosts and peers are handles; a trace records the library calls that matter for
their lifetime. Which hosts are alive is read off the trace, newest call first, so
a call on something already released is visible as such instead of being excluded
by construction. The result of `enet_peer_send` is computed from the state of the
peer, as in `enet/peer.c`.
-/

import SrmotionProxy.Lib.Text

namespace SrmotionProxy.ENet

open SrmotionProxy.Lib

/-! ## Handles and calls -/

/-- An `ENetHost*` other than null; every creation gives a new one. -/
abbrev Host := Nat

/-- An `ENetPeer*` other than null: a slot of the host that created it. -/
structure Peer where
  host : Host
  slot : Nat
  deriving DecidableEq, Repr

/-- Whose packet a send hands over: the one received in the current event, or one
the proxy has built. -/
inductive Source where
  | received
  | built
  deriving DecidableEq, Repr

/-- One entry of the trace. The last two entries mark calls of the proxy's own
methods: a redirect with the server and port it stored, and a `disconnect` with
`reset` set. -/
inductive Call where
  | hostCreate (host : Host) (client : Bool)
  | hostDestroy (host : Host)
  | hostConnect (host : Host) (address : Bytes) (port : Nat)
  | hostFlush (host : Host)
  | peerDisconnect (peer : Peer)
  | peerSend (peer : Peer) (source : Source) (data : Bytes) (code : Int)
  | packetDestroy
  | redirected (server : Bytes) (port : Int)
  | reset
  deriving DecidableEq, Repr

/-! ## Lifetimes -/

/-- The hosts that have been created and not destroyed. -/
def liveHosts : List Call → List Host
  | [] => []
  | .hostCreate host _ :: earlier => host :: liveHosts earlier
  | .hostDestroy host :: earlier => (liveHosts earlier).filter (· ≠ host)
  | _ :: earlier => liveHosts earlier

/-- The hosts created by `setup_client` that have not been destroyed. -/
def liveClients : List Call → List Host
  | [] => []
  | .hostCreate host true :: earlier => host :: liveClients earlier
  | .hostDestroy host :: earlier => (liveClients earlier).filter (· ≠ host)
  | _ :: earlier => liveClients earlier

/-- The call uses nothing but live objects. -/
def Call.Valid (live : List Host) : Call → Prop
  | .hostDestroy host | .hostConnect host _ _ | .hostFlush host => host ∈ live
  | .peerDisconnect peer | .peerSend peer _ _ _ => peer.host ∈ live
  | _ => True

instance (live : List Host) (call : Call) : Decidable (call.Valid live) := by
  unfold Call.Valid
  split <;> infer_instance

/-- Every call of the trace was made on objects that were alive at the time. -/
def ValidTrace : List Call → Prop
  | [] => True
  | call :: earlier => call.Valid (liveHosts earlier) ∧ ValidTrace earlier

/-! ## Sending -/

/-- What `enet_peer_send` looks at, and whether its allocations succeed. -/
structure PeerView where
  state : Nat := 5
  channelCount : Nat := 2
  mtu : Nat := 1400
  usingNewPacket : Bool := false
  checksum : Bool := true
  allocates : Bool := true
  deriving DecidableEq, Repr

def ENET_PEER_STATE_CONNECTED : Nat := 5

/-- `ENET_HOST_DEFAULT_MAXIMUM_PACKET_SIZE`; the proxy never changes it. -/
def maximumPacketSize : Nat := 32 * 1024 * 1024

def ENET_PROTOCOL_MAXIMUM_FRAGMENT_COUNT : Nat := 1024 * 1024

/-- `fragmentLength`: the headers are 10 or 4 bytes, the fragment command 24. -/
def fragmentLength (peer : PeerView) : Nat :=
  let headers := subSize (subSize peer.mtu (if peer.usingNewPacket then 10 else 4)) 24
  if peer.checksum then subSize headers 4 else headers

/-- The return value of `enet_peer_send(peer, channelID, packet)`. -/
def enetPeerSend (peer : PeerView) (channelID dataLength : Nat) : Int :=
  if peer.state ≠ ENET_PEER_STATE_CONNECTED ∨ peer.channelCount ≤ channelID ∨
      maximumPacketSize < dataLength then -1
  else if fragmentLength peer < dataLength ∧
      ENET_PROTOCOL_MAXIMUM_FRAGMENT_COUNT <
        (dataLength + fragmentLength peer - 1) / fragmentLength peer % 2 ^ 32 then -1
  else if peer.allocates then 0
  else -1

/-- The peer takes a packet of this length: it is connected and has the channel, the packet is
not too long and not cut into too many fragments, and there is memory for it. -/
def PeerView.Accepts (peer : PeerView) (channelID dataLength : Nat) : Prop :=
  peer.state = ENET_PEER_STATE_CONNECTED ∧ channelID < peer.channelCount ∧
    dataLength ≤ maximumPacketSize ∧
    (dataLength ≤ fragmentLength peer ∨
      (dataLength + fragmentLength peer - 1) / fragmentLength peer % 2 ^ 32 ≤
        ENET_PROTOCOL_MAXIMUM_FRAGMENT_COUNT) ∧
    peer.allocates = true

instance (peer : PeerView) (channelID dataLength : Nat) :
    Decidable (peer.Accepts channelID dataLength) :=
  inferInstanceAs (Decidable (_ ∧ _))

/-- A packet is refused exactly for these reasons. -/
theorem enetPeerSend_eq_zero_iff (peer : PeerView) (channelID dataLength : Nat) :
    enetPeerSend peer channelID dataLength = 0 ↔ peer.Accepts channelID dataLength := by
  unfold PeerView.Accepts
  unfold enetPeerSend
  by_cases hguard : peer.state ≠ ENET_PEER_STATE_CONNECTED ∨ peer.channelCount ≤ channelID ∨
      maximumPacketSize < dataLength
  · rw [if_pos hguard]
    refine ⟨fun h => absurd h (by decide), fun h => ?_⟩
    rcases hguard with hstate | hchannel | hlength
    · exact absurd h.1 hstate
    · exact absurd h.2.1 (by omega)
    · exact absurd h.2.2.1 (by omega)
  · rw [if_neg hguard]
    simp only [not_or, not_not, not_le, not_lt] at hguard
    obtain ⟨hstate, hchannel, hlength⟩ := hguard
    by_cases hfragments : fragmentLength peer < dataLength ∧
        ENET_PROTOCOL_MAXIMUM_FRAGMENT_COUNT <
          (dataLength + fragmentLength peer - 1) / fragmentLength peer % 2 ^ 32
    · rw [if_pos hfragments]
      refine ⟨fun h => absurd h (by decide), fun h => ?_⟩
      rcases h.2.2.2.1 with hshort | hcount
      · exact absurd hshort (by omega)
      · exact absurd hcount (by omega)
    · have hfits : dataLength ≤ fragmentLength peer ∨
          (dataLength + fragmentLength peer - 1) / fragmentLength peer % 2 ^ 32 ≤
            ENET_PROTOCOL_MAXIMUM_FRAGMENT_COUNT := by
        by_contra hnot
        simp only [not_or, not_le] at hnot
        exact hfragments hnot
      rw [if_neg hfragments]
      cases peer.allocates with
      | false => simp
      | true => exact ⟨fun _ => ⟨hstate, hchannel, hlength, hfits, rfl⟩, fun _ => rfl⟩

end SrmotionProxy.ENet
