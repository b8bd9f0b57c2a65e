/-
# Queueing commands

Everything a program does with a connected peer, short of letting the host send, at most puts
commands at the end of the queue. Those of a channel get the next sequence numbers of the
channel, one after the other, and carry packets; nothing that is counted changes.
-/

import SrmotionProxy.ENet.Windows

namespace SrmotionProxy.ENet.Protocol

open SrmotionProxy.Lib

/-- Commands that a step puts at the end of the queue. -/
structure Added (before after : ENetPeer) (added : List ENetOutgoingCommand) : Prop where
  queue : after.outgoingReliableCommands = before.outgoingReliableCommands ++ added
  idle : ∀ outgoing ∈ added, outgoing.sendAttempts = 0
  numbered : ∀ outgoing ∈ added, outgoing.reliableSequenceNumber < 2 ^ 16
  packets : ∀ outgoing ∈ added, outgoing.command.channelID < before.channels.length →
    outgoing.packet.isSome
  inTurn : ∀ channelID < before.channels.length,
    Sequence.Follows (2 ^ 16) (before.channel channelID).outgoingReliableSequenceNumber
      (waiting channelID added) (after.channel channelID).outgoingReliableSequenceNumber

/-- A step that only queues commands to be sent. -/
structure Queues (before after : ENetPeer) : Prop where
  length : after.channels.length = before.channels.length
  windows : ∀ channelID,
    (after.channel channelID).reliableWindows = (before.channel channelID).reliableWindows
  used : ∀ channelID,
    (after.channel channelID).usedReliableWindows = (before.channel channelID).usedReliableWindows
  sent : after.sentReliableCommands = before.sentReliableCommands
  added : ∃ added, Added before after added

variable {peer before middle after : ENetPeer} {host : ENetHost}
  {outgoing : ENetOutgoingCommand} {channelID : Nat}

theorem Queues.of_same (hsame : SameOutbound before after) : Queues before after := by
  refine ⟨hsame.length, fun channelID => by rw [hsame.channel], fun channelID => by
    rw [hsame.channel], hsame.sent, [], ?_, by simp, by simp, by simp, fun channelID _ => ?_⟩
  · rw [hsame.queued, List.append_nil]
  · rw [hsame.channel]
    rfl

theorem Queues.refl (peer : ENetPeer) : Queues peer peer :=
  .of_same (.refl peer)

theorem Queues.trans (hfirst : Queues before middle) (hsecond : Queues middle after) :
    Queues before after := by
  obtain ⟨earlier, hearlier⟩ := hfirst.added
  obtain ⟨later, hlater⟩ := hsecond.added
  refine ⟨hsecond.length.trans hfirst.length,
    fun channelID => (hsecond.windows channelID).trans (hfirst.windows channelID),
    fun channelID => (hsecond.used channelID).trans (hfirst.used channelID),
    hsecond.sent.trans hfirst.sent, earlier ++ later, ?_,
    List.forall_mem_append.mpr ⟨hearlier.idle, hlater.idle⟩,
    List.forall_mem_append.mpr ⟨hearlier.numbered, hlater.numbered⟩,
    List.forall_mem_append.mpr ⟨hearlier.packets, ?_⟩, fun channelID hknown => ?_⟩
  · rw [hlater.queue, hearlier.queue, List.append_assoc]
  · rw [← hfirst.length]
    exact hlater.packets
  · rw [waiting_append]
    exact (hearlier.inTurn channelID hknown).append
      (hlater.inTurn channelID (hknown.trans_eq hfirst.length.symm))

/-- What only joins the queue is not on its way, and waits behind what waited before. -/
theorem ENetPeer.Accounted.queues (haccounted : before.Accounted before.outgoingReliableCommands)
    (hqueues : Queues before after) : after.Accounted after.outgoingReliableCommands := by
  obtain ⟨added, hadded⟩ := hqueues.added
  have hidle (outgoing : ENetOutgoingCommand) (hin : outgoing ∈ added) : ¬ outgoing.attempted :=
    not_attempted (hadded.idle outgoing hin)
  have hflying (channelID : Nat) :
      flying channelID (after.sentReliableCommands ++ after.outgoingReliableCommands) =
        flying channelID (before.sentReliableCommands ++ before.outgoingReliableCommands) := by
    rw [hqueues.sent, hadded.queue, ← List.append_assoc, flying_append, flying_of_idle hidle,
      List.append_nil]
  refine ⟨hqueues.length.trans_le haccounted.count, ?_, ?_, ?_, fun channelID hknown => ?_,
    fun channelID hknown => ?_⟩
  · rw [hqueues.sent]
    exact haccounted.attempted
  · rw [hqueues.sent, hadded.queue, ← List.append_assoc]
    exact List.forall_mem_append.mpr ⟨haccounted.numbered, hadded.numbered⟩
  · rw [hqueues.sent, hadded.queue, ← List.append_assoc, hqueues.length]
    exact List.forall_mem_append.mpr ⟨haccounted.packets, hadded.packets⟩
  · have hbefore := haccounted.counts channelID (hknown.trans_eq hqueues.length)
    rw [hflying]
    exact ⟨(congrArg List.length (hqueues.windows channelID)).trans hbefore.size,
      fun window => by rw [hqueues.windows]; exact hbefore.windows window,
      fun window => by rw [hqueues.used]; exact hbefore.used window⟩
  · obtain ⟨last, hlast, hfollows, hwindows⟩ :=
      haccounted.numbers channelID (hknown.trans_eq hqueues.length)
    rw [hflying, hadded.queue, waiting_append]
    exact ⟨last, hlast,
      hfollows.append (hadded.inTurn channelID (hknown.trans_eq hqueues.length)), hwindows⟩

/-! ## One command -/

theorem nextSequenceNumber_lt (number : Nat) : nextSequenceNumber number < 2 ^ 16 :=
  Nat.mod_lt _ (by decide)

section

variable (hlength : after.channels.length = peer.channels.length)
  (hwindows : ∀ channelID,
    (after.channel channelID).reliableWindows = (peer.channel channelID).reliableWindows)
  (hused : ∀ channelID,
    (after.channel channelID).usedReliableWindows = (peer.channel channelID).usedReliableWindows)
  (hsent : after.sentReliableCommands = peer.sentReliableCommands)
  (hqueued : after.outgoingReliableCommands = peer.outgoingReliableCommands)

include hlength hwindows hused hsent hqueued

/-- A command that is to be acknowledged joins the queue. -/
theorem queues_acknowledged (hidle : outgoing.sendAttempts = 0)
    (hnumber : outgoing.reliableSequenceNumber < 2 ^ 16)
    (hpacket : outgoing.command.channelID < peer.channels.length → outgoing.packet.isSome)
    (hinTurn : ∀ channelID < peer.channels.length,
      Sequence.Follows (2 ^ 16) (peer.channel channelID).outgoingReliableSequenceNumber
        (waiting channelID [outgoing]) (after.channel channelID).outgoingReliableSequenceNumber)
    (hflag : outgoing.command.flagAcknowledge) :
    Queues peer (enetPeerSetupOutgoingCommand.enqueue after outgoing) := by
  rw [enetPeerSetupOutgoingCommand.enqueue, if_pos hflag]
  exact ⟨hlength, hwindows, hused, hsent, [outgoing], by rw [hqueued],
    List.forall_mem_singleton.mpr hidle, List.forall_mem_singleton.mpr hnumber,
    List.forall_mem_singleton.mpr hpacket, hinTurn⟩

/-- A command that nobody acknowledges joins the other queue. -/
theorem queues_unacknowledged
    (hnumbers : ∀ channelID, (after.channel channelID).outgoingReliableSequenceNumber =
      (peer.channel channelID).outgoingReliableSequenceNumber)
    (hflag : ¬ outgoing.command.flagAcknowledge) :
    Queues peer (enetPeerSetupOutgoingCommand.enqueue after outgoing) := by
  rw [enetPeerSetupOutgoingCommand.enqueue, if_neg hflag]
  refine ⟨hlength, hwindows, hused, hsent, [], ?_, by simp, by simp, by simp,
    fun channelID _ => (hnumbers channelID).symm⟩
  rw [List.append_nil]
  exact hqueued

end

theorem queues_setup {order : ENetOutgoingOrder} (hcount : peer.channels.length ≤ 255)
    (hpacket : order.command.channelID < peer.channels.length → order.packet.isSome) :
    Queues peer (enetPeerSetupOutgoingCommand peer order) := by
  unfold enetPeerSetupOutgoingCommand
  dsimp only
  split
  · next hhost =>
      -- the channel of the host itself has no counts
      by_cases hflag : order.command.flagAcknowledge
      · refine queues_acknowledged rfl (fun _ => rfl) (fun _ => rfl) rfl rfl rfl
          (nextSequenceNumber_lt _) hpacket (fun channelID hknown => ?_) hflag
        rw [waiting_cons_of_not fun hwaits => by
          have hown := hhost.symm.trans (of_decide_eq_true hwaits).1
          omega]
        rfl
      · exact queues_unacknowledged rfl (fun _ => rfl) (fun _ => rfl) rfl rfl (fun _ => rfl) hflag
  · split
    · next hflag =>
        refine queues_acknowledged (length_setChannel ..) (field_setChannel (·.reliableWindows) rfl)
          (field_setChannel (·.usedReliableWindows) rfl) rfl rfl rfl (nextSequenceNumber_lt _)
          hpacket (fun channelID hknown => ?_) hflag
        rw [channel_setChannel]
        by_cases hhere : order.command.channelID = channelID
        · rw [if_pos ⟨hhere, hknown⟩,
            waiting_cons_of_waits (decide_eq_true ⟨hhere, not_attempted rfl⟩), ← hhere]
          exact .single _ _
        · rw [if_neg fun hboth => hhere hboth.1,
            waiting_cons_of_not fun hwaits => hhere (of_decide_eq_true hwaits).1]
          rfl
    · next hflag =>
        split
        · exact queues_unacknowledged rfl (fun _ => rfl) (fun _ => rfl) rfl rfl (fun _ => rfl) hflag
        · exact queues_unacknowledged (length_setChannel ..)
            (field_setChannel (·.reliableWindows) rfl)
            (field_setChannel (·.usedReliableWindows) rfl) rfl rfl
            (field_setChannel (·.outgoingReliableSequenceNumber) rfl) hflag

/-! ## What the program does -/

theorem queues_queueOutgoing {command : ENetProtocol} {packet : Option ENetPacket}
    (hcount : peer.channels.length ≤ 255)
    (hpacket : command.channelID < peer.channels.length → packet.isSome) (offset length : Nat)
    (allocates : Bool) :
    Queues peer ((enetPeerQueueOutgoingCommand peer command packet offset length
      allocates).getD peer) := by
  cases allocates with
  | false => exact .refl peer
  | true => exact queues_setup hcount hpacket

theorem queues_foldl_setup {orders : List ENetOutgoingOrder} (hcount : peer.channels.length ≤ 255)
    (hpackets : ∀ order ∈ orders, order.packet.isSome) :
    Queues peer (orders.foldl enetPeerSetupOutgoingCommand peer) := by
  induction orders generalizing peer with
  | nil => exact .refl peer
  | cons order orders ih =>
      obtain ⟨hpacket, hrest⟩ := List.forall_mem_cons.mp hpackets
      have hfirst := queues_setup hcount fun _ => hpacket
      exact hfirst.trans (ih (hfirst.length.trans_le hcount) hrest)

theorem queues_send (hcount : peer.channels.length ≤ 255) (channelID : Nat) (packet : ENetPacket)
    (allocates : Bool) : Queues peer (enetPeerSend host peer channelID packet allocates).1 := by
  unfold enetPeerSend
  dsimp only
  split
  · exact .refl peer
  · split
    · split
      · exact .refl peer
      · split
        · exact .refl peer
        · refine queues_foldl_setup hcount fun order horder => ?_
          obtain ⟨number, hnumber, rfl⟩ := List.mem_mapIdx.mp horder
          rfl
    · cases allocates with
      | false => exact .refl peer
      | true => exact queues_setup hcount fun _ => rfl

/-- A command on the channel of the host itself. -/
theorem queues_host (hcount : peer.channels.length ≤ 255) (body : ENetProtocolBody)
    (allocates : Bool) :
    Queues peer ((enetPeerQueueOutgoingCommand peer
      { channelID := 0xFF, flagAcknowledge := true, body := body } none 0 0
      allocates).getD peer) :=
  queues_queueOutgoing hcount (fun hknown => absurd hknown (by dsimp only; omega)) 0 0 allocates

theorem queues_ping (hcount : peer.channels.length ≤ 255) (allocates : Bool) :
    Queues peer (enetPeerPing peer allocates) := by
  unfold enetPeerPing
  split
  · exact .refl peer
  · exact queues_host hcount .ping allocates

theorem queues_throttleConfigure (hcount : peer.channels.length ≤ 255)
    (interval acceleration deceleration : UInt32) (allocates : Bool) : Queues peer
      (enetPeerThrottleConfigure peer interval acceleration deceleration allocates) := by
  refine .trans ?_ (queues_host ?_ _ allocates)
  · exact .of_same ⟨fun _ => rfl, rfl, rfl, rfl⟩
  · exact hcount

theorem queues_bandwidthThrottle (hcount : peer.channels.length ≤ 255)
    (limit bandwidth : Option UInt32) (allocates : Bool) :
    Queues peer (enetHostBandwidthThrottle host peer limit bandwidth allocates) := by
  unfold enetHostBandwidthThrottle
  split
  · exact .refl peer
  · have hlimit : SameOutbound peer (limit.elim peer peer.limitThrottle) := by
      cases limit with
      | none => exact .refl peer
      | some limit => exact ⟨fun _ => rfl, rfl, rfl, rfl⟩
    cases bandwidth with
    | none => exact .of_same hlimit
    | some bandwidth =>
        exact (Queues.of_same hlimit).trans
          (queues_host (hlimit.length.trans_le hcount) _ allocates)

end SrmotionProxy.ENet.Protocol
