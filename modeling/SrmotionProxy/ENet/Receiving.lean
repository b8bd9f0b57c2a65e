/-
# Receiving in turn

What the functions that handle arriving packets do to a peer. They leave the outbound side of
every channel alone, and on the inbound side they hand over complete reliable packets whose
numbers follow each other, whatever arrives and in whatever order.
-/

import SrmotionProxy.ENet.Sides

namespace SrmotionProxy.ENet.Protocol

open SrmotionProxy.Lib

/-! ## Packets in turn -/

/-- The last number a command takes up: a packet in fragments takes up one for each. -/
def ENetIncomingCommand.lastNumber (incoming : ENetIncomingCommand) : Nat :=
  if 0 < incoming.fragmentCount
  then (incoming.reliableSequenceNumber + (incoming.fragmentCount - 1)) % 2 ^ 16
  else incoming.reliableSequenceNumber

/-- Complete packets, each numbered right behind the one before it: the first follows `number`,
and the last one ends with `last`. -/
def InTurn : Nat → List ENetIncomingCommand → Nat → Prop
  | number, [], last => number = last
  | number, incoming :: rest, last =>
      incoming.fragmentsRemaining = 0 ∧
        incoming.reliableSequenceNumber = nextSequenceNumber number ∧
        InTurn incoming.lastNumber rest last

theorem InTurn.append {first middle last : Nat} {earlier later : List ENetIncomingCommand}
    (hearlier : InTurn first earlier middle) (hlater : InTurn middle later last) :
    InTurn first (earlier ++ later) last := by
  induction earlier generalizing first with
  | nil =>
      cases hearlier
      exact hlater
  | cons incoming rest ih =>
      obtain ⟨hcomplete, hnext, hrest⟩ := hearlier
      exact ⟨hcomplete, hnext, ih hrest⟩

/-- The loop takes packets in turn from the front of the queue. -/
theorem dispatchReliableLoop_spec (number : Nat) (queue : List ENetIncomingCommand) :
    (dispatchReliableLoop number queue).1 ++ (dispatchReliableLoop number queue).2.1 = queue ∧
      InTurn number (dispatchReliableLoop number queue).1
        (dispatchReliableLoop number queue).2.2 := by
  induction queue generalizing number with
  | nil => exact ⟨rfl, rfl⟩
  | cons incoming rest ih =>
      rw [dispatchReliableLoop]
      split
      · exact ⟨rfl, rfl⟩
      · next hturn =>
          obtain ⟨hcomplete, hnext⟩ := not_or.mp hturn
          obtain ⟨hsplit, hrest⟩ := ih incoming.lastNumber
          exact ⟨congrArg (incoming :: ·) hsplit, Nat.eq_zero_of_not_pos hcomplete,
            not_not.mp hnext, hrest⟩

/-! ## The unreliable queue -/

/-- All commands the loop hands over have the property. -/
structure UnreliableDispatch.All (P : ENetIncomingCommand → Prop) (loop : UnreliableDispatch) :
    Prop where
  ready : ∀ incoming ∈ loop.ready, P incoming
  dispatched : ∀ incoming ∈ loop.dispatched, P incoming

section

variable {P : ENetIncomingCommand → Prop} {loop : UnreliableDispatch}
  {incoming : ENetIncomingCommand}

theorem UnreliableDispatch.All.flush (hall : loop.All P) : loop.flush.All P := by
  unfold UnreliableDispatch.flush
  split
  · exact hall
  · exact ⟨by simp, List.forall_mem_append.mpr ⟨hall.dispatched, hall.ready⟩⟩

theorem passed_flush (loop : UnreliableDispatch) : loop.flush.passed = loop.passed := by
  unfold UnreliableDispatch.flush
  split <;> rfl

theorem forall_mem_concat {commands : List ENetIncomingCommand}
    (hcommands : ∀ incoming ∈ commands, P incoming) (hincoming : P incoming) :
    ∀ other ∈ commands ++ [incoming], P other :=
  List.forall_mem_append.mpr ⟨hcommands, List.forall_mem_singleton.mpr hincoming⟩

/-- The loop dispatches nothing but what was queued. -/
theorem dispatchUnreliableLoop_all {channel : IncomingChannel}
    {queue : List ENetIncomingCommand} (hqueue : ∀ incoming ∈ queue, P incoming)
    (hall : loop.All P) : (dispatchUnreliableLoop channel queue loop).1.All P := by
  induction queue generalizing loop with
  | nil => exact hall.flush
  | cons incoming rest ih =>
      obtain ⟨hincoming, hrest⟩ := List.forall_mem_cons.mp hqueue
      have hready := forall_mem_concat hall.ready hincoming
      rw [dispatchUnreliableLoop]
      split
      · exact ih hrest ⟨hready, hall.dispatched⟩
      · split
        · split
          · exact ih hrest ⟨hready, hall.dispatched⟩
          · exact ih hrest ⟨hall.flush.ready, hall.flush.dispatched⟩
        · split
          · exact hall.flush
          · exact ih hrest ⟨hall.flush.ready, hall.flush.dispatched⟩

/-- What the loop leaves in the queue stands there in the old order. -/
theorem dispatchUnreliableLoop_sublist {channel : IncomingChannel}
    (queue : List ENetIncomingCommand) (loop : UnreliableDispatch) :
    ((dispatchUnreliableLoop channel queue loop).1.passed ++
      (dispatchUnreliableLoop channel queue loop).2).Sublist (loop.passed ++ queue) := by
  induction queue generalizing loop with
  | nil =>
      rw [dispatchUnreliableLoop, passed_flush]
  | cons incoming rest ih =>
      have hready : (loop.passed ++ rest).Sublist (loop.passed ++ incoming :: rest) :=
        (List.sublist_cons_self incoming rest).append_left loop.passed
      have hpassed : ((loop.passed ++ [incoming]) ++ rest).Sublist
          (loop.passed ++ incoming :: rest) := by
        rw [List.append_assoc]
        exact .refl _
      rw [dispatchUnreliableLoop]
      split
      · exact (ih _).trans hready
      · split
        · split
          · exact (ih _).trans hready
          · exact (ih _).trans hpassed
        · split
          · rw [passed_flush]
          · exact (ih _).trans hpassed

end

/-! ## What receiving does -/

/-- The commands that are queued on a channel. -/
def IncomingChannel.queued (channel : IncomingChannel) : List ENetIncomingCommand :=
  channel.incomingReliableCommands ++ channel.incomingUnreliableCommands

/-- The queues of a channel hold its own commands, each kind in its queue, and no two of them lie
at one address. -/
structure IncomingChannel.Filed (channelID allocated : Nat) (channel : IncomingChannel) :
    Prop where
  reliable : ∀ incoming ∈ channel.incomingReliableCommands,
    incoming.command.channelID = channelID ∧ incoming.command.body.isReliable
  unreliable : ∀ incoming ∈ channel.incomingUnreliableCommands,
    ¬ incoming.command.body.isReliable
  allocated : ∀ incoming ∈ channel.queued, incoming.address < allocated
  distinct : (channel.queued.map (·.address)).Nodup

def ENetPeer.Filed (peer : ENetPeer) : Prop :=
  ∀ channelID, (peer.channel channelID).toIncomingChannel.Filed channelID peer.allocated

/-- Between the two states a channel has handed over packets in turn. -/
def Inbound.Delivers (before after : Inbound) : Prop :=
  ∃ delivered, after.dispatched = before.dispatched ++ delivered ∧
    InTurn before.number delivered after.number

/-- A step by which every channel delivers in turn. -/
structure InboundStep (before after : ENetPeer) : Prop where
  filed : before.Filed → after.Filed
  delivers : before.Filed → ∀ channelID,
    (before.inbound channelID).Delivers (after.inbound channelID)

/-- A step that receives: it keeps every outbound side as well. -/
structure Receives (before after : ENetPeer) : Prop where
  outbound : SameOutbound before after
  inbound : InboundStep before after

variable {peer before middle after : ENetPeer} {host : ENetHost} {channelID : Nat}

theorem Inbound.Delivers.refl (inbound : Inbound) : inbound.Delivers inbound :=
  ⟨[], (List.append_nil _).symm, rfl⟩

theorem Inbound.Delivers.trans {before middle after : Inbound} (hfirst : before.Delivers middle)
    (hsecond : middle.Delivers after) : before.Delivers after := by
  obtain ⟨earlier, hearlier, hturn⟩ := hfirst
  obtain ⟨later, hlater, hfurther⟩ := hsecond
  refine ⟨earlier ++ later, ?_, hturn.append hfurther⟩
  rw [hlater, hearlier, List.append_assoc]

theorem InboundStep.trans (hfirst : InboundStep before middle)
    (hsecond : InboundStep middle after) : InboundStep before after where
  filed hfiled := hsecond.filed (hfirst.filed hfiled)
  delivers hfiled channelID :=
    (hfirst.delivers hfiled channelID).trans (hsecond.delivers (hfirst.filed hfiled) channelID)

theorem InboundStep.of_same (hsame : SameInbound before after) : InboundStep before after where
  filed hfiled channelID := by
    rw [hsame.channel channelID, hsame.allocated]
    exact hfiled channelID
  delivers _ channelID := by
    rw [hsame.inbound channelID]
    exact .refl _

theorem Receives.trans (hfirst : Receives before middle) (hsecond : Receives middle after) :
    Receives before after :=
  ⟨hfirst.outbound.trans hsecond.outbound, hfirst.inbound.trans hsecond.inbound⟩

theorem Receives.of_same (hout : SameOutbound before after) (hin : SameInbound before after) :
    Receives before after :=
  ⟨hout, .of_same hin⟩

theorem Receives.refl (peer : ENetPeer) : Receives peer peer :=
  .of_same (.refl peer) (.refl peer)

theorem Receives.of_eq
    (hchannels : after.channels = before.channels)
    (hsent : after.sentReliableCommands = before.sentReliableCommands)
    (hqueued : after.outgoingReliableCommands = before.outgoingReliableCommands)
    (hdispatched : after.dispatchedCommands = before.dispatchedCommands)
    (hallocated : after.allocated = before.allocated) : Receives before after := by
  have hchannel (channelID : Nat) : after.channel channelID = before.channel channelID := by
    rw [ENetPeer.channel, hchannels, ENetPeer.channel]
  have hlength := congrArg List.length hchannels
  exact .of_same
    ⟨fun channelID => by rw [hchannel], hlength, hsent, hqueued⟩
    ⟨fun channelID => by rw [hchannel], hlength, hdispatched, hallocated⟩

section

variable {channel changed : IncomingChannel} {allocated more : Nat}

theorem IncomingChannel.Filed.mono (hfiled : channel.Filed channelID allocated)
    (hmore : allocated ≤ more) : channel.Filed channelID more :=
  ⟨hfiled.reliable, hfiled.unreliable,
    fun incoming hin => (hfiled.allocated incoming hin).trans_le hmore, hfiled.distinct⟩

/-- Commands leave the queues. -/
theorem IncomingChannel.Filed.sublist (hfiled : channel.Filed channelID allocated)
    (hreliable : changed.incomingReliableCommands.Sublist channel.incomingReliableCommands)
    (hunreliable : changed.incomingUnreliableCommands.Sublist
      channel.incomingUnreliableCommands) : changed.Filed channelID allocated where
  reliable incoming hin := hfiled.reliable incoming (hreliable.subset hin)
  unreliable incoming hin := hfiled.unreliable incoming (hunreliable.subset hin)
  allocated incoming hin := hfiled.allocated incoming ((hreliable.append hunreliable).subset hin)
  distinct := hfiled.distinct.sublist ((hreliable.append hunreliable).map _)

/-- A command joins the queues at a new address. -/
theorem IncomingChannel.Filed.join {incoming : ENetIncomingCommand}
    (hfiled : channel.Filed channelID allocated)
    (hreliable : ∀ other ∈ changed.incomingReliableCommands,
      other.command.channelID = channelID ∧ other.command.body.isReliable)
    (hunreliable : ∀ other ∈ changed.incomingUnreliableCommands,
      ¬ other.command.body.isReliable)
    (hperm : changed.queued.Perm (incoming :: channel.queued))
    (haddress : incoming.address = allocated) : changed.Filed channelID (allocated + 1) where
  reliable := hreliable
  unreliable := hunreliable
  allocated other hother := by
    rcases List.mem_cons.mp (hperm.subset hother) with rfl | hold
    · exact haddress.trans_lt (Nat.lt_succ_self allocated)
    · exact (hfiled.allocated other hold).trans (Nat.lt_succ_self allocated)
  distinct := by
    rw [(hperm.map _).nodup_iff, List.map_cons, List.nodup_cons]
    refine ⟨fun hused => ?_, hfiled.distinct⟩
    obtain ⟨other, hother, hsame⟩ := List.mem_map.mp hused
    exact (hfiled.allocated other hother).ne (hsame.trans haddress)

/-- What the filing of a command depends on. -/
def ENetIncomingCommand.label (incoming : ENetIncomingCommand) : Nat × ENetProtocol :=
  (incoming.address, incoming.command)

/-- Packets change in the queues. -/
theorem IncomingChannel.Filed.relabel (hfiled : channel.Filed channelID allocated)
    (hreliable : changed.incomingReliableCommands.map (·.label) =
      channel.incomingReliableCommands.map (·.label))
    (hunreliable : changed.incomingUnreliableCommands.map (·.label) =
      channel.incomingUnreliableCommands.map (·.label)) : changed.Filed channelID allocated := by
  have hqueued : changed.queued.map (·.label) = channel.queued.map (·.label) := by
    simp only [IncomingChannel.queued, List.map_append, hreliable, hunreliable]
  have hall {P : Nat × ENetProtocol → Prop} {before after : List ENetIncomingCommand}
      (hsame : after.map (·.label) = before.map (·.label))
      (hbefore : ∀ incoming ∈ before, P incoming.label) : ∀ incoming ∈ after, P incoming.label := by
    rw [← List.forall_mem_map] at hbefore ⊢
    rwa [hsame]
  refine ⟨hall (P := fun label => label.2.channelID = channelID ∧ label.2.body.isReliable)
    hreliable hfiled.reliable, hall (P := fun label => ¬ label.2.body.isReliable) hunreliable
    hfiled.unreliable, hall (P := (·.1 < allocated)) hqueued hfiled.allocated, ?_⟩
  have haddresses := congrArg (List.map Prod.fst) hqueued
  simp only [List.map_map] at haddresses
  exact (congrArg List.Nodup haddresses).mpr hfiled.distinct

end

/-- Commands join or leave the queues of a channel, and packets are handed over. -/
theorem Receives.of_setChannel {channel : ENetChannel} {dispatched : List ENetIncomingCommand}
    (hchannels : after.channels = (peer.setChannel channelID channel).channels)
    (hsent : after.sentReliableCommands = peer.sentReliableCommands)
    (hqueued : after.outgoingReliableCommands = peer.outgoingReliableCommands)
    (hdispatched : after.dispatchedCommands = peer.dispatchedCommands ++ dispatched)
    (hallocated : peer.allocated ≤ after.allocated)
    (houtgoing : channel.toOutgoingChannel = (peer.channel channelID).toOutgoingChannel)
    (hfiled : (peer.channel channelID).toIncomingChannel.Filed channelID peer.allocated →
      channel.toIncomingChannel.Filed channelID after.allocated)
    (hturn : (peer.channel channelID).toIncomingChannel.Filed channelID peer.allocated →
      (channelID < peer.channels.length →
        InTurn (peer.channel channelID).incomingReliableSequenceNumber
          (reliableOn channelID dispatched) channel.incomingReliableSequenceNumber) ∧
      ∀ incoming ∈ dispatched, incoming.command.body.isReliable →
        incoming.command.channelID = channelID ∧ channelID < peer.channels.length) :
    Receives peer after := by
  have hchannel (other : Nat) : after.channel other =
      if channelID = other ∧ other < peer.channels.length then channel
      else peer.channel other := by
    rw [← channel_setChannel, ENetPeer.channel, hchannels, ENetPeer.channel]
  refine ⟨⟨fun other => ?_, by rw [hchannels, length_setChannel], hsent, hqueued⟩,
    ⟨fun hbefore other => ?_, fun hbefore other => ?_⟩⟩
  · rw [hchannel]
    split
    · next hhere => rw [houtgoing, hhere.1]
    · rfl
  · rw [hchannel]
    split
    · next hhere =>
        rw [← hhere.1]
        exact hfiled (hbefore channelID)
    · exact (hbefore other).mono hallocated
  · obtain ⟨hin, hown⟩ := hturn (hbefore channelID)
    refine ⟨reliableOn other dispatched, ?_, ?_⟩
    · simp only [ENetPeer.inbound, hdispatched, reliableOn_append]
    · by_cases hhere : channelID = other ∧ other < peer.channels.length
      · simp only [ENetPeer.inbound, hchannel, if_pos hhere]
        obtain ⟨rfl, hknown⟩ := hhere
        exact hin hknown
      · simp only [ENetPeer.inbound, hchannel, if_neg hhere]
        have hnone : reliableOn other dispatched = [] := by
          rw [reliableOn, List.filter_eq_nil_iff]
          intro incoming hincoming hreliable
          simp only [decide_eq_true_eq] at hreliable
          obtain ⟨hchannelID, hknown⟩ := hown incoming hincoming hreliable.2
          exact hhere ⟨hchannelID.symm.trans hreliable.1, by
            rw [← hreliable.1, hchannelID]; exact hknown⟩
        rw [hnone]
        rfl

/-! ## Queueing and dispatching -/

theorem receives_queueAcknowledgement (command : ENetProtocol) (sentTime : Nat)
    (allocates : Bool) :
    Receives peer (enetPeerQueueAcknowledgement peer command sentTime allocates) := by
  unfold enetPeerQueueAcknowledgement
  dsimp only
  split
  · exact .refl peer
  · split
    · exact .of_eq rfl rfl rfl rfl rfl
    · exact .refl peer

theorem receives_dispatchUnreliable (channelID : Nat) :
    Receives peer (enetPeerDispatchIncomingUnreliableCommands peer channelID) := by
  unfold enetPeerDispatchIncomingUnreliableCommands
  dsimp only
  have hall (hfiled : ∀ incoming ∈ (peer.channel channelID).incomingUnreliableCommands,
      ¬ incoming.command.body.isReliable) :=
    @dispatchUnreliableLoop_all _ { incomingUnreliableSequenceNumber :=
      (peer.channel channelID).incomingUnreliableSequenceNumber }
      (peer.channel channelID).toIncomingChannel _ hfiled ⟨by simp, by simp⟩
  have hkept := @dispatchUnreliableLoop_sublist (peer.channel channelID).toIncomingChannel
    (peer.channel channelID).incomingUnreliableCommands
    { incomingUnreliableSequenceNumber :=
      (peer.channel channelID).incomingUnreliableSequenceNumber }
  generalize dispatchUnreliableLoop _ _ _ = result at hall hkept
  refine .of_setChannel rfl rfl rfl rfl le_rfl rfl
    (fun hfiled => hfiled.sublist (.refl _) ((List.drop_sublist ..).trans hkept))
    (fun hfiled => ⟨fun _ => ?_, fun incoming hincoming hreliable => ?_⟩)
  · have hnone : reliableOn channelID result.1.dispatched = [] :=
      List.filter_eq_nil_iff.mpr fun incoming hincoming hreliable =>
        (hall hfiled.unreliable).dispatched incoming hincoming (of_decide_eq_true hreliable).2
    rw [hnone]
    rfl
  · exact absurd hreliable ((hall hfiled.unreliable).dispatched incoming hincoming)

/-- Only a known channel has commands queued. -/
theorem known_of_mem {incoming : ENetIncomingCommand}
    (hqueued : incoming ∈ (peer.channel channelID).incomingReliableCommands) :
    channelID < peer.channels.length := by
  by_contra hunknown
  rw [ENetPeer.channel, List.getD_eq_getElem?_getD,
    List.getElem?_eq_none (not_lt.mp hunknown)] at hqueued
  cases hqueued

theorem receives_dispatchReliable (channelID : Nat) :
    Receives peer (enetPeerDispatchIncomingReliableCommands peer channelID) := by
  unfold enetPeerDispatchIncomingReliableCommands
  dsimp only
  obtain ⟨hqueue, hturn⟩ := dispatchReliableLoop_spec
    (peer.channel channelID).incomingReliableSequenceNumber
    (peer.channel channelID).incomingReliableCommands
  generalize dispatchReliableLoop _ (peer.channel channelID).incomingReliableCommands = result
    at hqueue hturn
  obtain ⟨dispatched, kept, number⟩ := result
  have hmem (incoming : ENetIncomingCommand) (hdispatched : incoming ∈ dispatched) :
      incoming ∈ (peer.channel channelID).incomingReliableCommands :=
    hqueue ▸ List.mem_append_left kept hdispatched
  have hstays : kept.Sublist (peer.channel channelID).incomingReliableCommands :=
    hqueue ▸ List.sublist_append_right dispatched kept
  split
  · exact .refl peer
  · have hset : Receives peer { peer.setChannel channelID { peer.channel channelID with
          incomingReliableSequenceNumber := number
          incomingUnreliableSequenceNumber := 0
          incomingReliableCommands := kept } with
        dispatchedCommands := peer.dispatchedCommands ++ dispatched
        needsDispatch := true } := by
      refine .of_setChannel rfl rfl rfl rfl le_rfl rfl
        (fun hfiled => hfiled.sublist hstays (.refl _))
        (fun hfiled => ⟨fun _ => ?_, fun incoming hdispatched _ => ?_⟩)
      · have hall : reliableOn channelID dispatched = dispatched :=
          List.filter_eq_self.mpr fun incoming hdispatched =>
            decide_eq_true (hfiled.reliable incoming (hmem incoming hdispatched))
        rw [hall]
        exact hturn
      · have hqueued := hmem incoming hdispatched
        exact ⟨(hfiled.reliable incoming hqueued).1, known_of_mem hqueued⟩
    split
    · exact hset
    · exact hset.trans (receives_dispatchUnreliable channelID)

theorem insertFromEnd_perm (queue : List ENetIncomingCommand) (place : Nat)
    (incoming : ENetIncomingCommand) :
    (insertFromEnd queue place incoming).Perm (incoming :: queue) := by
  refine List.perm_middle.trans (.of_eq ?_)
  rw [List.take_append_drop]

theorem receives_queueIncoming {command : ENetProtocol} {packet : ENetPacket}
    {fragmentCount address : Nat} {allocates : Bool}
    (hqueued : enetPeerQueueIncomingCommand host peer command packet fragmentCount allocates =
      .queued after address) : Receives peer after := by
  unfold enetPeerQueueIncomingCommand at hqueued
  dsimp only at hqueued
  split at hqueued
  · split at hqueued <;> cases hqueued
  · split at hqueued
    · split at hqueued <;> cases hqueued
    · split at hqueued
      · split at hqueued <;> cases hqueued
      · next place hplace =>
          split at hqueued
          · cases hqueued
          · split at hqueued
            · next hreliable =>
                cases hqueued
                have hperm := insertFromEnd_perm
                  (peer.channel command.channelID).incomingReliableCommands place
                  (.start peer.allocated command packet fragmentCount)
                refine .trans ?_ (receives_dispatchReliable _)
                refine .of_setChannel rfl rfl rfl (List.append_nil _).symm (Nat.le_succ _) rfl
                  (fun hfiled => hfiled.join ?_ hfiled.unreliable (hperm.append_right _) rfl)
                  (fun _ => ⟨fun _ => rfl, by simp⟩)
                intro incoming hincoming
                rcases List.mem_cons.mp (hperm.subset hincoming) with rfl | hold
                · exact ⟨rfl, hreliable⟩
                · exact hfiled.reliable incoming hold
            · next hunreliable =>
                cases hqueued
                have hperm := insertFromEnd_perm
                  (peer.channel command.channelID).incomingUnreliableCommands place
                  (.start peer.allocated command packet fragmentCount)
                refine .trans ?_ (receives_dispatchUnreliable _)
                refine .of_setChannel rfl rfl rfl (List.append_nil _).symm (Nat.le_succ _) rfl
                  (fun hfiled => hfiled.join hfiled.reliable ?_
                    ((hperm.append_left _).trans List.perm_middle) rfl)
                  (fun _ => ⟨fun _ => rfl, by simp⟩)
                intro incoming hincoming
                rcases List.mem_cons.mp (hperm.subset hincoming) with rfl | hold
                · exact hunreliable
                · exact hfiled.unreliable incoming hold

theorem receives_code {queued : Queued}
    (hqueued : ∀ after address, queued = .queued after address → Receives peer after) :
    Receives peer (queued.code peer).1 := by
  cases queued with
  | queued after address => exact hqueued after address rfl
  | discarded => exact .refl peer
  | failed => exact .refl peer

/-! ## Handlers -/

theorem label_receive (incoming : ENetIncomingCommand) (fragment : ENetProtocolSendFragment)
    (data : Memory) : (incoming.receive fragment data).label = incoming.label := by
  unfold ENetIncomingCommand.receive ENetIncomingCommand.label
  split
  · rfl
  · dsimp only

/-- A fragment changes nothing but the packet it belongs to. -/
theorem receiveFragment_labels {fragment : ENetProtocolSendFragment} {data : Memory}
    {address : Nat} {queue stored : List ENetIncomingCommand} {complete : Bool}
    (hstored : receiveFragment fragment data address queue = some (stored, complete)) :
    stored.map (·.label) = queue.map (·.label) := by
  induction queue generalizing stored with
  | nil => cases hstored
  | cons incoming rest ih =>
      rw [receiveFragment] at hstored
      split at hstored
      · cases hstored
        rw [List.map_cons, label_receive, List.map_cons]
      · obtain ⟨⟨others, last⟩, hrest, heq⟩ := Option.map_eq_some_iff.mp hstored
        cases heq
        rw [List.map_cons, ih hrest, List.map_cons]

theorem receives_storeFragment {command : ENetProtocol} {fragment : ENetProtocolSendFragment}
    {address : Nat} {data : Memory}
    (hstored : enetProtocolHandleSendFragment.store command fragment peer address data =
      some after) : Receives peer after := by
  obtain ⟨⟨queue, complete⟩, hqueue, rfl⟩ := Option.map_eq_some_iff.mp hstored
  have hset : Receives peer (peer.setChannel command.channelID
      { peer.channel command.channelID with incomingReliableCommands := queue }) :=
    .of_setChannel rfl rfl rfl (List.append_nil _).symm le_rfl rfl
      (fun hfiled => hfiled.relabel (receiveFragment_labels hqueue) rfl)
      (fun _ => ⟨fun _ => rfl, by simp⟩)
  dsimp only
  split
  · exact hset.trans (receives_dispatchReliable _)
  · exact hset

theorem receives_storeUnreliableFragment {command : ENetProtocol}
    {fragment : ENetProtocolSendFragment} {address : Nat} {data : Memory}
    (hstored : enetProtocolHandleSendUnreliableFragment.store command fragment peer address data =
      some after) : Receives peer after := by
  obtain ⟨⟨queue, complete⟩, hqueue, rfl⟩ := Option.map_eq_some_iff.mp hstored
  have hset : Receives peer (peer.setChannel command.channelID
      { peer.channel command.channelID with incomingUnreliableCommands := queue }) :=
    .of_setChannel rfl rfl rfl (List.append_nil _).symm le_rfl rfl
      (fun hfiled => hfiled.relabel rfl (receiveFragment_labels hqueue))
      (fun _ => ⟨fun _ => rfl, by simp⟩)
  dsimp only
  split
  · exact hset.trans (receives_dispatchUnreliable _)
  · exact hset

theorem receives_handleSendReliable (command : ENetProtocol) (dataLength : Nat)
    (data : Memory) (allocates : Bool) :
    Receives peer
      (enetProtocolHandleSendReliable host peer command dataLength data allocates).1 := by
  unfold enetProtocolHandleSendReliable
  split
  · exact .refl peer
  · exact receives_code fun after address => receives_queueIncoming

theorem receives_handleSendUnreliable (command : ENetProtocol) (dataLength : Nat)
    (data : Memory) (allocates : Bool) :
    Receives peer
      (enetProtocolHandleSendUnreliable host peer command dataLength data allocates).1 := by
  unfold enetProtocolHandleSendUnreliable
  split
  · exact .refl peer
  · exact receives_code fun after address => receives_queueIncoming

theorem receives_startGroup (group : Nat) : Receives peer (peer.startGroup group) :=
  .of_eq rfl rfl rfl rfl rfl

theorem receives_noteUnsequenced (index : Nat) :
    Receives peer (peer.noteUnsequenced index) :=
  .of_eq rfl rfl rfl rfl rfl

theorem receives_handleSendUnsequenced (command : ENetProtocol) (group dataLength : Nat)
    (data : Memory) (allocates : Bool) :
    Receives peer
      (enetProtocolHandleSendUnsequenced host peer command group dataLength data allocates).1 := by
  unfold enetProtocolHandleSendUnsequenced
  split
  · exact .refl peer
  · dsimp only
    generalize (if group < peer.incomingUnsequencedGroup then group + 0x10000 else group) = wrapped
    split
    · exact .refl peer
    · split
      · exact .refl peer
      · have hclear : Receives peer
            (if group - group % ENET_PEER_UNSEQUENCED_WINDOW_SIZE ≠ peer.incomingUnsequencedGroup
              then peer.startGroup (group - group % ENET_PEER_UNSEQUENCED_WINDOW_SIZE)
              else peer) := by
          split
          · exact receives_startGroup _
          · exact .refl peer
        split
        · exact hclear
        · next hqueued =>
            exact (hclear.trans (receives_queueIncoming hqueued)).trans
              (receives_noteUnsequenced _)
        · exact hclear.trans (receives_noteUnsequenced _)

theorem receives_handleSendFragment {command : ENetProtocol}
    {fragment : ENetProtocolSendFragment} {data : Memory} {allocates : Bool}
    {result : ENetPeer × Int}
    (hresult : enetProtocolHandleSendFragment host peer command fragment data allocates =
      some result) : Receives peer result.1 := by
  unfold enetProtocolHandleSendFragment at hresult
  split at hresult
  · cases hresult
    exact .refl peer
  · dsimp only at hresult
    split at hresult
    · cases hresult
      exact .refl peer
    · split at hresult
      · cases hresult
        exact .refl peer
      · split at hresult
        · split at hresult
          · split at hresult
            · cases hresult
              exact .refl peer
            · obtain ⟨stored, hstored, rfl⟩ := Option.map_eq_some_iff.mp hresult
              exact receives_storeFragment hstored
          · cases hresult
            exact .refl peer
        · split at hresult
          · next hqueued =>
              obtain ⟨stored, hstored, rfl⟩ := Option.map_eq_some_iff.mp hresult
              exact (receives_queueIncoming hqueued).trans (receives_storeFragment hstored)
          · cases hresult
            exact .refl peer

theorem receives_handleSendUnreliableFragment {command : ENetProtocol}
    {fragment : ENetProtocolSendFragment} {data : Memory} {allocates : Bool}
    {result : ENetPeer × Int}
    (hresult : enetProtocolHandleSendUnreliableFragment host peer command fragment data allocates =
      some result) : Receives peer result.1 := by
  unfold enetProtocolHandleSendUnreliableFragment at hresult
  split at hresult
  · cases hresult
    exact .refl peer
  · dsimp only at hresult
    split at hresult
    · cases hresult
      exact .refl peer
    · split at hresult
      · cases hresult
        exact .refl peer
      · split at hresult
        · cases hresult
          exact .refl peer
        · split at hresult
          · split at hresult
            · split at hresult
              · cases hresult
                exact .refl peer
              · obtain ⟨stored, hstored, rfl⟩ := Option.map_eq_some_iff.mp hresult
                exact receives_storeUnreliableFragment hstored
            · cases hresult
              exact .refl peer
          · split at hresult
            · next hqueued =>
                obtain ⟨stored, hstored, rfl⟩ := Option.map_eq_some_iff.mp hresult
                exact (receives_queueIncoming hqueued).trans
                  (receives_storeUnreliableFragment hstored)
            · cases hresult
              exact .refl peer

theorem receives_handleBandwidthLimit (incoming outgoing : UInt32) :
    Receives peer (enetProtocolHandleBandwidthLimit host peer incoming outgoing).1 := by
  unfold enetProtocolHandleBandwidthLimit
  split
  · exact .refl peer
  · exact .of_eq rfl rfl rfl rfl rfl

theorem receives_handleThrottleConfigure (interval acceleration deceleration : UInt32) :
    Receives peer
      (enetProtocolHandleThrottleConfigure peer interval acceleration deceleration).1 := by
  unfold enetProtocolHandleThrottleConfigure
  split
  · exact .refl peer
  · exact .of_eq rfl rfl rfl rfl rfl

/-! ## One command of a datagram -/

theorem receives_acknowledgeCommand (command : ENetProtocol) (code : Int)
    (sentTime : Option Nat) (allocates : Bool) :
    Receives peer (acknowledgeCommand peer command code sentTime allocates) := by
  cases sentTime with
  | none => exact .refl peer
  | some sentTime =>
      rw [acknowledgeCommand]
      split
      · exact receives_queueAcknowledgement command sentTime allocates
      · exact .refl peer

theorem handleAcknowledge_cases (channelID number time : Nat) :
    Receives peer (enetProtocolHandleAcknowledge host peer channelID number time) ∨
      ∃ middle, Receives peer middle ∧
        enetProtocolHandleAcknowledge host peer channelID number time =
          (enetProtocolRemoveSentReliableCommand middle number channelID).1 := by
  unfold enetProtocolHandleAcknowledge
  dsimp only
  split
  · exact .inl (.refl peer)
  · have hclock : Receives peer
        { peer with lastReceiveTime := host.serviceTime, earliestTimeout := 0 } :=
      .of_eq rfl rfl rfl rfl rfl
    obtain ⟨hout, hin⟩ := @same_measureRoundTrip
      { peer with lastReceiveTime := host.serviceTime, earliestTimeout := 0 } host
      (timeDifference host.serviceTime (completeSentTime host time))
    exact .inr ⟨_, hclock.trans (.of_same hout hin), rfl⟩

theorem handleCommand_cases {command : ENetProtocol} {data : Memory} {allocates : Bool}
    {result : ENetPeer × Int}
    (hresult : handleCommand host peer command data allocates = some result) :
    ∃ middle, Receives peer middle ∧ (result.1 = middle ∨ ∃ number channelID,
      result.1 = (enetProtocolRemoveSentReliableCommand middle number channelID).1) := by
  unfold handleCommand at hresult
  split at hresult
  · next number time hbody =>
      cases hresult
      rcases @handleAcknowledge_cases peer host command.channelID number time with
        hsame | ⟨middle, hmiddle, hremoved⟩
      · exact ⟨_, hsame, .inl rfl⟩
      · exact ⟨middle, hmiddle, .inr ⟨_, _, hremoved⟩⟩
  · cases hresult
    exact ⟨peer, .refl peer, .inl rfl⟩
  · cases hresult
    exact ⟨_, receives_handleSendReliable .., .inl rfl⟩
  · cases hresult
    exact ⟨_, receives_handleSendUnreliable .., .inl rfl⟩
  · cases hresult
    exact ⟨_, receives_handleSendUnsequenced .., .inl rfl⟩
  · exact ⟨_, receives_handleSendFragment hresult, .inl rfl⟩
  · exact ⟨_, receives_handleSendUnreliableFragment hresult, .inl rfl⟩
  · cases hresult
    exact ⟨_, receives_handleBandwidthLimit .., .inl rfl⟩
  · cases hresult
    exact ⟨_, receives_handleThrottleConfigure .., .inl rfl⟩

/-- A packet is received, or an acknowledgement takes back one command that was sent. -/
theorem handleIncoming_cases {command : ENetProtocol} {data : Memory} {sentTime : Option Nat}
    {allocates : Bool} {result : ENetPeer × Int}
    (hresult : enetProtocolHandleIncomingCommand host peer command data sentTime allocates =
      some result) :
    ∃ middle handled, Receives peer middle ∧
      (handled = middle ∨ ∃ number channelID,
        handled = (enetProtocolRemoveSentReliableCommand middle number channelID).1) ∧
      Receives handled result.1 := by
  obtain ⟨⟨handled, code⟩, hhandled, rfl⟩ := Option.map_eq_some_iff.mp hresult
  obtain ⟨middle, hmiddle, hcases⟩ := handleCommand_cases hhandled
  exact ⟨middle, handled, hmiddle, hcases, receives_acknowledgeCommand ..⟩

end SrmotionProxy.ENet.Protocol
