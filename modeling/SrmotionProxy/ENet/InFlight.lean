/-
# Commands in flight

What the host does with the commands to be acknowledged: it sends them, sets them back when they
time out, and forgets them when they are acknowledged, in whatever order the acknowledgements
come. In every run the counts of the windows are right, and a sequence number is never on its
way twice on a channel.
-/

import SrmotionProxy.ENet.Queueing

namespace SrmotionProxy.ENet.Protocol

open SrmotionProxy.Lib

variable {peer before after : ENetPeer} {host : ENetHost}
  {queue more : List ENetOutgoingCommand} {outgoing : ENetOutgoingCommand} {channelID number : Nat}

/-! ## Sending -/

theorem channel_launch (outgoing : ENetOutgoingCommand) (channelID : Nat) :
    ((launch host peer outgoing).channel channelID).toOutgoingChannel =
      if outgoing.command.channelID = channelID ∧ channelID < peer.channels.length ∧
          ¬ outgoing.attempted
      then (peer.channel channelID).toOutgoingChannel.enterWindow
        (outgoing.reliableSequenceNumber / ENET_PEER_RELIABLE_WINDOW_SIZE)
      else (peer.channel channelID).toOutgoingChannel := by
  unfold launch
  dsimp only
  by_cases hfirst : outgoing.command.channelID < peer.channels.length ∧ ¬ outgoing.attempted
  · rw [if_pos hfirst]
    change ((peer.setChannel _ _).channel channelID).toOutgoingChannel = _
    rw [channel_setChannel]
    by_cases hhere : outgoing.command.channelID = channelID
    · subst hhere
      rw [if_pos ⟨rfl, hfirst.1⟩, if_pos ⟨rfl, hfirst⟩]
    · rw [if_neg fun hboth => hhere hboth.1, if_neg fun hboth => hhere hboth.1]
  · have hnot : ¬ (outgoing.command.channelID = channelID ∧ channelID < peer.channels.length ∧
        ¬ outgoing.attempted) := by
      rintro ⟨rfl, hboth⟩
      exact hfirst hboth
    rw [if_neg hfirst, if_neg hnot]
    rfl

theorem length_launch (outgoing : ENetOutgoingCommand) :
    (launch host peer outgoing).channels.length = peer.channels.length := by
  unfold launch
  dsimp only
  split
  · exact length_setChannel ..
  · rfl

/-- The command joins the sent ones, with one attempt more. -/
theorem sent_launch (hfits : outgoing.sendAttempts + 1 < 2 ^ 16) :
    ∃ launched : ENetOutgoingCommand,
      (launch host peer outgoing).sentReliableCommands = peer.sentReliableCommands ++ [launched] ∧
      launched.toENetOutgoingOrder = outgoing.toENetOutgoingOrder ∧ launched.attempted := by
  have hattempted : decide (1 ≤ (outgoing.sendAttempts + 1) % 2 ^ 16) = true := by
    rw [Nat.mod_eq_of_lt hfits]
    exact decide_eq_true (Nat.le_add_left 1 outgoing.sendAttempts)
  unfold launch
  dsimp only
  by_cases hfirst : outgoing.command.channelID < peer.channels.length ∧ ¬ outgoing.attempted
  · simp only [if_pos hfirst]
    exact ⟨_, rfl, rfl, hattempted⟩
  · simp only [if_neg hfirst]
    exact ⟨_, rfl, rfl, hattempted⟩

section

variable (haccounted : peer.Accounted (queue ++ outgoing :: more))
  (hfirst : outgoing.command.channelID < peer.channels.length → queue = [] ∧
    ¬ (peer.channel outgoing.command.channelID).toOutgoingChannel.wraps outgoing)

include haccounted hfirst

/-- What a launch means for one channel: nothing, if the command is of another channel or was on
its way before. -/
theorem ENetPeer.Accounted.channel_launch {launched : ENetOutgoingCommand}
    (horder : launched.toENetOutgoingOrder = outgoing.toENetOutgoingOrder)
    (hattempted : launched.attempted) (hknown : channelID < peer.channels.length) :
    let flown := flying channelID (launched :: (peer.sentReliableCommands ++ (queue ++ more)))
    ((launch host peer outgoing).channel channelID).toOutgoingChannel.Counts
        (Sequence.windowCount ENET_PEER_RELIABLE_WINDOW_SIZE flown) ∧
      ((launch host peer outgoing).channel channelID).toOutgoingChannel.Numbers
        (waiting channelID (queue ++ more)) flown := by
  have hnumber : launched.reliableSequenceNumber = outgoing.reliableSequenceNumber :=
    congrArg ENetOutgoingOrder.reliableSequenceNumber horder
  have hchannel : launched.command.channelID = outgoing.command.channelID :=
    congrArg (fun order => order.command.channelID) horder
  have hbefore : (peer.sentReliableCommands ++ (queue ++ outgoing :: more)).Perm
      (outgoing :: (peer.sentReliableCommands ++ (queue ++ more))) := by
    rw [← List.append_assoc, ← List.append_assoc]
    exact List.perm_middle
  have hcounts := haccounted.counts channelID hknown
  rw [Sequence.windowCount_perm (flying_perm hbefore)] at hcounts
  have hnumbers := (haccounted.numbers channelID hknown).subperm
    (flying_perm hbefore).symm.subperm
  rw [waiting_append] at hnumbers
  dsimp only
  rw [Protocol.channel_launch, waiting_append]
  by_cases hhere : outgoing.command.channelID = channelID
  · rw [flying_cons_of_flies (decide_eq_true ⟨hchannel.trans hhere, hattempted⟩), hnumber]
    by_cases hagain : outgoing.attempted
    · have hold : outgoing.flies channelID := decide_eq_true ⟨hhere, hagain⟩
      rw [flying_cons_of_flies hold] at hcounts hnumbers
      rw [waiting_cons_of_not fun hwaits => (of_decide_eq_true hwaits).2 hagain] at hnumbers
      rw [if_neg fun hnew => hnew.2.2 hagain]
      exact ⟨hcounts, hnumbers⟩
    · subst hhere
      obtain ⟨rfl, hwraps⟩ := hfirst hknown
      rw [flying_cons_of_not fun hflies => hagain (of_decide_eq_true hflies).2]
        at hcounts hnumbers
      rw [waiting_cons_of_waits (decide_eq_true ⟨rfl, hagain⟩)] at hnumbers
      rw [if_pos ⟨rfl, hknown, hagain⟩]
      exact hcounts.send hnumbers (haccounted.numbered outgoing (by simp)) hagain hwraps
  · have hnot {other : ENetOutgoingCommand}
        (hother : other.command.channelID = outgoing.command.channelID) :
        ¬ other.flies channelID :=
      fun hflies => hhere (hother.symm.trans (of_decide_eq_true hflies).1)
    rw [flying_cons_of_not (hnot rfl)] at hcounts hnumbers
    rw [waiting_cons_of_not fun hwaits => hhere (of_decide_eq_true hwaits).1] at hnumbers
    rw [if_neg fun hnew => hhere hnew.1, flying_cons_of_not (hnot hchannel)]
    exact ⟨hcounts, hnumbers⟩

/-- A command is sent. One that is sent for the first time stands at the front of the queue, and
its window is free. -/
theorem ENetPeer.Accounted.launch (hfits : outgoing.sendAttempts + 1 < 2 ^ 16) :
    (launch host peer outgoing).Accounted (queue ++ more) := by
  obtain ⟨launched, hsent, horder, hattempted⟩ := @sent_launch peer host outgoing hfits
  have hafter : ((peer.sentReliableCommands ++ [launched]) ++ (queue ++ more)).Perm
      (launched :: (peer.sentReliableCommands ++ (queue ++ more))) := by
    rw [List.append_assoc]
    exact List.perm_middle
  have hnumbered := haccounted.numbered
  have hpackets := haccounted.packets
  simp only [List.forall_mem_append, List.forall_mem_cons] at hnumbered hpackets
  refine ⟨(length_launch outgoing).trans_le haccounted.count, ?_, ?_, ?_,
    fun channelID hknown => ?_, fun channelID hknown => ?_⟩
  · rw [hsent]
    exact List.forall_mem_append.mpr
      ⟨haccounted.attempted, List.forall_mem_singleton.mpr hattempted⟩
  · have hnumber := congrArg ENetOutgoingOrder.reliableSequenceNumber horder
    simp only [hsent, List.forall_mem_append, List.forall_mem_singleton, hnumber]
    exact ⟨⟨hnumbered.1, hnumbered.2.2.1⟩, hnumbered.2.1, hnumbered.2.2.2⟩
  · have hchannel := congrArg (fun order => order.command.channelID) horder
    have hpacket := congrArg ENetOutgoingOrder.packet horder
    simp only [hsent, length_launch, List.forall_mem_append, List.forall_mem_singleton, hchannel,
      hpacket]
    exact ⟨⟨hpackets.1, hpackets.2.2.1⟩, hpackets.2.1, hpackets.2.2.2⟩
  · rw [length_launch] at hknown
    rw [hsent, Sequence.windowCount_perm (flying_perm hafter)]
    exact (haccounted.channel_launch hfirst horder hattempted hknown).1
  · rw [length_launch] at hknown
    rw [hsent]
    exact (haccounted.channel_launch hfirst horder hattempted hknown).2.subperm
      (flying_perm hafter).subperm

end

/-- The loop is at this point of the queue. As long as it has met no obstacle it has skipped
nothing; behind one it sends nothing more on a channel. -/
structure ReliableSending.Sound (sending : ReliableSending) (queue : List ENetOutgoingCommand) :
    Prop where
  accounted : sending.peer.Accounted (sending.skipped ++ queue)
  fits : AttemptsFit (sending.skipped ++ queue)
  ahead : ¬ sending.windowWrap → ¬ sending.windowExceeded → sending.skipped = []

theorem ReliableSending.Sound.first {sending : ReliableSending}
    (hsound : sending.Sound (outgoing :: more))
    (hwrap : ¬ (outgoing.command.channelID < sending.peer.channels.length ∧
      (sending.checkWrap outgoing).windowWrap))
    (hexceeded : ¬ (outgoing.packet.isSome ∧
      ((sending.checkWrap outgoing).checkExceeded outgoing).windowExceeded))
    (hknown : outgoing.command.channelID < sending.peer.channels.length) :
    sending.skipped = [] ∧
      ¬ (sending.peer.channel outgoing.command.channelID).toOutgoingChannel.wraps outgoing := by
  have hpacket := hsound.accounted.packets outgoing (by simp) hknown
  have hnowrap := fun hset => hwrap ⟨hknown, hset⟩
  have hroom := fun hset => hexceeded ⟨hpacket, hset⟩
  simp only [ReliableSending.checkWrap, ReliableSending.checkExceeded, Bool.or_eq_true,
    Bool.and_eq_true, hknown, decide_true, true_and] at hnowrap hroom
  obtain ⟨hclear, hwraps⟩ := not_or.mp hnowrap
  exact ⟨hsound.ahead hclear (not_or.mp hroom).1, hwraps⟩

theorem accounted_sendReliableLoop {sending : ReliableSending} (hsound : sending.Sound queue) :
    (sendReliableLoop host queue sending).peer.Accounted
        (sendReliableLoop host queue sending).skipped ∧
      AttemptsFit (sendReliableLoop host queue sending).skipped := by
  induction queue generalizing sending with
  | nil =>
      obtain ⟨haccounted, hfits, -⟩ := hsound
      rw [List.append_nil] at haccounted hfits
      exact ⟨haccounted, hfits⟩
  | cons outgoing rest ih =>
      -- a command that is skipped moves to the end of those passed
      have hmoved : (sending.skipped ++ [outgoing]) ++ rest = sending.skipped ++ outgoing :: rest :=
        List.append_assoc ..
      rw [sendReliableLoop]
      dsimp only
      split
      · next hwrap =>
          refine @ih ((sending.checkWrap outgoing).skip outgoing) ⟨?_, ?_, ?_⟩
          · exact hmoved ▸ hsound.accounted
          · exact hmoved ▸ hsound.fits
          · exact fun hnot => absurd hwrap.2 hnot
      · next hwrap =>
          split
          · next hexceeded =>
              refine @ih (((sending.checkWrap outgoing).checkExceeded outgoing).skip outgoing)
                ⟨?_, ?_, ?_⟩
              · exact hmoved ▸ hsound.accounted
              · exact hmoved ▸ hsound.fits
              · exact fun _ hnot => absurd hexceeded.2 hnot
          · next hexceeded =>
              split
              · exact ⟨hsound.accounted, hsound.fits⟩
              · obtain ⟨hskipped, hfits, hrest⟩ := by
                  simpa only [AttemptsFit, List.forall_mem_append, List.forall_mem_cons]
                    using hsound.fits
                refine @ih (((sending.checkWrap outgoing).checkExceeded outgoing).send host outgoing)
                  ⟨?_, ?_, ?_⟩
                · exact hsound.accounted.launch (hsound.first hwrap hexceeded) hfits
                · exact List.forall_mem_append.mpr ⟨hskipped, hrest⟩
                · intro hwrapped hfull
                  exact hsound.ahead (fun hset => hwrapped (Bool.or_eq_true .. ▸ .inl hset))
                    (fun hset => hfull (Bool.or_eq_true .. ▸ .inl hset))

/-- Nothing that waits to be sent has been tried too often. -/
structure ENetPeer.Sending (peer : ENetPeer) : Prop where
  accounted : peer.Accounted peer.outgoingReliableCommands
  fits : AttemptsFit peer.outgoingReliableCommands

theorem sending_sendReliable (datagram : Datagram) (hsending : peer.Sending) :
    (enetProtocolSendReliableOutgoingCommands host peer datagram).1.Sending := by
  obtain ⟨haccounted, hfits⟩ := @accounted_sendReliableLoop host peer.outgoingReliableCommands
    { peer := peer, datagram := datagram } ⟨hsending.accounted, hsending.fits, fun _ _ => rfl⟩
  exact ⟨⟨haccounted.count, haccounted.attempted, haccounted.numbered, haccounted.packets,
    haccounted.counts, haccounted.numbers⟩, hfits⟩

theorem ENetPeer.Sending.queues (hsending : before.Sending) (hqueues : Queues before after) :
    after.Sending := by
  obtain ⟨added, hadded⟩ := hqueues.added
  refine ⟨hsending.accounted.queues hqueues, ?_⟩
  rw [hadded.queue]
  refine List.forall_mem_append.mpr ⟨hsending.fits, fun outgoing hin => ?_⟩
  rw [hadded.idle outgoing hin]
  decide

/-! ## Timeouts -/

/-- The loop keeps or sets back every sent command, and changes nothing that is counted. -/
theorem checkTimeoutsLoop_spec {sent kept late : List ENetOutgoingCommand}
    {result : ENetPeer × List ENetOutgoingCommand × List ENetOutgoingCommand}
    (hloop : checkTimeoutsLoop host sent peer kept late = some result) :
    SameOutbound peer result.1 ∧
      ((result.2.1 ++ result.2.2).map (·.label)).Perm (((kept ++ late) ++ sent).map (·.label)) := by
  induction sent generalizing peer kept late with
  | nil =>
      cases hloop
      rw [List.append_nil]
      exact ⟨.refl peer, .refl _⟩
  | cons outgoing rest ih =>
      rw [checkTimeoutsLoop] at hloop
      split at hloop
      · obtain ⟨hsame, hperm⟩ := ih hloop
        refine ⟨hsame, hperm.trans (List.Perm.map _ ?_)⟩
        rw [List.append_assoc, List.append_assoc, List.append_assoc, List.singleton_append]
        exact List.perm_middle.symm.append_left kept
      · split at hloop
        · cases hloop
        · obtain ⟨hsame, hperm⟩ := ih hloop
          refine ⟨⟨hsame.channel, hsame.length, hsame.sent, hsame.queued⟩, hperm.trans (.of_eq ?_)⟩
          simp only [List.map_append, List.map_cons, List.append_assoc, List.cons_append,
            List.nil_append]
          rfl

theorem sending_checkTimeouts (haccounted : peer.Accounted peer.outgoingReliableCommands)
    (hfits : AttemptsFit (peer.sentReliableCommands ++ peer.outgoingReliableCommands))
    (hcheck : enetProtocolCheckTimeouts host peer = some after) :
    after.Accounted after.outgoingReliableCommands ∧
      AttemptsFit (after.sentReliableCommands ++ after.outgoingReliableCommands) := by
  unfold enetProtocolCheckTimeouts at hcheck
  split at hcheck
  · cases hcheck
  · next checked kept late hloop =>
      cases hcheck
      obtain ⟨hsame, hperm⟩ := checkTimeoutsLoop_spec hloop
      rw [List.nil_append, List.nil_append] at hperm
      have hattempted := forall_of_labels (P := fun label => 1 ≤ label.2) hperm
        fun outgoing hin => of_decide_eq_true (haccounted.attempted outgoing hin)
      obtain ⟨hkept, hlate⟩ := List.forall_mem_append.mp hattempted
      have hall : ((kept ++ (late ++ checked.outgoingReliableCommands)).map (·.label)).Perm
          ((peer.sentReliableCommands ++ peer.outgoingReliableCommands).map (·.label)) := by
        rw [hsame.queued, ← List.append_assoc]
        simpa only [List.map_append] using
          hperm.append_right (peer.outgoingReliableCommands.map (·.label))
      refine ⟨⟨hsame.length.trans_le haccounted.count,
        fun outgoing hin => decide_eq_true (hkept outgoing hin), ?_, ?_,
        fun channelID hknown => ?_, fun channelID hknown => ?_⟩, ?_⟩
      · exact forall_of_labels (P := fun label => label.1.reliableSequenceNumber < 2 ^ 16) hall
          haccounted.numbered
      · have hpackets := forall_of_labels
          (P := fun label => label.1.command.channelID < peer.channels.length →
            label.1.packet.isSome) hall haccounted.packets
        exact fun outgoing hin hknown => hpackets outgoing hin (hknown.trans_eq hsame.length)
      · have hcounts := haccounted.counts channelID (hknown.trans_eq hsame.length)
        rw [← Sequence.windowCount_perm (flying_perm_of_labels hall), ← hsame.channel] at hcounts
        exact hcounts
      · have hnumbers := (haccounted.numbers channelID (hknown.trans_eq hsame.length)).subperm
          (flying_perm_of_labels hall).subperm
        rw [← hsame.channel, ← hsame.queued] at hnumbers
        rw [waiting_append, waiting_of_attempted fun outgoing hin =>
          decide_eq_true (hlate outgoing hin)]
        exact hnumbers
      · exact forall_of_labels (P := fun label => label.2 + 1 < 2 ^ 16) hall hfits

/-! ## Acknowledgements -/

/-- `find?` and `eraseP` meet at the same command, also where more is queued behind. -/
theorem split_of_find? {p : ENetOutgoingCommand → Bool} {commands : List ENetOutgoingCommand}
    (hfind : commands.find? p = some outgoing) (more : List ENetOutgoingCommand) :
    p outgoing ∧ ∃ front back, commands = front ++ outgoing :: back ∧
      (commands ++ more).eraseP p = front ++ (back ++ more) := by
  obtain ⟨hp, front, back, rfl, hfront⟩ := List.find?_eq_some_iff_append.mp hfind
  refine ⟨hp, front, back, rfl, ?_⟩
  have hskip : ∀ other ∈ front, ¬ p other := fun other hother => by
    simpa using hfront other hother
  rw [List.append_assoc, List.eraseP_append_right _ hskip, List.cons_append,
    List.eraseP_cons_of_pos hp]

theorem schedule_same {removed : ENetPeer}
    (hafter : enetProtocolRemoveSentReliableCommand.schedule removed = after) :
    SameOutbound removed after := by
  subst hafter
  unfold enetProtocolRemoveSentReliableCommand.schedule
  split
  · exact .refl removed
  · exact ⟨fun _ => rfl, rfl, rfl, rfl⟩

theorem channel_leave (number channelID other : Nat) :
    ((enetProtocolRemoveSentReliableCommand.leave number channelID peer).channel
        other).toOutgoingChannel =
      if channelID = other ∧ other < peer.channels.length
      then (peer.channel other).toOutgoingChannel.leaveWindow
        (number / ENET_PEER_RELIABLE_WINDOW_SIZE)
      else (peer.channel other).toOutgoingChannel := by
  unfold enetProtocolRemoveSentReliableCommand.leave
  dsimp only
  split
  · rw [channel_setChannel]
    split
    · next hhere => rw [hhere.1]
    · rfl
  · next hunknown =>
      rw [if_neg]
      rintro ⟨rfl, hknown⟩
      exact hunknown hknown

theorem leave_fields (number channelID : Nat) :
    (enetProtocolRemoveSentReliableCommand.leave number channelID peer).channels.length =
        peer.channels.length ∧
      (enetProtocolRemoveSentReliableCommand.leave number channelID peer).sentReliableCommands =
        peer.sentReliableCommands ∧
      (enetProtocolRemoveSentReliableCommand.leave number channelID peer).outgoingReliableCommands =
        peer.outgoingReliableCommands := by
  unfold enetProtocolRemoveSentReliableCommand.leave
  split
  · exact ⟨length_setChannel .., rfl, rfl⟩
  · exact ⟨rfl, rfl, rfl⟩

/-- A command that was on its way is taken back. -/
structure TakesBack (before after : ENetPeer) (number channelID : Nat)
    (outgoing : ENetOutgoingCommand) : Prop where
  isFor : outgoing.isFor number channelID
  attempted : outgoing.attempted
  channels : ∀ other, (after.channel other).toOutgoingChannel =
    ((enetProtocolRemoveSentReliableCommand.leave number channelID before).channel
      other).toOutgoingChannel
  length : after.channels.length = before.channels.length
  sent : after.sentReliableCommands ⊆ before.sentReliableCommands
  waiting : ∀ other, waiting other after.outgoingReliableCommands =
    waiting other before.outgoingReliableCommands
  perm : (before.sentReliableCommands ++ before.outgoingReliableCommands).Perm
    (outgoing :: (after.sentReliableCommands ++ after.outgoingReliableCommands))

/-- Either nothing is removed, or one command that was on its way, and its window is told. -/
theorem removeSent_cases (hattempted : ∀ outgoing ∈ peer.sentReliableCommands, outgoing.attempted)
    (hafter : (enetProtocolRemoveSentReliableCommand peer number channelID).1 = after) :
    after = peer ∨ ∃ outgoing, TakesBack peer after number channelID outgoing := by
  obtain ⟨hlength, hsent, hqueued⟩ := @leave_fields peer number channelID
  unfold enetProtocolRemoveSentReliableCommand at hafter
  dsimp only at hafter
  split at hafter
  · next outgoing hfind =>
      obtain ⟨hfor, front, back, hsplit, herase⟩ := split_of_find? hfind []
      rw [List.append_nil, List.append_nil] at herase
      have hsame := schedule_same hafter
      have hnow : after.sentReliableCommands = front ++ back := by
        rw [hsame.sent, hsent]
        exact herase
      have hstays : after.outgoingReliableCommands = peer.outgoingReliableCommands := by
        rw [hsame.queued, hqueued]
      refine .inr ⟨outgoing, hfor, hattempted outgoing (by rw [hsplit]; simp), hsame.channel,
        hsame.length.trans hlength, ?_, fun other => by rw [hstays], ?_⟩
      · rw [hnow, hsplit]
        simp
      · rw [hnow, hstays, hsplit]
        exact List.perm_middle.append_right _
  · split at hafter
    · exact .inl hafter.symm
    · next outgoing hfind =>
        obtain ⟨hfor, front, back, hsplit, herase⟩ := split_of_find? hfind
          (peer.outgoingReliableCommands.dropWhile (·.attempted))
        have hbefore := List.takeWhile_append_dropWhile (p := (·.attempted))
          (l := peer.outgoingReliableCommands)
        have hflies : outgoing.attempted :=
          List.mem_takeWhile_imp (List.mem_of_find?_eq_some hfind)
        rw [hbefore] at herase
        rw [hsplit] at hbefore
        generalize peer.outgoingReliableCommands.dropWhile (·.attempted) = rest at herase hbefore
        have hsame := schedule_same hafter
        have hnow : after.outgoingReliableCommands = front ++ (back ++ rest) := by
          rw [hsame.queued, ← herase, ← hqueued]
        have hstays : after.sentReliableCommands = peer.sentReliableCommands := by
          rw [hsame.sent, hsent]
        refine .inr ⟨outgoing, hfor, hflies, hsame.channel, hsame.length.trans hlength,
          by rw [hstays]; exact List.Subset.refl _, fun other => ?_, ?_⟩
        · have hnot : ¬ outgoing.waits other := fun hwaits => (of_decide_eq_true hwaits).2 hflies
          rw [hnow, ← hbefore]
          simp only [List.append_assoc, List.cons_append, waiting_append,
            waiting_cons_of_not hnot]
        · rw [hnow, hstays, ← hbefore, List.append_assoc, List.cons_append]
          exact (List.perm_middle.append_left _).trans List.perm_middle

theorem accounted_removeSent (haccounted : peer.Accounted peer.outgoingReliableCommands)
    (hafter : (enetProtocolRemoveSentReliableCommand peer number channelID).1 = after) :
    after.Accounted after.outgoingReliableCommands := by
  rcases removeSent_cases haccounted.attempted hafter with rfl | ⟨outgoing, hback⟩
  · exact haccounted
  · obtain ⟨hnumber, hown⟩ := of_decide_eq_true hback.isFor
    have hnumbered := haccounted.numbered
    have hpackets := haccounted.packets
    simp only [hback.perm.mem_iff, List.forall_mem_cons] at hnumbered hpackets
    refine ⟨hback.length.trans_le haccounted.count,
      fun other hin => haccounted.attempted other (hback.sent hin), hnumbered.2, ?_,
      fun other hknown => ?_, fun other hknown => ?_⟩
    · rw [hback.length]
      exact hpackets.2
    · rw [hback.length] at hknown
      have hold := haccounted.counts other hknown
      rw [Sequence.windowCount_perm (flying_perm hback.perm)] at hold
      rw [hback.channels, channel_leave]
      by_cases hhere : channelID = other
      · have hflies : outgoing.flies other := decide_eq_true ⟨hown.trans hhere, hback.attempted⟩
        rw [flying_cons_of_flies hflies, hnumber, Sequence.windowCount_cons] at hold
        rw [if_pos ⟨hhere, hknown⟩]
        have hleft := @OutgoingChannel.Counts.leaveWindow _ _
          (number / ENET_PEER_RELIABLE_WINDOW_SIZE) hold (by simp)
        simpa using hleft
      · have hnot : ¬ outgoing.flies other :=
          fun hflies => hhere (hown.symm.trans (of_decide_eq_true hflies).1)
        rw [flying_cons_of_not hnot] at hold
        rw [if_neg fun hboth => hhere hboth.1]
        exact hold
    · rw [hback.length] at hknown
      have hfewer : (flying other
          (after.sentReliableCommands ++ after.outgoingReliableCommands)).Subperm
            (flying other (peer.sentReliableCommands ++ peer.outgoingReliableCommands)) :=
        (flying_sublist (List.sublist_cons_self outgoing _)).subperm.trans
          (flying_perm hback.perm).symm.subperm
      obtain ⟨last, hlast, hfollows, hwindows⟩ := (haccounted.numbers other hknown).subperm hfewer
      have hgiven : (after.channel other).outgoingReliableSequenceNumber =
          (peer.channel other).outgoingReliableSequenceNumber := by
        rw [hback.channels, channel_leave]
        split
        · exact leaveWindow_number ..
        · rfl
      rw [hback.waiting]
      exact ⟨last, hlast, hgiven ▸ hfollows, hwindows⟩

/-! ## Runs -/

theorem accounted_sendOutgoing {checkForTimeouts allocates : Bool} {datagram : Datagram}
    (haccounted : peer.Accounted peer.outgoingReliableCommands)
    (hfits : AttemptsFit (peer.sentReliableCommands ++ peer.outgoingReliableCommands))
    (hsend : enetProtocolSendOutgoingCommands host peer checkForTimeouts allocates =
      some (after, datagram)) : after.Accounted after.outgoingReliableCommands := by
  have hsending : after.Sending := sendOutgoing_keeps
    (P := ENetPeer.Sending)
    (Q := fun peer => peer.Accounted peer.outgoingReliableCommands ∧
      AttemptsFit (peer.sentReliableCommands ++ peer.outgoingReliableCommands))
    (fun _ datagram hpeer => sending_sendReliable datagram hpeer)
    (fun _ hpeer => hpeer.queues (queues_ping hpeer.accounted.count allocates))
    (fun _ datagram hpeer => hpeer.queues (.of_same (same_sendUnreliable datagram).1))
    (fun _ _ hpeer => ⟨hpeer.1.same ⟨fun _ => rfl, rfl, rfl, rfl⟩, hpeer.2⟩)
    (fun _ _ hpeer hcheck => sending_checkTimeouts hpeer.1 hpeer.2 hcheck)
    (fun _ hpeer => ⟨hpeer.1, (List.forall_mem_append.mp hpeer.2).2⟩)
    ⟨haccounted, hfits⟩ hsend
  exact hsending.accounted

/-- No command has been tried too often. -/
def PeerRun.AttemptsFit (run : PeerRun) : Prop :=
  Protocol.AttemptsFit (run.peer.sentReliableCommands ++ run.peer.outgoingReliableCommands)

instance (run : PeerRun) : Decidable run.AttemptsFit :=
  inferInstanceAs (Decidable (Protocol.AttemptsFit _))

/-- Each call keeps the account. -/
theorem accounted_step {run next : PeerRun} {event : PeerEvent}
    (haccounted : run.peer.Accounted run.peer.outgoingReliableCommands)
    (hfits : run.AttemptsFit) (hstep : run.step event = some next) :
    next.peer.Accounted next.peer.outgoingReliableCommands := by
  have hcount := haccounted.count
  cases event with
  | send host channelID packet allocates =>
      cases hstep
      exact haccounted.queues (queues_send hcount channelID packet allocates)
  | ping allocates =>
      cases hstep
      exact haccounted.queues (queues_ping hcount allocates)
  | take =>
      cases hstep
      obtain ⟨rest, waiting, hpeer, -⟩ := take_cases run.peer
      dsimp only
      rw [hpeer]
      exact haccounted.same ⟨fun _ => rfl, rfl, rfl, rfl⟩
  | arrive host command data sentTime allocates =>
      obtain ⟨result, hresult, rfl⟩ := Option.map_eq_some_iff.mp hstep
      obtain ⟨middle, handled, hmiddle, hhandled, hlast⟩ := handleIncoming_cases hresult
      have hreceived := haccounted.same hmiddle.outbound
      rcases hhandled with rfl | ⟨number, channelID, rfl⟩
      · exact hreceived.same hlast.outbound
      · exact (accounted_removeSent hreceived rfl).same hlast.outbound
  | service host checkForTimeouts allocates =>
      obtain ⟨result, hsend, rfl⟩ := Option.map_eq_some_iff.mp hstep
      exact accounted_sendOutgoing haccounted hfits hsend
  | bandwidthThrottle host limit bandwidth allocates =>
      cases hstep
      exact haccounted.queues (queues_bandwidthThrottle hcount limit bandwidth allocates)
  | throttleConfigure interval acceleration deceleration allocates =>
      cases hstep
      exact haccounted.queues (queues_throttleConfigure hcount ..)
  | pingInterval pingInterval =>
      cases hstep
      exact haccounted.same ⟨fun _ => rfl, rfl, rfl, rfl⟩
  | timeout timeoutLimit timeoutMinimum timeoutMaximum =>
      cases hstep
      exact haccounted.same ⟨fun _ => rfl, rfl, rfl, rfl⟩

theorem ENetPeer.Fresh.accounted (hfresh : peer.Fresh) :
    peer.Accounted peer.outgoingReliableCommands := by
  refine ⟨hfresh.count, ?_, ?_, ?_, fun channelID _ => ?_, fun channelID _ => ?_⟩
  · rw [hfresh.sent]
    simp
  · rw [hfresh.sent, hfresh.queued]
    simp
  · rw [hfresh.sent, hfresh.queued]
    simp
  · rw [hfresh.sent, hfresh.queued, hfresh.channel]
    refine ⟨rfl, fun window => ?_, fun window => Nat.zero_testBit window⟩
    change (List.replicate ENET_PEER_RELIABLE_WINDOWS 0).getD window 0 = 0
    rw [List.getD_eq_getElem?_getD, List.getElem?_replicate]
    split <;> rfl
  · rw [hfresh.sent, hfresh.queued, hfresh.channel]
    exact ⟨0, by decide, rfl, .nil ..⟩

theorem accounted_run {events : List PeerEvent} {last : PeerRun} (hfresh : peer.Fresh)
    (hfits : EveryState PeerRun.step PeerRun.AttemptsFit { peer := peer } events)
    (hrun : runSteps PeerRun.step { peer := peer } events = some last) :
    last.peer.Accounted last.peer.outgoingReliableCommands :=
  @Runs.runSteps_invariant_of_everyState _ _ PeerRun.step PeerRun.AttemptsFit
    (fun run => run.peer.Accounted run.peer.outgoingReliableCommands)
    (fun _ _ _ haccounted hfits hstep => accounted_step haccounted hfits hstep) events _ _
    hfresh.accounted hfits hrun

/-! ## Counts and numbers in every run -/

section

variable {events : List PeerEvent} {last : PeerRun}

/-- In every run the counts of a channel are those of the numbers that have been sent and not been
acknowledged, and the bits mark the windows these numbers are in. -/
theorem windows_accounted (hfresh : peer.Fresh)
    (hfits : EveryState PeerRun.step PeerRun.AttemptsFit { peer := peer } events)
    (hrun : runSteps PeerRun.step { peer := peer } events = some last)
    (hknown : channelID < last.peer.channels.length) (window : Nat) :
    (last.peer.channel channelID).reliableWindows.getD window 0 =
        Sequence.windowCount ENET_PEER_RELIABLE_WINDOW_SIZE (flying channelID
          (last.peer.sentReliableCommands ++ last.peer.outgoingReliableCommands)) window ∧
      ((last.peer.channel channelID).usedReliableWindows.testBit window ↔
        ∃ number ∈ flying channelID
          (last.peer.sentReliableCommands ++ last.peer.outgoingReliableCommands),
          number / ENET_PEER_RELIABLE_WINDOW_SIZE = window) := by
  have hcounts := (accounted_run hfresh hfits hrun).counts channelID hknown
  refine ⟨hcounts.windows window, ?_⟩
  rw [hcounts.used, decide_eq_true_eq, Sequence.windowCount_pos_iff]

/-- A packet of one byte, to be sent on the first channel. -/
def sampleSend (byte : UInt8) : PeerEvent :=
  .send {} 0 { reliable := true, data := [some byte] } true

/-- The receiver has got the packet with this number. -/
def sampleAcknowledge (number : Nat) : PeerEvent :=
  .arrive { serviceTime := 1000 } { channelID := 0, body := .acknowledge number 1000 } [] none true

/-- Of four packets the second one is acknowledged, the others time out and are sent again, and two
more are queued. -/
def sampleSending : List PeerEvent :=
  [sampleSend 10, sampleSend 20, sampleSend 30, sampleSend 40,
    .service { serviceTime := 1000 } true true, sampleAcknowledge 2,
    .service { serviceTime := 3000 } true true, sampleSend 50, sampleSend 60]

def samplePeer : ENetPeer := { channels := [{}] }

theorem samplePeer_fresh : samplePeer.Fresh :=
  ⟨rfl, by decide, by decide, fun _ hchannel => List.mem_singleton.mp hchannel, rfl, rfl, rfl⟩

/-- The peer behind these calls. -/
def sampleSent : PeerRun :=
  (runSteps PeerRun.step { peer := samplePeer } sampleSending).getD { peer := samplePeer }

theorem sampleSent_run :
    runSteps PeerRun.step { peer := samplePeer } sampleSending = some sampleSent := by
  decide +kernel

theorem windows_accounted_acknowledged :
    sampleSent.peer.sentReliableCommands.map (·.sendAttempts) = [2, 2, 2] ∧
      (sampleSent.peer.channel 0).reliableWindows.getD 0 0 = 3 ∧
      (sampleSent.peer.channel 0).usedReliableWindows.testBit 0 := by
  obtain ⟨hcount, hbit⟩ := @windows_accounted samplePeer 0 sampleSending sampleSent
    samplePeer_fresh (by decide +kernel) sampleSent_run (by decide +kernel) 0
  exact ⟨by decide +kernel, hcount.trans (by decide +kernel), hbit.mpr ⟨1, by decide +kernel⟩⟩

/-- In every run the numbers on their way on a channel are different from each other, so that an
acknowledgement is for one command at most. They lie in the window of the last one that was sent
for the first time, not behind it, and in the eight windows before; and the numbers that wait
follow it one after the other, up to the last one given out. -/
theorem numbers_in_flight (hfresh : peer.Fresh)
    (hfits : EveryState PeerRun.step PeerRun.AttemptsFit { peer := peer } events)
    (hrun : runSteps PeerRun.step { peer := peer } events = some last)
    (hknown : channelID < last.peer.channels.length) :
    (flying channelID
        (last.peer.sentReliableCommands ++ last.peer.outgoingReliableCommands)).Nodup ∧
      ∃ newest,
        Sequence.Follows (2 ^ 16) newest
          (waiting channelID last.peer.outgoingReliableCommands)
          (last.peer.channel channelID).outgoingReliableSequenceNumber ∧
        ∀ number ∈ flying channelID
          (last.peer.sentReliableCommands ++ last.peer.outgoingReliableCommands),
          (number / ENET_PEER_RELIABLE_WINDOW_SIZE = newest / ENET_PEER_RELIABLE_WINDOW_SIZE →
            number ≤ newest) ∧
          ∃ behind ≤ 8, newest / ENET_PEER_RELIABLE_WINDOW_SIZE =
            (number / ENET_PEER_RELIABLE_WINDOW_SIZE + behind) % ENET_PEER_RELIABLE_WINDOWS := by
  have haccounted := accounted_run hfresh hfits hrun
  obtain ⟨newest, hnewest, hfollows, hwindows⟩ := haccounted.numbers channelID hknown
  refine ⟨hwindows.distinct, newest, hfollows, fun number hnumber =>
    ⟨hwindows.passed number hnumber, ?_⟩⟩
  obtain ⟨outgoing, hin, rfl⟩ := List.mem_map.mp hnumber
  exact hwindows.behind (by decide) hnewest hnumber
    (haccounted.numbered outgoing (List.mem_of_mem_filter hin))

theorem numbers_in_flight_acknowledged : ∃ newest,
    flying 0 (sampleSent.peer.sentReliableCommands ++ sampleSent.peer.outgoingReliableCommands) =
        [1, 3, 4] ∧
      Sequence.Follows (2 ^ 16) newest [5, 6] 6 ∧ 4 ≤ newest := by
  have hflying : flying 0 (sampleSent.peer.sentReliableCommands ++
      sampleSent.peer.outgoingReliableCommands) = [1, 3, 4] := by decide +kernel
  have hwaiting : waiting 0 sampleSent.peer.outgoingReliableCommands = [5, 6] := by
    decide +kernel
  have hgiven : (sampleSent.peer.channel 0).outgoingReliableSequenceNumber = 6 := by
    decide +kernel
  obtain ⟨-, newest, hfollows, hnumbers⟩ := @numbers_in_flight samplePeer 0 sampleSending
    sampleSent samplePeer_fresh (by decide +kernel) sampleSent_run (by decide +kernel)
  rw [hwaiting, hgiven] at hfollows
  rw [hflying] at hnumbers
  have hnext : 5 = (newest + 1) % 2 ^ 16 := hfollows.1
  obtain ⟨hpassed, behind, hbehind, hwindow⟩ := hnumbers 4 (by simp)
  refine ⟨newest, hflying, hfollows, ?_⟩
  simp only [ENET_PEER_RELIABLE_WINDOW_SIZE, ENET_PEER_RELIABLE_WINDOWS] at hpassed hwindow
  omega

end

end SrmotionProxy.ENet.Protocol
