/-
# Reliable windows

A channel counts, for each of its sixteen windows of sequence numbers, the commands of that
window that are on their way, and has one bit for each window in use. Before a command starts a
new window the sender consults these counts. What they say when they are right, and what is to
be kept for that: the numbers on their way lie in windows as the sender needs them, and those
that wait follow each other.
-/

import SrmotionProxy.ENet.PeerRuns
import SrmotionProxy.Lib.Sequence

namespace SrmotionProxy.ENet.Protocol

open SrmotionProxy.Lib

/-! ## Counts -/

/-- The channel has this count for every window. -/
structure OutgoingChannel.Counts (channel : OutgoingChannel) (count : Nat → Nat) : Prop where
  size : channel.reliableWindows.length = ENET_PEER_RELIABLE_WINDOWS
  windows : ∀ window, channel.reliableWindows.getD window 0 = count window
  used : ∀ window, channel.usedReliableWindows.testBit window = decide (0 < count window)

section

variable {channel : OutgoingChannel} {count : Nat → Nat} {window : Nat}

theorem OutgoingChannel.Counts.lt_of_pos (hcounts : channel.Counts count)
    (hpos : 0 < count window) : window < ENET_PEER_RELIABLE_WINDOWS := by
  by_contra hbeyond
  rw [← hcounts.windows, List.getD_eq_getElem?_getD,
    List.getElem?_eq_none (hcounts.size.trans_le (not_lt.mp hbeyond))] at hpos
  exact lt_irrefl 0 hpos

theorem leaveWindow_number (channel : OutgoingChannel) (window : Nat) :
    (channel.leaveWindow window).outgoingReliableSequenceNumber =
      channel.outgoingReliableSequenceNumber := by
  unfold OutgoingChannel.leaveWindow
  dsimp only
  split <;> rfl

theorem getD_set (windows : List Nat) {window : Nat} (hwindow : window < windows.length)
    (value other : Nat) :
    (windows.set window value).getD other 0 =
      if other = window then value else windows.getD other 0 := by
  simp only [List.getD_eq_getElem?_getD, List.getElem?_set]
  by_cases hsame : other = window
  · rw [if_pos hsame, if_pos hsame.symm, if_pos hwindow]
    rfl
  · rw [if_neg hsame, if_neg (Ne.symm hsame)]

theorem OutgoingChannel.Counts.enterWindow (hcounts : channel.Counts count)
    (hwindow : window < ENET_PEER_RELIABLE_WINDOWS) (hroom : count window + 1 < 2 ^ 16) :
    (channel.enterWindow window).Counts (Function.update count window (count window + 1)) := by
  have hsize := hwindow.trans_eq hcounts.size.symm
  refine ⟨List.length_set.trans hcounts.size, fun other => ?_, fun other => ?_⟩
  · rw [OutgoingChannel.enterWindow, getD_set _ hsize, Function.update_apply, hcounts.windows,
      hcounts.windows, Nat.mod_eq_of_lt hroom]
  · rw [OutgoingChannel.enterWindow, Nat.testBit_or, Nat.one_shiftLeft, Nat.testBit_two_pow,
      hcounts.used, Function.update_apply]
    by_cases hsame : other = window
    · simp [hsame]
    · simp [hsame, Ne.symm hsame]

theorem OutgoingChannel.Counts.leaveWindow (hcounts : channel.Counts count)
    (hpos : 0 < count window) :
    (channel.leaveWindow window).Counts (Function.update count window (count window - 1)) := by
  have hwindow := hcounts.lt_of_pos hpos
  have hsize := hwindow.trans_eq hcounts.size.symm
  rw [OutgoingChannel.leaveWindow, hcounts.windows, if_pos hpos]
  refine ⟨List.length_set.trans hcounts.size, fun other => ?_, fun other => ?_⟩
  · rw [getD_set _ hsize, Function.update_apply, hcounts.windows]
  · dsimp only
    rw [Function.update_apply]
    by_cases hlast : count window - 1 = 0
    · rw [if_pos hlast, Nat.testBit_and, Nat.testBit_xor, Nat.testBit_two_pow_sub_one,
        Nat.one_shiftLeft, Nat.testBit_two_pow, hcounts.used]
      by_cases hsame : other = window
      · simp [hsame, hlast, hwindow.trans_le (le_refl 16)]
      · rw [if_neg hsame, decide_eq_false (Ne.symm hsame), Bool.xor_false]
        by_cases hother : 0 < count other
        · simp [hother, (hcounts.lt_of_pos hother).trans_le (le_refl 16)]
        · simp [hother]
    · rw [if_neg hlast, hcounts.used]
      by_cases hsame : other = window
      · rw [if_pos hsame, hsame, decide_eq_true hpos, decide_eq_true (Nat.pos_of_ne_zero hlast)]
      · rw [if_neg hsame]

end

/-! ## Commands on their way -/

/-- The command is on its way, on this channel. -/
def ENetOutgoingCommand.flies (channelID : Nat) (outgoing : ENetOutgoingCommand) : Bool :=
  outgoing.command.channelID = channelID ∧ outgoing.attempted

/-- The command waits to be sent for the first time, on this channel. -/
def ENetOutgoingCommand.waits (channelID : Nat) (outgoing : ENetOutgoingCommand) : Bool :=
  outgoing.command.channelID = channelID ∧ ¬ outgoing.attempted

/-- The sequence numbers on their way on a channel: sent and not acknowledged. -/
def flying (channelID : Nat) (commands : List ENetOutgoingCommand) : List Nat :=
  (commands.filter (·.flies channelID)).map (·.reliableSequenceNumber)

/-- The sequence numbers of a channel that wait to be sent. -/
def waiting (channelID : Nat) (commands : List ENetOutgoingCommand) : List Nat :=
  (commands.filter (·.waits channelID)).map (·.reliableSequenceNumber)

/-- What a timeout does not change of a command. -/
def ENetOutgoingCommand.label (outgoing : ENetOutgoingCommand) : ENetOutgoingOrder × Nat :=
  (outgoing.toENetOutgoingOrder, outgoing.sendAttempts)

section

variable {channelID : Nat} {first second : List ENetOutgoingCommand}
  {outgoing : ENetOutgoingCommand}

theorem flying_cons_of_flies (hflies : outgoing.flies channelID) :
    flying channelID (outgoing :: first) =
      outgoing.reliableSequenceNumber :: flying channelID first := by
  rw [flying, List.filter_cons_of_pos hflies]
  rfl

theorem flying_cons_of_not (hflies : ¬ outgoing.flies channelID) :
    flying channelID (outgoing :: first) = flying channelID first := by
  rw [flying, List.filter_cons_of_neg hflies]
  rfl

theorem waiting_cons_of_waits (hwaits : outgoing.waits channelID) :
    waiting channelID (outgoing :: first) =
      outgoing.reliableSequenceNumber :: waiting channelID first := by
  rw [waiting, List.filter_cons_of_pos hwaits]
  rfl

theorem waiting_cons_of_not (hwaits : ¬ outgoing.waits channelID) :
    waiting channelID (outgoing :: first) = waiting channelID first := by
  rw [waiting, List.filter_cons_of_neg hwaits]
  rfl

theorem flying_append (channelID : Nat) (first second : List ENetOutgoingCommand) :
    flying channelID (first ++ second) = flying channelID first ++ flying channelID second := by
  simp only [flying, List.filter_append, List.map_append]

theorem waiting_append (channelID : Nat) (first second : List ENetOutgoingCommand) :
    waiting channelID (first ++ second) =
      waiting channelID first ++ waiting channelID second := by
  simp only [waiting, List.filter_append, List.map_append]

theorem not_attempted (hattempts : outgoing.sendAttempts = 0) : ¬ outgoing.attempted := by
  rw [ENetOutgoingCommand.attempted, hattempts]
  decide

/-- Commands that have been tried do not wait. -/
theorem waiting_of_attempted (hattempted : ∀ outgoing ∈ first, outgoing.attempted) :
    waiting channelID first = [] := by
  rw [waiting, List.filter_eq_nil_iff.mpr fun outgoing hin hwaits =>
    (of_decide_eq_true hwaits).2 (hattempted outgoing hin)]
  rfl

/-- Commands that have not been tried are not on their way. -/
theorem flying_of_idle (hidle : ∀ outgoing ∈ first, ¬ outgoing.attempted) :
    flying channelID first = [] := by
  rw [flying, List.filter_eq_nil_iff.mpr fun outgoing hin hflies =>
    hidle outgoing hin (of_decide_eq_true hflies).2]
  rfl

theorem flying_perm (hperm : first.Perm second) :
    (flying channelID first).Perm (flying channelID second) :=
  (hperm.filter _).map _

theorem flying_sublist (hsublist : first.Sublist second) :
    (flying channelID first).Sublist (flying channelID second) :=
  (hsublist.filter _).map _

/-- What is on its way depends on the labels only. -/
theorem flying_perm_of_labels (hperm : (first.map (·.label)).Perm (second.map (·.label))) :
    (flying channelID first).Perm (flying channelID second) := by
  have hflying (commands : List ENetOutgoingCommand) : flying channelID commands =
      ((commands.map (·.label)).filter fun label =>
        label.1.command.channelID = channelID ∧ 1 ≤ label.2).map (·.1.reliableSequenceNumber) := by
    rw [List.filter_map, List.map_map, flying]
    congr 2
    funext outgoing
    simp [ENetOutgoingCommand.flies, ENetOutgoingCommand.attempted, ENetOutgoingCommand.label]
  rw [hflying, hflying]
  exact (hperm.filter _).map _

theorem forall_of_labels {P : ENetOutgoingOrder × Nat → Prop}
    (hperm : (first.map (·.label)).Perm (second.map (·.label)))
    (hsecond : ∀ outgoing ∈ second, P outgoing.label) : ∀ outgoing ∈ first, P outgoing.label := by
  rw [← List.forall_mem_map] at hsecond ⊢
  exact fun label hlabel => hsecond label (hperm.subset hlabel)

end

/-- No command has been tried so often that its 16 bit count of attempts would start again. -/
def AttemptsFit (commands : List ENetOutgoingCommand) : Prop :=
  ∀ outgoing ∈ commands, outgoing.sendAttempts + 1 < 2 ^ 16

instance (commands : List ENetOutgoingCommand) : Decidable (AttemptsFit commands) :=
  inferInstanceAs (Decidable (∀ outgoing ∈ commands, outgoing.sendAttempts + 1 < 2 ^ 16))

/-- The numbers of a channel: those that wait follow the last one sent, up to the last one given
out, and those on their way lie in its windows. -/
def OutgoingChannel.Numbers (channel : OutgoingChannel) (waiting flying : List Nat) : Prop :=
  ∃ last < 2 ^ 16,
    Sequence.Follows (2 ^ 16) last waiting channel.outgoingReliableSequenceNumber ∧
    Sequence.InWindows ENET_PEER_RELIABLE_WINDOW_SIZE ENET_PEER_RELIABLE_WINDOWS
      ENET_PEER_FREE_RELIABLE_WINDOWS last flying

theorem OutgoingChannel.Numbers.subperm {channel : OutgoingChannel} {waiting fewer more : List Nat}
    (hnumbers : channel.Numbers waiting more) (hfewer : fewer.Subperm more) :
    channel.Numbers waiting fewer := by
  obtain ⟨last, hlast, hfollows, hwindows⟩ := hnumbers
  exact ⟨last, hlast, hfollows, hwindows.subperm hfewer⟩

/-- What is kept of the commands to be acknowledged, with the queue given separately. -/
structure ENetPeer.Accounted (peer : ENetPeer) (queue : List ENetOutgoingCommand) : Prop where
  count : peer.channels.length ≤ 255
  attempted : ∀ outgoing ∈ peer.sentReliableCommands, outgoing.attempted
  numbered : ∀ outgoing ∈ peer.sentReliableCommands ++ queue,
    outgoing.reliableSequenceNumber < 2 ^ 16
  packets : ∀ outgoing ∈ peer.sentReliableCommands ++ queue,
    outgoing.command.channelID < peer.channels.length → outgoing.packet.isSome
  counts : ∀ channelID < peer.channels.length, (peer.channel channelID).toOutgoingChannel.Counts
    (Sequence.windowCount ENET_PEER_RELIABLE_WINDOW_SIZE
      (flying channelID (peer.sentReliableCommands ++ queue)))
  numbers : ∀ channelID < peer.channels.length, (peer.channel channelID).toOutgoingChannel.Numbers
    (waiting channelID queue) (flying channelID (peer.sentReliableCommands ++ queue))

theorem ENetPeer.Accounted.same {before after : ENetPeer}
    (haccounted : before.Accounted before.outgoingReliableCommands)
    (hsame : SameOutbound before after) : after.Accounted after.outgoingReliableCommands where
  count := hsame.length.trans_le haccounted.count
  attempted := by
    rw [hsame.sent]
    exact haccounted.attempted
  numbered := by
    rw [hsame.sent, hsame.queued]
    exact haccounted.numbered
  packets := by
    rw [hsame.sent, hsame.queued, hsame.length]
    exact haccounted.packets
  counts channelID hknown := by
    rw [hsame.channel, hsame.sent, hsame.queued]
    exact haccounted.counts channelID (hknown.trans_eq hsame.length)
  numbers channelID hknown := by
    rw [hsame.channel, hsame.sent, hsame.queued]
    exact haccounted.numbers channelID (hknown.trans_eq hsame.length)

/-! ## Starting a window -/

theorem window_lt {number : Nat} (hnumber : number < 2 ^ 16) :
    number / ENET_PEER_RELIABLE_WINDOW_SIZE < ENET_PEER_RELIABLE_WINDOWS :=
  Nat.div_lt_of_lt_mul hnumber

/-- The mask has the window itself and the seven windows behind it, around the end. -/
theorem testBit_freeWindows :
    ∀ window < ENET_PEER_RELIABLE_WINDOWS, ∀ other < ENET_PEER_RELIABLE_WINDOWS,
      ((freeWindows window).testBit other ↔ ∃ ahead < ENET_PEER_FREE_RELIABLE_WINDOWS,
        (window + ahead) % ENET_PEER_RELIABLE_WINDOWS = other) := by
  decide +kernel

variable {channel : OutgoingChannel} {count : Nat → Nat} {outgoing : ENetOutgoingCommand}

/-- What the bits say about a range of windows, the counts say as well. -/
theorem OutgoingChannel.Counts.used_and_ne_zero (hcounts : channel.Counts count) {window : Nat}
    (hwindow : window < ENET_PEER_RELIABLE_WINDOWS) :
    channel.usedReliableWindows &&& freeWindows window ≠ 0 ↔
      ∃ ahead < ENET_PEER_FREE_RELIABLE_WINDOWS,
        0 < count ((window + ahead) % ENET_PEER_RELIABLE_WINDOWS) := by
  constructor
  · intro hused
    obtain ⟨other, hbit⟩ := Nat.exists_testBit_of_ne_zero hused
    rw [Nat.testBit_and, Bool.and_eq_true, hcounts.used, decide_eq_true_eq] at hbit
    obtain ⟨ahead, hahead, rfl⟩ :=
      (testBit_freeWindows window hwindow other (hcounts.lt_of_pos hbit.1)).mp hbit.2
    exact ⟨ahead, hahead, hbit.1⟩
  · rintro ⟨ahead, hahead, hpos⟩ hzero
    have hother := Nat.mod_lt (window + ahead) (show 0 < ENET_PEER_RELIABLE_WINDOWS by decide)
    have hbit := (testBit_freeWindows window hwindow _ hother).mpr ⟨ahead, hahead, rfl⟩
    have hnone := congrArg (Nat.testBit · ((window + ahead) % ENET_PEER_RELIABLE_WINDOWS)) hzero
    simp only [Nat.testBit_and, hcounts.used, hbit, decide_eq_true hpos, Nat.zero_testBit] at hnone
    cases hnone

theorem OutgoingChannel.Counts.wraps_iff (hcounts : channel.Counts count)
    (hnumber : outgoing.reliableSequenceNumber < 2 ^ 16) :
    channel.wraps outgoing ↔
      ¬ outgoing.attempted ∧
      outgoing.reliableSequenceNumber % ENET_PEER_RELIABLE_WINDOW_SIZE = 0 ∧
      (ENET_PEER_RELIABLE_WINDOW_SIZE ≤ count
          ((outgoing.reliableSequenceNumber / ENET_PEER_RELIABLE_WINDOW_SIZE +
            ENET_PEER_RELIABLE_WINDOWS - 1) % ENET_PEER_RELIABLE_WINDOWS) ∨
        ∃ ahead < ENET_PEER_FREE_RELIABLE_WINDOWS, 0 < count
          ((outgoing.reliableSequenceNumber / ENET_PEER_RELIABLE_WINDOW_SIZE + ahead) %
            ENET_PEER_RELIABLE_WINDOWS)) := by
  unfold OutgoingChannel.wraps
  rw [decide_eq_true_iff, hcounts.windows, hcounts.used_and_ne_zero (window_lt hnumber)]

/-- A command that starts a window and need not wait finds this window and the seven behind it
empty. -/
theorem OutgoingChannel.Counts.clear {numbers : List Nat}
    (hcounts : channel.Counts (Sequence.windowCount ENET_PEER_RELIABLE_WINDOW_SIZE numbers))
    (hnumber : outgoing.reliableSequenceNumber < 2 ^ 16) (hidle : ¬ outgoing.attempted)
    (hwraps : ¬ channel.wraps outgoing) :
    outgoing.reliableSequenceNumber % ENET_PEER_RELIABLE_WINDOW_SIZE = 0 →
      ∀ other ∈ numbers, ∀ ahead < ENET_PEER_FREE_RELIABLE_WINDOWS,
        other / ENET_PEER_RELIABLE_WINDOW_SIZE ≠
          (outgoing.reliableSequenceNumber / ENET_PEER_RELIABLE_WINDOW_SIZE + ahead) %
            ENET_PEER_RELIABLE_WINDOWS := by
  intro hstart other hother ahead hahead hwindow
  refine hwraps ((hcounts.wraps_iff hnumber).mpr ⟨hidle, hstart, .inr ⟨ahead, hahead, ?_⟩⟩)
  exact Sequence.windowCount_pos_iff.mpr ⟨other, hother, hwindow⟩

/-- The first number that waits is sent: it is on its way from then on, and counted once. -/
theorem OutgoingChannel.Counts.send {rest numbers : List Nat}
    (hcounts : channel.Counts (Sequence.windowCount ENET_PEER_RELIABLE_WINDOW_SIZE numbers))
    (hnumbers : channel.Numbers (outgoing.reliableSequenceNumber :: rest) numbers)
    (hnumber : outgoing.reliableSequenceNumber < 2 ^ 16) (hidle : ¬ outgoing.attempted)
    (hwraps : ¬ channel.wraps outgoing) :
    let entered := channel.enterWindow
      (outgoing.reliableSequenceNumber / ENET_PEER_RELIABLE_WINDOW_SIZE)
    entered.Counts (Sequence.windowCount ENET_PEER_RELIABLE_WINDOW_SIZE
        (outgoing.reliableSequenceNumber :: numbers)) ∧
      entered.Numbers rest (outgoing.reliableSequenceNumber :: numbers) := by
  obtain ⟨last, hlast, ⟨hnext, hfollows⟩, hwindows⟩ := hnumbers
  have hroom := hwindows.windowCount_le (by decide)
    (outgoing.reliableSequenceNumber / ENET_PEER_RELIABLE_WINDOW_SIZE)
  rw [Sequence.windowCount_cons]
  exact ⟨hcounts.enterWindow (window_lt hnumber)
      ((Nat.succ_le_succ hroom).trans_lt (by decide)),
    _, hnumber, hfollows,
    hwindows.send (by decide) hnext hlast (hcounts.clear hnumber hidle hwraps)⟩

end SrmotionProxy.ENet.Protocol
