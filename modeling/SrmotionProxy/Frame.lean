/-
# What forwarding leaves alone

The loops and handlers work on pointers into the packet they forward. This module says
which bytes of a forwarded packet can differ from the received ones: the fields that are
edited on purpose, the last byte of a text and the data size of a game packet without
extended data, both of which the accessors clear.
-/

import SrmotionProxy.Verdict

namespace SrmotionProxy.Server

open SrmotionProxy.Lib SrmotionProxy.ENet SrmotionProxy.Proton

/-! ## Touched bytes -/

/-- The fields that `pingreply` writes: jump amount, player flags and both vectors. -/
def ReplyField (i : Nat) : Prop := i = 6 ∨ (8 ≤ i ∧ i < 12) ∨ (28 ≤ i ∧ i < 44)

/-- The data size of a game packet without extended data. -/
def SizeField (packet : Bytes) (i : Nat) : Prop :=
  Packet.mPacketFlags packet &&& 8 = 0 ∧ 56 ≤ i ∧ i < 60

/-- The bytes of a client packet that may change on the way. -/
def TouchedOutgoing (packet : Bytes) (i : Nat) : Prop :=
  IsText packet ∧ i = packet.length - 1 ∨
    ∃ struct, structOf packet = some struct ∧
      (SizeField packet i ∨ Packet.mType struct = PACKET_PING_REPLY ∧ ReplyField i)

/-- The bytes of a server packet that may change on the way; `m_count` is at offset 7. -/
def TouchedIncoming (out : Settings) (packet : Bytes) (i : Nat) : Prop :=
  (IsText packet ∨ getPacketType packet = NET_MESSAGE_TRACK) ∧ i = packet.length - 1 ∨
    ∃ struct, structOf packet = some struct ∧
      (SizeField packet i ∨
        (Packet.mType struct = 8 ∧ Packet.mIntData struct = 0 ∧ out.visdice = true) ∧ i = 7)

/-- The bytes of the packet of an input that may change on the way. -/
def Touched (state : ProxyState) : Input → Nat → Prop
  | .client _ (.receive packet) => TouchedOutgoing packet
  | .server (.receive packet) => TouchedIncoming state.out packet
  | _ => fun _ => False

/-! ## Frames of the edits -/

theorem clearLast_sameOutside {touched : Nat → Prop} {packet : Bytes} (hsome : packet ≠ [])
    (hlast : touched (packet.length - 1)) : SameOutside touched packet (clearLast packet) := by
  have hlength := List.length_pos_iff.mpr hsome
  refine SameOutside.overwrite (by simp only [List.length_singleton]; omega) fun i hfrom hto => ?_
  rw [List.length_singleton] at hto
  rwa [show i = packet.length - 1 by omega]

/-- An accepted struct is long enough, and at most its size was cleared. -/
theorem structOf_sameOutside {packet struct : Bytes} (hstruct : structOf packet = some struct) :
    60 ≤ packet.length ∧ SameOutside (SizeField packet) packet struct := by
  obtain ⟨-, hview⟩ := structOf_eq_some hstruct
  unfold getStruct at hview
  by_cases hshort : packet.length < sizeofGameUpdatePacket - 4
  · rw [if_pos hshort] at hview
    cases hview
  rw [if_neg hshort] at hview
  by_cases hlong : packet.length < 60
  · rw [if_pos hlong] at hview
    cases hview
  rw [if_neg hlong] at hview
  refine ⟨Nat.le_of_not_lt hlong, ?_⟩
  by_cases hextended : Packet.mPacketFlags packet &&& 8 ≠ 0
  · rw [if_pos hextended] at hview
    by_cases hsmall : packet.length < (Packet.mDataSize packet + 60).toNat
    · rw [if_pos hsmall] at hview
      cases hview
    · rw [if_neg hsmall] at hview
      cases hview
      exact .refl _ _
  · rw [if_neg hextended] at hview
    cases hview
    refine SameOutside.overwrite (by rw [length_le32]; omega) fun i hfrom hto => ?_
    rw [length_le32] at hto
    exact ⟨not_not.mp hextended, hfrom, by omega⟩

theorem pingreply_sameOutside {struct : Bytes} (hlong : 60 ≤ struct.length) :
    SameOutside ReplyField struct (Events.Out.pingreply struct) := by
  have hword (buffer : Bytes) (hbuffer : 60 ≤ buffer.length) (offset : Nat) (word : UInt32)
      (hfield : ∀ i, offset ≤ i → i < offset + 4 → ReplyField i) (hinside : offset + 4 ≤ 60) :
      SameOutside ReplyField buffer (overwrite buffer offset (le32 word)) := by
    refine SameOutside.overwrite (by rw [length_le32]; omega) fun i hfrom hto => ?_
    rw [length_le32] at hto
    exact hfield i hfrom hto
  have hvector (i : Nat) (hfrom : 28 ≤ i) (hto : i < 44) : ReplyField i := .inr (.inr ⟨hfrom, hto⟩)
  have hgravity := hword struct hlong 36 0x447A0000 (fun i _ _ => hvector i (by omega) (by omega))
    (by decide)
  have hspeed := hgravity.trans (hword _ (hgravity.length ▸ hlong) 40 0x437A0000
    (fun i _ _ => hvector i (by omega) (by omega)) (by decide))
  have hpunch := hspeed.trans (hword _ (hspeed.length ▸ hlong) 28 0x42800000
    (fun i _ _ => hvector i (by omega) (by omega)) (by decide))
  have hbuild := hpunch.trans (hword _ (hpunch.length ▸ hlong) 32 0x42800000
    (fun i _ _ => hvector i (by omega) (by omega)) (by decide))
  have hjump := hbuild.trans (@SameOutside.overwrite ReplyField _ [0] 6
    (by rw [hbuild.length, List.length_singleton]; omega) fun i hfrom hto =>
      .inl (by rw [List.length_singleton] at hto; omega))
  exact hjump.trans (hword _ (hjump.length ▸ hlong) 8 _
    (fun i hfrom hto => .inr (.inl ⟨hfrom, by omega⟩)) (by decide))

/-! ## The forwarded bytes -/

theorem editedOutgoing_sameOutside {packet : Bytes} (hsome : packet ≠ []) :
    SameOutside (TouchedOutgoing packet) packet (editedOutgoing packet) := by
  unfold editedOutgoing
  by_cases htext : IsText packet
  · rw [if_pos htext]
    exact clearLast_sameOutside hsome (.inl ⟨htext, rfl⟩)
  rw [if_neg htext]
  cases hstruct : structOf packet with
  | none => exact .refl _ _
  | some struct =>
      obtain ⟨hlong, hsize⟩ := structOf_sameOutside hstruct
      have hcleared : SameOutside (TouchedOutgoing packet) packet struct :=
        hsize.mono fun i hi => .inr ⟨struct, hstruct, .inl hi⟩
      rw [Option.elim_some, editReply]
      by_cases hreply : Packet.mType struct = PACKET_PING_REPLY
      · rw [if_pos hreply]
        have hedit := pingreply_sameOutside (hsize.length ▸ hlong)
        exact hcleared.trans (hedit.mono fun i hi => .inr ⟨struct, hstruct, .inr ⟨hreply, hi⟩⟩)
      · rw [if_neg hreply]
        exact hcleared

theorem editedIncoming_sameOutside (out : Settings) {packet : Bytes} (hsome : packet ≠ []) :
    SameOutside (TouchedIncoming out packet) packet (editedIncoming out packet) := by
  unfold editedIncoming
  by_cases htext : IsText packet ∨ getPacketType packet = NET_MESSAGE_TRACK
  · rw [if_pos htext]
    exact clearLast_sameOutside hsome (.inl ⟨htext, rfl⟩)
  rw [if_neg htext]
  cases hstruct : structOf packet with
  | none => exact .refl _ _
  | some struct =>
      obtain ⟨hlong, hsize⟩ := structOf_sameOutside hstruct
      have hcleared : SameOutside (TouchedIncoming out packet) packet struct :=
        hsize.mono fun i hi => .inr ⟨struct, hstruct, .inl hi⟩
      rw [Option.elim_some, editDice]
      by_cases hdice : Packet.mType struct = 8 ∧ Packet.mIntData struct = 0 ∧ out.visdice = true
      · rw [if_pos hdice]
        refine hcleared.trans (SameOutside.overwrite ?_ fun i hfrom hto => ?_)
        · rw [hsize.length, List.length_singleton]
          omega
        · rw [List.length_singleton] at hto
          exact .inr ⟨struct, hstruct, .inr ⟨hdice, by omega⟩⟩
      · rw [if_neg hdice]
        exact hcleared

/-- The packet of a step is handed over with this content. -/
def Forwards (state after : ProxyState) (data : Bytes) : Prop :=
  ∃ peer code, packetCalls after.trace =
    .peerSend peer .received data code :: packetCalls state.trace

theorem sendAndFlush_received (state : ProxyState) (peer : Peer) (host : Host) (packet : Bytes) :
    packetCalls (state.sendAndFlush .received peer host packet).trace =
      .peerSend peer .received packet (state.sendCode packet) :: packetCalls state.trace := rfl

/-- What is forwarded is the received packet with the edits, and outside the touched
bytes it is the received packet. -/
theorem forwarded_frame {state after : ProxyState} {input : Input} {packet data : Bytes}
    (hpacket : input.packet = some packet) (hlength : 4 ≤ packet.length)
    (hstep : step state input = some after) (hforwards : Forwards state after data) :
    data = edited state input ∧ SameOutside (Touched state input) packet data := by
  obtain ⟨peer, code, hcalls⟩ := hforwards
  obtain ⟨verdict, middle, hjudged, hquiet, hends⟩ := receive_cases hpacket hstep
  have hsome : packet ≠ [] := List.ne_nil_of_length_pos (by omega)
  have hedited : data = edited state input := by
    cases hends with
    | ignored =>
        rw [hquiet] at hcalls
        exact absurd hcalls.symm (List.cons_ne_self _ _)
    | consumed =>
        change .packetDestroy :: packetCalls middle.trace = _ at hcalls
        rw [List.cons.injEq] at hcalls
        cases hcalls.1
    | stranded _ given htarget =>
        rw [hquiet] at hcalls
        exact absurd hcalls.symm (List.cons_ne_self _ _)
    | sent _ given peer host htarget =>
        rw [sendAndFlush_received, List.cons.injEq, Call.peerSend.injEq] at hcalls
        rw [← hcalls.1.2.2.1]
        exact (judged_for hjudged).forwarded given rfl
  refine ⟨hedited, ?_⟩
  rw [hedited]
  cases input with
  | client slot event =>
      cases event with
      | connect => cases hpacket
      | disconnect => cases hpacket
      | receive received =>
          cases hpacket
          exact editedOutgoing_sameOutside hsome
  | server event =>
      cases event with
      | connect => cases hpacket
      | disconnect => cases hpacket
      | receive received =>
          cases hpacket
          exact editedIncoming_sameOutside state.out hsome

/-- A ping reply, with all its fields and the size zero. -/
def pingReply : Bytes := overwrite (overwrite (zeros 64) 0 [4]) 4 [PACKET_PING_REPLY]

/-- A ping reply goes through with other values in the fields of the reply, and with the rest of
its bytes. -/
theorem forwarded_frame_ping_reply :
    ∃ after packet, step betweenPeers (.client 0 (.receive pingReply)) = some after ∧
      Forwards betweenPeers after packet ∧ packet ≠ pingReply ∧
      SameOutside (Touched betweenPeers (.client 0 (.receive pingReply))) pingReply packet := by
  have hany : ((step betweenPeers (.client 0 (.receive pingReply))).any fun after =>
      decide (packetCalls after.trace = [.peerSend ⟨1, 0⟩ .received
        (edited betweenPeers (.client 0 (.receive pingReply))) 0])) = true := by decide +kernel
  obtain ⟨after, hstep, hcalls⟩ := (Option.any_eq_true _ _).mp hany
  have hforwards : Forwards betweenPeers after
      (edited betweenPeers (.client 0 (.receive pingReply))) :=
    ⟨⟨1, 0⟩, 0, of_decide_eq_true hcalls⟩
  exact ⟨after, _, hstep, hforwards, by decide +kernel,
    (forwarded_frame rfl (by decide) hstep hforwards).2⟩

/-- The last byte of a game message is forwarded as zero. -/
theorem message_loses_last_byte :
    ∃ after, step betweenPeers (.client 0 (.receive [3, 0, 0, 0, 65])) = some after ∧
      Forwards betweenPeers after [3, 0, 0, 0, 0] := by
  have hany : ((step betweenPeers (.client 0 (.receive [3, 0, 0, 0, 65]))).any fun after =>
      decide (packetCalls after.trace =
        [.peerSend ⟨1, 0⟩ .received [3, 0, 0, 0, 0] 0])) = true := by
    decide +kernel
  obtain ⟨after, hstep, hcalls⟩ := (Option.any_eq_true _ _).mp hany
  exact ⟨after, hstep, ⟨1, 0⟩, 0, of_decide_eq_true hcalls⟩

end SrmotionProxy.Server
