/-
# Packets in fragments

A packet that does not fit into a datagram is cut into fragments, each a command of its own. The
receiver copies each into the packet it puts together and notes it in a bit map. The pieces
cover the packet, and whatever the order they come in, and however often, the map tells when
every one is in place.
-/

import SrmotionProxy.ENet.Protocol

namespace SrmotionProxy.ENet.Protocol

open SrmotionProxy.Lib

/-! ## Cutting -/

section

variable {total rounds fragmentOffset fragmentLength : Nat}

/-- While bytes are left, a piece is as long as the limit and the packet allow. -/
theorem fragmentLoop_more (hmore : fragmentOffset < total) :
    fragmentLoop total (rounds + 1) fragmentOffset fragmentLength =
      (fragmentOffset, min (total - fragmentOffset) fragmentLength) ::
        fragmentLoop total rounds (fragmentOffset + min (total - fragmentOffset) fragmentLength)
          (min (total - fragmentOffset) fragmentLength) := by
  have hshort : (if total - fragmentOffset < fragmentLength then total - fragmentOffset
      else fragmentLength) = min (total - fragmentOffset) fragmentLength := by
    split <;> omega
  rw [fragmentLoop, if_pos hmore]
  dsimp only
  rw [hshort]

theorem fragmentLoop_done (hdone : total ≤ fragmentOffset) :
    fragmentLoop total rounds fragmentOffset fragmentLength = [] := by
  cases rounds with
  | zero => rfl
  | succ rounds => rw [fragmentLoop, if_neg (not_lt.mpr hdone)]

/-- The pieces lie inside the packet and are not longer than the limit. -/
theorem fragmentLoop_inside (rounds fragmentOffset fragmentLength : Nat) :
    ∀ piece ∈ fragmentLoop total rounds fragmentOffset fragmentLength,
      piece.1 < total ∧ piece.1 + piece.2 ≤ total ∧ piece.2 ≤ fragmentLength := by
  induction rounds generalizing fragmentOffset fragmentLength with
  | zero => simp [fragmentLoop]
  | succ rounds ih =>
      by_cases hmore : fragmentOffset < total
      · rw [fragmentLoop_more hmore, List.forall_mem_cons]
        dsimp only
        refine ⟨⟨hmore, by omega, min_le_right _ _⟩, fun piece hpiece => ?_⟩
        obtain ⟨hstart, hinside, hlength⟩ := ih _ _ piece hpiece
        exact ⟨hstart, hinside, hlength.trans (min_le_right _ _)⟩
      · simp [fragmentLoop_done (not_lt.mp hmore)]

/-- The pieces leave no byte out. -/
theorem fragmentLoop_covers {position : Nat} (hlength : 0 < fragmentLength)
    (hrounds : total - fragmentOffset ≤ rounds) (hfrom : fragmentOffset ≤ position)
    (hposition : position < total) :
    ∃ piece ∈ fragmentLoop total rounds fragmentOffset fragmentLength,
      piece.1 ≤ position ∧ position < piece.1 + piece.2 := by
  induction rounds generalizing fragmentOffset fragmentLength with
  | zero => omega
  | succ rounds ih =>
      rw [fragmentLoop_more (by omega)]
      by_cases hhere : position < fragmentOffset + min (total - fragmentOffset) fragmentLength
      · exact ⟨_, List.mem_cons_self, hfrom, hhere⟩
      · obtain ⟨piece, hpiece, hin⟩ :=
          @ih (fragmentOffset + min (total - fragmentOffset) fragmentLength)
            (min (total - fragmentOffset) fragmentLength) (by omega) (by omega) (by omega)
        exact ⟨piece, List.mem_cons_of_mem _ hpiece, hin⟩

theorem length_fragmentLoop (hlength : 0 < fragmentLength)
    (hrounds : total - fragmentOffset ≤ rounds) :
    (fragmentLoop total rounds fragmentOffset fragmentLength).length =
      (total - fragmentOffset + fragmentLength - 1) / fragmentLength := by
  induction rounds generalizing fragmentOffset fragmentLength with
  | zero =>
      rw [fragmentLoop_done (by omega), Nat.div_eq_of_lt (by omega)]
      rfl
  | succ rounds ih =>
      by_cases hmore : fragmentOffset < total
      · rw [fragmentLoop_more hmore, List.length_cons]
        by_cases hlast : total - fragmentOffset < fragmentLength
        · rw [min_eq_left hlast.le, fragmentLoop_done (by omega), List.length_nil]
          symm
          rw [Nat.div_eq_iff hlength]
          omega
        · rw [min_eq_right (not_lt.mp hlast), ih hlength (by omega),
            ← Nat.add_div_right _ hlength]
          congr 1
          omega
      · rw [fragmentLoop_done (not_lt.mp hmore), Nat.div_eq_of_lt (by omega)]
        rfl

end

variable {host : ENetHost} {peer : ENetPeer} {packet : ENetPacket}

/-- Offset and length of each fragment. -/
def pieces (host : ENetHost) (peer : ENetPeer) (packet : ENetPacket) : List (Nat × Nat) :=
  fragmentLoop packet.data.length packet.data.length 0 (fragmentLimit host peer)

theorem fragmentLimit_bounds (hmtu : 576 ≤ peer.mtu ∧ peer.mtu ≤ 4096) :
    0 < fragmentLimit host peer ∧ fragmentLimit host peer < 2 ^ 16 := by
  unfold fragmentLimit subSize
  dsimp only
  split <;> split <;> omega

theorem length_pieces (hmtu : 576 ≤ peer.mtu ∧ peer.mtu ≤ 4096) :
    (pieces host peer packet).length =
      (packet.data.length + fragmentLimit host peer - 1) / fragmentLimit host peer :=
  length_fragmentLoop (fragmentLimit_bounds hmtu).1 (Nat.sub_le ..)

/-! ## Putting together -/

theorem getElem?_writeMemory {memory data : Memory} {offset : Nat}
    (hinside : offset + data.length ≤ memory.length) (position : Nat) :
    (writeMemory memory offset data)[position]? =
      if offset ≤ position ∧ position < offset + data.length then data[position - offset]?
      else memory[position]? := by
  have hfront : (memory.take offset).length = offset :=
    List.length_take_of_le (by omega)
  rw [writeMemory, List.append_assoc, List.getElem?_append, hfront]
  by_cases hbefore : position < offset
  · rw [if_pos hbefore, if_neg (by omega), List.getElem?_take_of_lt hbefore]
  · rw [if_neg hbefore, List.getElem?_append]
    by_cases hin : position < offset + data.length
    · rw [if_pos (by omega), if_pos (by omega)]
    · rw [if_neg (by omega), if_neg (by omega), List.getElem?_drop]
      congr 1
      omega

theorem length_writeMemory {memory data : Memory} {offset : Nat}
    (hinside : offset + data.length ≤ memory.length) :
    (writeMemory memory offset data).length = memory.length := by
  simp only [writeMemory, List.length_append, List.length_take, List.length_drop]
  omega

/-- What is known of a packet while its fragments arrive: the map tells which have, and their
bytes are in place. -/
structure Arrived (host : ENetHost) (peer : ENetPeer) (packet : ENetPacket) (arrived : List Nat)
    (incoming : ENetIncomingCommand) : Prop where
  size : incoming.fragments.length = (pieces host peer packet).length
  noted : ∀ number < (pieces host peer packet).length,
    incoming.fragments[number]? = some (decide (number ∈ arrived))
  remaining : incoming.fragmentsRemaining = incoming.fragments.count false
  length : incoming.packet.data.length = packet.data.length
  copied : ∀ number piece, (pieces host peer packet)[number]? = some piece → number ∈ arrived →
    ∀ position, piece.1 ≤ position → position < piece.1 + piece.2 →
      incoming.packet.data[position]? = packet.data[position]?

/-- Nothing has arrived of a packet that has just been queued. -/
theorem arrived_start (address : Nat) (command : ENetProtocol) (empty : ENetPacket) :
    Arrived host peer packet []
      (.start address command { empty with data := List.replicate packet.data.length none }
        (pieces host peer packet).length) where
  size := List.length_replicate
  noted number hnumber := by
    change (List.replicate _ false)[number]? = _
    rw [List.getElem?_replicate, if_pos hnumber]
    rfl
  remaining := (List.count_replicate_self ..).symm
  length := List.length_replicate
  copied _ _ _ hnone := by cases hnone

section

variable {arrived : List Nat} {incoming : ENetIncomingCommand} {number : Nat} {piece : Nat × Nat}

/-- The arrival of a fragment changes nothing if it is known. -/
theorem Arrived.again (harrived : Arrived host peer packet arrived incoming)
    (hold : number ∈ arrived) : Arrived host peer packet (arrived ++ [number]) incoming := by
  have hmem (other : Nat) : other ∈ arrived ++ [number] ↔ other ∈ arrived := by
    rw [List.mem_append, List.mem_singleton]
    exact or_iff_left_of_imp fun hsame => hsame ▸ hold
  exact ⟨harrived.size, by simpa only [hmem] using harrived.noted, harrived.remaining,
    harrived.length, by simpa only [hmem] using harrived.copied⟩

/-- A fragment arrives for the first time and is copied to its place. -/
theorem Arrived.first {data : Memory} {remaining : Nat}
    (harrived : Arrived host peer packet arrived incoming)
    (hpiece : (pieces host peer packet)[number]? = some piece) (hnew : number ∉ arrived)
    (hdata : data = (packet.data.drop piece.1).take piece.2)
    (hremaining : remaining = incoming.fragmentsRemaining - 1) :
    Arrived host peer packet (arrived ++ [number])
      { incoming with
        fragmentsRemaining := remaining
        fragments := incoming.fragments.set number true
        packet := { incoming.packet with
          data := writeMemory incoming.packet.data piece.1 data } } := by
  have hnumber := (List.getElem?_eq_some_iff.mp hpiece).1
  have hnoted := harrived.noted number hnumber
  rw [decide_eq_false hnew] at hnoted
  obtain ⟨hlt, hfalse⟩ := List.getElem?_eq_some_iff.mp hnoted
  have hinside := (fragmentLoop_inside _ _ _ piece (List.mem_of_getElem? hpiece)).2.1
  have hlength : data.length = piece.2 := by
    rw [hdata]
    exact List.length_take_of_le (by rw [List.length_drop]; omega)
  have hroom : piece.1 + data.length ≤ incoming.packet.data.length := by
    rw [hlength, harrived.length]
    exact hinside
  have hother {other : Nat} (hne : number ≠ other) :
      other ∈ arrived ++ [number] ↔ other ∈ arrived := by
    rw [List.mem_append, List.mem_singleton]
    exact or_iff_left fun hsame => hne hsame.symm
  refine ⟨List.length_set.trans harrived.size, fun other hknown => ?_, ?_,
    (length_writeMemory hroom).trans harrived.length,
    fun other another hanother hin position hfrom hto => ?_⟩
  · dsimp only
    rw [List.getElem?_set]
    by_cases hsame : number = other
    · subst hsame
      rw [if_pos rfl, if_pos hlt]
      simp
    · simp only [if_neg hsame, hother hsame]
      exact harrived.noted other hknown
  · dsimp only
    rw [List.count_set hlt, hremaining, harrived.remaining, hfalse]
    rfl
  · dsimp only
    rw [getElem?_writeMemory hroom, hlength]
    by_cases hhere : piece.1 ≤ position ∧ position < piece.1 + piece.2
    · rw [if_pos hhere, hdata, List.getElem?_take_of_lt (by omega), List.getElem?_drop]
      congr 1
      omega
    · rw [if_neg hhere]
      by_cases hsame : number = other
      · subst hsame
        rw [Option.some.inj (hanother.symm.trans hpiece)] at hfrom hto
        exact absurd ⟨hfrom, hto⟩ hhere
      · exact harrived.copied other another hanother ((hother hsame).mp hin) position hfrom hto

/-- One more fragment arrives, for the first time or again. -/
theorem Arrived.receive {fragment : ENetProtocolSendFragment} {data : Memory}
    (harrived : Arrived host peer packet arrived incoming)
    (hfew : (pieces host peer packet).length < 2 ^ 32)
    (hpiece : (pieces host peer packet)[number]? = some piece)
    (hnumber : fragment.fragmentNumber = number) (hoffset : fragment.fragmentOffset = piece.1)
    (hdata : data = (packet.data.drop piece.1).take piece.2) :
    Arrived host peer packet (arrived ++ [number]) (incoming.receive fragment data) := by
  have hknown := (List.getElem?_eq_some_iff.mp hpiece).1
  have hnoted := harrived.noted number hknown
  have hinside := (fragmentLoop_inside _ _ _ piece (List.mem_of_getElem? hpiece)).2.1
  rw [ENetIncomingCommand.receive, hnumber, hoffset, List.getD_eq_getElem?_getD, hnoted,
    Option.getD_some, harrived.length, List.take_of_length_le (by
      rw [hdata, List.length_take, List.length_drop]
      omega)]
  by_cases hold : number ∈ arrived
  · rw [if_pos (decide_eq_true hold)]
    exact harrived.again hold
  · rw [if_neg (by simpa using hold)]
    refine harrived.first hpiece hold hdata ?_
    -- one is missing at least, so the counter does not run below zero
    rw [decide_eq_false hold] at hnoted
    have hmissing : 0 < incoming.fragments.count false :=
      List.count_pos_iff.mpr (List.mem_of_getElem? hnoted)
    have hcount := List.count_le_length (a := false) (l := incoming.fragments)
    rw [harrived.size] at hcount
    rw [harrived.remaining]
    omega

/-- Nothing remains exactly when each fragment has arrived. -/
theorem Arrived.complete_iff (harrived : Arrived host peer packet arrived incoming) :
    incoming.fragmentsRemaining = 0 ↔
      ∀ number < (pieces host peer packet).length, number ∈ arrived := by
  rw [harrived.remaining, List.count_eq_zero]
  constructor
  · intro hnone number hnumber
    by_contra hmissing
    have hnoted := harrived.noted number hnumber
    rw [decide_eq_false hmissing] at hnoted
    exact hnone (List.mem_of_getElem? hnoted)
  · intro hall hmissing
    obtain ⟨number, hnumber⟩ := List.mem_iff_getElem?.mp hmissing
    have hlt := (List.getElem?_eq_some_iff.mp hnumber).1
    rw [harrived.size] at hlt
    rw [harrived.noted number hlt, decide_eq_true (hall number hlt)] at hnumber
    cases hnumber

/-- With every fragment in place the data are those of the packet. -/
theorem Arrived.restored (harrived : Arrived host peer packet arrived incoming)
    (hmtu : 576 ≤ peer.mtu ∧ peer.mtu ≤ 4096)
    (hall : ∀ number < (pieces host peer packet).length, number ∈ arrived) :
    incoming.packet.data = packet.data := by
  refine List.ext_getElem? fun position => ?_
  by_cases hposition : position < packet.data.length
  · obtain ⟨piece, hpiece, hfrom, hto⟩ := @fragmentLoop_covers _ packet.data.length 0
      (fragmentLimit host peer) position (fragmentLimit_bounds hmtu).1 (Nat.sub_le ..)
      (Nat.zero_le _) hposition
    obtain ⟨number, hnumber⟩ := List.mem_iff_getElem?.mp hpiece
    have hin := hall number (List.getElem?_eq_some_iff.mp hnumber).1
    exact harrived.copied number piece hnumber hin position hfrom hto
  · rw [List.getElem?_eq_none (by rw [harrived.length]; omega), List.getElem?_eq_none (by omega)]

end

end SrmotionProxy.ENet.Protocol
