/-
# What becomes of a received packet

A received packet belongs to the proxy until it is destroyed or a successful
`enet_peer_send` takes it over. The trace says which of the two happened how often in a
step, and the verdict on the packet says in which steps it was exactly one.
-/

import SrmotionProxy.Verdict

namespace SrmotionProxy.Server

open SrmotionProxy.Lib SrmotionProxy.ENet SrmotionProxy.Proton

/-! ## Counting disposals -/

/-- The call gives the received packet away: destroyed, or taken over by a send. -/
def disposes : Call → Bool
  | .packetDestroy => true
  | .peerSend _ .received _ code => code == 0
  | _ => false

/-- How often packets of events have been given away. -/
def disposals (trace : List Call) : Nat := trace.countP disposes

theorem disposals_packetCalls (trace : List Call) :
    disposals (packetCalls trace) = disposals trace := by
  rw [disposals, packetCalls, List.countP_filter]
  refine List.countP_congr fun call _ => ?_
  rw [Bool.and_eq_true, and_iff_left_iff_imp]
  cases call with
  | packetDestroy => exact fun _ => rfl
  | peerSend peer source data code => cases source <;> simp [disposes, onPacket]
  | hostCreate => exact fun h => by cases h
  | hostDestroy => exact fun h => by cases h
  | hostConnect => exact fun h => by cases h
  | hostFlush => exact fun h => by cases h
  | peerDisconnect => exact fun h => by cases h
  | redirected => exact fun h => by cases h
  | reset => exact fun h => by cases h

/-! ## Exactly one disposal -/

/-- Both pointers of the other side are set, and `enet_peer_send` takes the packet. -/
def TakesOver (state : ProxyState) (client : Bool) (packet : Bytes) : Prop :=
  ∃ peer host, state.target client = some (peer, host) ∧ state.sendCode packet = 0

/-- The packet is not one that is left alone, and when its handler lets it pass, the other
side takes it over. -/
def Settled (state : ProxyState) (input : Input) : Prop :=
  ¬ Ignores state input ∧ ∀ packet middle,
    judged state input = some (.ok (.forwarded packet) middle) →
      TakesOver middle input.towardsClient packet

theorem disposals_sendAndFlush (state : ProxyState) (peer : Peer) (host : Host) (packet : Bytes) :
    disposals (state.sendAndFlush .received peer host packet).trace =
      disposals state.trace + if state.sendCode packet = 0 then 1 else 0 := by
  change disposals (.hostFlush host :: .peerSend peer .received packet (state.sendCode packet) ::
    state.trace) = _
  rw [disposals, List.countP_cons_of_neg Bool.false_ne_true, List.countP_cons, ← disposals]
  by_cases hcode : state.sendCode packet = 0 <;> simp [disposes, hcode]

/-- A received packet is given away exactly once if, and only if, its step is settled. -/
theorem disposed_once_iff {state after : ProxyState} {input : Input} {packet : Bytes}
    (hpacket : input.packet = some packet) (hstep : step state input = some after) :
    disposals after.trace = disposals state.trace + 1 ↔ Settled state input := by
  obtain ⟨verdict, middle, hjudged, hquiet, hends⟩ := receive_cases hpacket hstep
  have hmiddle : disposals middle.trace = disposals state.trace := by
    rw [← disposals_packetCalls, hquiet, disposals_packetCalls]
  have hfor := judged_for hjudged
  have hsettled : Settled state input ↔ ¬ verdict = .ignored ∧
      ∀ packet, verdict = .forwarded packet → TakesOver middle input.towardsClient packet := by
    rw [Settled, hfor.ignored]
    refine and_congr_right fun _ => ?_
    constructor
    · intro htaken packet hverdict
      exact htaken packet middle (hverdict ▸ hjudged)
    · intro htaken packet now hnow
      rw [hjudged] at hnow
      cases hnow
      exact htaken packet rfl
  rw [hsettled, ← hmiddle]
  cases hends with
  | ignored => exact iff_of_false (by omega) fun h => h.1 rfl
  | consumed =>
      exact iff_of_true (List.countP_cons_of_pos (rfl : disposes .packetDestroy = true))
        ⟨nofun, nofun⟩
  | stranded _ given htarget =>
      refine iff_of_false (by omega) fun h => ?_
      obtain ⟨peer, host, hsome, -⟩ := h.2 given rfl
      rw [htarget] at hsome
      cases hsome
  | sent _ given peer host htarget =>
      rw [disposals_sendAndFlush]
      by_cases hcode : middle.sendCode given = 0
      · rw [if_pos hcode]
        refine iff_of_true rfl ⟨nofun, fun packet hsame => ?_⟩
        cases hsame
        exact ⟨peer, host, htarget, hcode⟩
      · rw [if_neg hcode]
        refine iff_of_false (by omega) fun h => ?_
        obtain ⟨-, -, -, htaken⟩ := h.2 given rfl
        exact hcode htaken

/-- What is forwarded goes to the first peer, whose connection accepts it. -/
def acceptsForwarded : Option (EStateM.Result Abort ProxyState Verdict) → Bool
  | some (.ok (.forwarded packet) middle) =>
      decide (middle.target false = some (⟨1, 0⟩, 1) ∧ middle.sendCode packet = 0)
  | _ => true

/-- A packet of an unknown type is handed over. -/
theorem disposed_once_unknown_type :
    ∃ after, step betweenPeers (.client 0 (.receive [5, 0, 0, 0, 0])) = some after ∧
      disposals after.trace = disposals betweenPeers.trace + 1 := by
  have hsome : (step betweenPeers (.client 0 (.receive [5, 0, 0, 0, 0]))).isSome = true := by
    decide +kernel
  obtain ⟨after, hstep⟩ := Option.isSome_iff_exists.mp hsome
  have hnotGame : structOf [5, 0, 0, 0, 0] = none := by decide
  have haccepts : acceptsForwarded (judged betweenPeers (.client 0 (.receive [5, 0, 0, 0, 0]))) =
      true := by decide +kernel
  refine ⟨after, hstep, (disposed_once_iff rfl hstep).mpr ⟨?_, fun packet middle hjudged => ?_⟩⟩
  · rintro (htrack | hlog | ⟨struct, hstruct, -⟩)
    · exact absurd htrack (by decide)
    · exact absurd hlog (by decide)
    · rw [hnotGame] at hstruct
      cases hstruct
  · rw [hjudged] at haccepts
    exact ⟨⟨1, 0⟩, 1, of_decide_eq_true haccepts⟩

/-- A tracking packet of the client is neither destroyed nor handed over. -/
theorem tracking_packet_leaks :
    ∃ after, step betweenPeers (.client 0 (.receive [6, 0, 0, 0, 0])) = some after ∧
      disposals after.trace = disposals betweenPeers.trace := by
  have hany : ((step betweenPeers (.client 0 (.receive [6, 0, 0, 0, 0]))).any fun after =>
      decide (disposals after.trace = disposals betweenPeers.trace)) = true := by decide +kernel
  obtain ⟨after, hstep, hsame⟩ := (Option.any_eq_true _ _).mp hany
  exact ⟨after, hstep, of_decide_eq_true hsame⟩

end SrmotionProxy.Server
