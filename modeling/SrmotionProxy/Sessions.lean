/-
# Sessions of several clients

The proxy host takes up to 1024 peers, and `server` has one pointer for the client and
one for the connection to the server. A run is followed together with two things that
the code does not remember: the client whose event was processed last, and the client
behind each connection that was opened. They say where packets go and when that is the
client, or the connection, they belong to.
-/

import SrmotionProxy.Lifetime
import SrmotionProxy.Verdict

namespace SrmotionProxy.Server

open SrmotionProxy.Lib SrmotionProxy.ENet SrmotionProxy.Proton

/-! ## Runs with their history -/

/-- A state of the proxy, the connections opened so far with the client whose CONNECT
opened them, latest first, and the client of the latest event. -/
structure Session where
  state : ProxyState
  opened : List (Host × Nat) := []
  latest : Option Nat := none

namespace Session

/-- What a client's event adds to the history. -/
def record (session : Session) (after : ProxyState) : Input → Session
  | .client slot .connect =>
      { state := after
        opened := (session.state.nextHost, slot) :: session.opened
        latest := some slot }
  | .client slot _ => { session with state := after, latest := some slot }
  | .server _ => { session with state := after }

/-- A step of the loops, recorded. -/
def step (session : Session) (input : Input) : Option Session :=
  (Server.step session.state input).map fun after => session.record after input

theorem record_state (session : Session) (after : ProxyState) (input : Input) :
    (session.record after input).state = after := by
  cases input with
  | client slot event => cases event <;> rfl
  | server event => rfl

/-- The record restricts nothing: runs with a history are the runs of the loops. -/
theorem runSteps_state (inputs : List Input) (session : Session) :
    (runSteps step session inputs).map Session.state =
      runSteps Server.step session.state inputs := by
  induction inputs generalizing session with
  | nil => rfl
  | cons input inputs ih =>
      rw [runSteps, runSteps, step]
      cases Server.step session.state input with
      | none => rfl
      | some after =>
          rw [Option.map_some]
          simp only
          rw [ih, record_state]

/-- The client that opened the latest connection. -/
def opener (session : Session) : Option Nat := session.opened.head?.map Prod.snd

end Session

/-! ## Where a packet goes -/

/-- The packet of a step is handed over to this peer. -/
def HandsTo (state after : ProxyState) (peer : Peer) : Prop :=
  ∃ data code, packetCalls after.trace =
    .peerSend peer .received data code :: packetCalls state.trace

/-- A client's packet goes to the latest connection, the server's to the client of the
latest event. -/
def Routed (session : Session) : Input → Peer → Prop
  | .client _ _, peer => ∃ owner, session.opened.head? = some (peer.host, owner)
  | .server _, peer =>
      session.state.server.mProxyServer = some peer.host ∧ session.latest = some peer.slot

/-- A client's packet goes to no connection but its own, and what is received over a
client's connection goes to nobody else. -/
def Separate (session : Session) : Input → Peer → Prop
  | .client slot _, peer => ∀ owner, (peer.host, owner) ∈ session.opened → owner = slot
  | .server _, peer => ∀ host owner, session.state.server.mRealServer = some host →
      (host, owner) ∈ session.opened →
        session.state.server.mProxyServer = some peer.host ∧ peer.slot = owner

/-- The client that the proxy takes a packet to be from or for. -/
def concerned (session : Session) : Input → Option Nat
  | .client slot _ => some slot
  | .server _ => session.latest

/-- That client opened the latest connection, if any was opened. -/
def Matched (session : Session) (input : Input) : Prop :=
  ∀ owner, session.opener = some owner → concerned session input = some owner

/-! ## What a step leaves of the pointers -/

/-- The state in which an event is processed: its peer is remembered first. -/
def remembered (state : ProxyState) : Input → ProxyState
  | .client slot _ => state.server.mProxyServer.elim state fun host => rememberPeer state host slot
  | .server _ => state

/-- A part that a step changes only by remembering the peer. -/
structure Steady {γ : Type} (part : ProxyState → γ) : Prop extends Untouched part where
  sent : ∀ state source peer host data, part (state.sendAndFlush source peer host data) = part state
  destroyed : ∀ state, part { state with trace := .packetDestroy :: state.trace } = part state

/-- The pointers to the client, and the number of hosts. -/
def clientSide (state : ProxyState) : Option Host × Option Peer × Host :=
  (state.server.mProxyServer, state.server.mGtPeer, state.nextHost)

theorem dropConnection_clientSide (state : ProxyState) :
    clientSide state.dropConnection = clientSide state := by
  unfold ProxyState.dropConnection
  cases state.server.mServerPeer <;> rfl

theorem steady_clientSide : Steady clientSide where
  move := by
    intro first second hmove
    cases hmove with
    | edit => rfl
    | send => rfl
    | disconnect reset => cases reset <;> exact dropConnection_clientSide _
  stored := by
    intro state server hpointers
    change (server.mProxyServer, server.mGtPeer, state.nextHost) = _
    rw [hpointers.proxyServer, hpointers.gtPeer]
    rfl
  drop := by
    intro state
    unfold dropHost
    cases state.server.mRealServer <;> rfl
  sent := fun _ _ _ _ _ => rfl
  destroyed := fun _ => rfl

section Steps

variable {γ : Type} {part : ProxyState → γ} {state after : ProxyState} {input : Input}

theorem judged_leaves (huntouched : Untouched part) {verdict : Verdict} {middle : ProxyState}
    (hjudged : judged state input = some (.ok verdict middle)) :
    part middle = part (remembered state input) := by
  cases input with
  | client slot event =>
      cases event with
      | connect => cases hjudged
      | disconnect => cases hjudged
      | receive packet =>
          obtain ⟨host, hhost, hrun⟩ := Option.map_eq_some_iff.mp hjudged
          rw [remembered, hhost]
          exact Leaves.outgoingVerdict huntouched packet _ _ _ hrun
  | server event =>
      cases event with
      | connect => cases hjudged
      | disconnect => cases hjudged
      | receive packet =>
          obtain ⟨host, -, hrun⟩ := Option.map_eq_some_iff.mp hjudged
          exact Leaves.incomingVerdict huntouched packet _ _ _ hrun

theorem ends_leaves (hsteady : Steady part) {client : Bool} {verdict : Verdict}
    (hends : Ends client verdict state after) : part after = part state := by
  cases hends with
  | ignored => rfl
  | consumed => exact hsteady.destroyed state
  | stranded => rfl
  | sent _ packet peer host htarget => exact hsteady.sent state _ peer host packet

theorem outgoingDisconnect_leaves (huntouched : Untouched part) :
    Leaves part outgoingDisconnect := by
  unfold outgoingDisconnect
  refine Leaves.bind Leaves.get fun state => Leaves.ite (Leaves.pure _) ?_
  refine Leaves.ite ?_ (Leaves.pure _)
  refine Leaves.bind (Leaves.handler huntouched _) fun _ => Leaves.bind ?_ fun _ => Leaves.pure _
  intro state value after hrun
  cases hrun
  exact huntouched.move _ _ (.edit state state.server.mWorld state.out
    { state.gt with connecting := false } state.tick)

/-- Every step but a CONNECT leaves a steady part as it is once the peer is remembered. -/
theorem step_leaves (hsteady : Steady part) (hother : ∀ slot, input ≠ .client slot .connect)
    (hstep : Server.step state input = some after) :
    part after = part (remembered state input) := by
  have hreceive {packet : Bytes} (hpacket : input.packet = some packet) :
      part after = part (remembered state input) := by
    obtain ⟨verdict, middle, hjudged, -, hends⟩ := receive_cases hpacket hstep
    exact (ends_leaves hsteady hends).trans (judged_leaves hsteady.toUntouched hjudged)
  obtain ⟨flow, hrun⟩ := step_eq_some.mp hstep
  cases input with
  | client slot event =>
      cases event with
      | connect => exact absurd rfl (hother slot)
      | receive packet => exact hreceive rfl
      | disconnect =>
          cases hhost : state.server.mProxyServer with
          | none =>
              unfold body outgoingEvent at hrun
              rw [run_get_bind, hhost] at hrun
              cases hrun
          | some host =>
              rw [body, outgoingEvent_run hhost] at hrun
              rw [remembered, hhost]
              exact outgoingDisconnect_leaves hsteady.toUntouched _ _ _ hrun
  | server event =>
      cases event with
      | receive packet => exact hreceive rfl
      | connect =>
          unfold body incomingEvent at hrun
          rw [run_get_bind] at hrun
          cases hreal : state.server.mRealServer with
          | none => rw [hreal] at hrun; cases hrun
          | some host => rw [hreal] at hrun; cases hrun; rfl
      | disconnect =>
          unfold body incomingEvent at hrun
          rw [run_get_bind] at hrun
          cases hreal : state.server.mRealServer with
          | none => rw [hreal] at hrun; cases hrun
          | some host =>
              rw [hreal] at hrun
              cases hrun
              exact hsteady.move _ _ (.disconnect state true)

end Steps

/-! ### Connections are only dropped -/

/-- The pointers to the server are as before, or null. -/
structure Drops (before after : ProxyState) : Prop where
  peer : ∀ peer, after.server.mServerPeer = some peer → before.server.mServerPeer = some peer
  real : ∀ host, after.server.mRealServer = some host → before.server.mRealServer = some host

namespace Drops

theorem rfl {state : ProxyState} : Drops state state := ⟨fun _ h => h, fun _ h => h⟩

theorem trans {first second third : ProxyState} (hfirst : Drops first second)
    (hsecond : Drops second third) : Drops first third :=
  ⟨fun peer hpeer => hfirst.peer peer (hsecond.peer peer hpeer),
    fun host hhost => hfirst.real host (hsecond.real host hhost)⟩

theorem dropConnection (state : ProxyState) : Drops state state.dropConnection := by
  unfold ProxyState.dropConnection
  cases hpeer : state.server.mServerPeer with
  | none => exact .rfl
  | some peer => exact ⟨nofun, nofun⟩

theorem effect {first second : ProxyState} (heffect : Effect first second) :
    Drops first second := by
  cases heffect with
  | move hmove =>
      cases hmove with
      | edit => exact ⟨fun _ h => h, fun _ h => h⟩
      | send => exact ⟨fun _ h => h, fun _ h => h⟩
      | disconnect reset =>
          cases reset with
          | false => exact ⟨(dropConnection _).peer, (dropConnection _).real⟩
          | true => exact ⟨(dropConnection _).peer, (dropConnection _).real⟩
  | handOver => exact ⟨fun _ h => h, fun _ h => h⟩
  | destroy => exact ⟨fun _ h => h, fun _ h => h⟩
  | remember => exact ⟨fun _ h => h, fun _ h => h⟩

theorem effects {first second : ProxyState}
    (heffects : Relation.ReflTransGen Effect first second) : Drops first second := by
  induction heffects with
  | refl => exact .rfl
  | tail _ heffect ih => exact ih.trans (effect heffect)

/-- Only a CONNECT sets them. -/
theorem step {state after : ProxyState} {input : Input}
    (hother : ∀ slot, input ≠ .client slot .connect)
    (hstep : Server.step state input = some after) : Drops state after := by
  rcases step_cases hstep with ⟨slot, host, rfl, -⟩ | ⟨list, -, -, hredirects⟩ | ⟨-, -, heffects⟩
  · exact absurd (Eq.refl _) (hother slot)
  · obtain ⟨hpeer, hreal⟩ := hredirects.pointers
    exact ⟨fun peer hsome => hpeer ▸ hsome, fun host hsome => by rw [hreal] at hsome; cases hsome⟩
  · exact effects heffects

end Drops

/-! ## The history explains the pointers -/

/-- Where the pointers come from. -/
structure Tracked (session : Session) : Prop where
  client : ∃ proxy, session.state.server.mProxyServer = some proxy ∧
    session.state.server.mGtPeer = session.latest.map fun slot => ⟨proxy, slot⟩
  peer : ∀ peer, session.state.server.mServerPeer = some peer →
    ∃ owner, session.opened.head? = some (peer.host, owner)
  real : ∀ host, session.state.server.mRealServer = some host → session.opened = [] ∨
    ∃ owner, session.opened.head? = some (host, owner)
  fresh : ∀ entry ∈ session.opened, entry.1 < session.state.nextHost
  distinct : (session.opened.map Prod.fst).Nodup

namespace Tracked

variable {session next : Session} {input : Input}

theorem connect (htracked : Tracked session) {slot : Nat} {host : Host} {after : ProxyState}
    (hhost : session.state.server.mProxyServer = some host)
    (hafter : after = afterConnect (rememberPeer session.state host slot)) :
    Tracked (session.record after (.client slot .connect)) := by
  subst hafter
  refine ⟨⟨host, hhost, rfl⟩, fun peer hpeer => ?_, fun real hreal => ?_, fun entry hentry => ?_,
    List.nodup_cons.mpr ⟨fun hold => ?_, htracked.distinct⟩⟩
  · refine ⟨slot, ?_⟩
    change (if _ then some ⟨session.state.nextHost, 0⟩ else none) = some peer at hpeer
    split at hpeer
    · cases hpeer
      rfl
    · cases hpeer
  · cases hreal
    exact .inr ⟨slot, rfl⟩
  · change entry.1 < session.state.nextHost + 1
    rcases List.mem_cons.mp hentry with rfl | hold
    · exact Nat.lt_succ_self _
    · exact (htracked.fresh entry hold).trans (Nat.lt_succ_self _)
  · obtain ⟨entry, hentry, hsame⟩ := List.mem_map.mp hold
    exact absurd hsame (htracked.fresh entry hentry).ne

/-- Other steps add no connection. -/
theorem other (htracked : Tracked session) {after : ProxyState}
    (hother : ∀ slot, input ≠ .client slot .connect)
    (hstep : Server.step session.state input = some after) :
    Tracked (session.record after input) := by
  have hdrops := Drops.step hother hstep
  have hclient := step_leaves steady_clientSide hother hstep
  obtain ⟨proxy, hproxy, hgtPeer⟩ := htracked.client
  have hopened : (session.record after input).opened = session.opened := by
    cases input with
    | client slot event =>
        cases event with
        | connect => exact absurd rfl (hother slot)
        | disconnect => rfl
        | receive packet => rfl
    | server event => rfl
  have hnext : after.nextHost = session.state.nextHost := by
    have hcount := congrArg (fun side => side.2.2) hclient
    apply hcount.trans
    cases input with
    | client slot event => rw [remembered, hproxy]; rfl
    | server event => rfl
  have hstate := session.record_state after input
  refine ⟨⟨proxy, ?_, ?_⟩, fun peer hpeer => ?_, fun real hreal => ?_, fun entry hentry => ?_, ?_⟩
  · rw [hstate]
    refine (congrArg Prod.fst hclient).trans ?_
    cases input with
    | client slot event => rw [remembered, hproxy]; exact hproxy
    | server event => exact hproxy
  · rw [hstate]
    refine (congrArg (fun side => side.2.1) hclient).trans ?_
    cases input with
    | client slot event =>
        rw [remembered, hproxy]
        cases event <;> rfl
    | server event => exact hgtPeer
  · rw [hstate] at hpeer
    rw [hopened]
    exact htracked.peer peer (hdrops.peer peer hpeer)
  · rw [hstate] at hreal
    rw [hopened]
    exact htracked.real real (hdrops.real real hreal)
  · rw [hopened] at hentry
    rw [hstate, hnext]
    exact htracked.fresh entry hentry
  · rw [hopened]
    exact htracked.distinct

theorem step (htracked : Tracked session) (hstep : session.step input = some next) :
    Tracked next := by
  obtain ⟨after, hafter, rfl⟩ := Option.map_eq_some_iff.mp hstep
  rcases step_cases hafter with ⟨slot, host, rfl, hhost, -, hnext⟩ | ⟨list, hlist, -, -⟩ |
    ⟨-, hother, -⟩
  · exact htracked.connect hhost hnext
  · refine htracked.other (fun slot hinput => ?_) hafter
    rw [hinput] at hlist
    cases hlist
  · exact htracked.other hother hafter

theorem started {env : Env} {port : Int} {start : ProxyState} (hstart : Started env port start) :
    Tracked { state := start } := by
  obtain ⟨hproxy, -, hpeer, hclient, -, -⟩ := hstart.parts
  exact ⟨⟨0, hproxy, hclient⟩, fun peer hsome => (by rw [hpeer] at hsome; cases hsome),
    fun _ _ => .inl rfl, fun _ hentry => absurd hentry List.not_mem_nil, List.nodup_nil⟩

/-- The client behind a connection is the one that its entry names. -/
theorem owner_unique (htracked : Tracked session) {host : Host} {owner other : Nat}
    (howner : (host, owner) ∈ session.opened) (hother : (host, other) ∈ session.opened) :
    owner = other := by
  have hsame := List.inj_on_of_nodup_map htracked.distinct howner hother rfl
  exact congrArg Prod.snd hsame

end Tracked

/-! ## Routing -/

section Routing

variable {session next : Session} {input : Input} {packet : Bytes} {peer : Peer}

theorem receive_other (hpacket : input.packet = some packet) (slot : Nat) :
    input ≠ .client slot .connect := by
  rintro rfl
  cases hpacket

/-- A packet that is handed over is handed to the target of the state after the step. -/
theorem handsTo_target {state after : ProxyState} (hpacket : input.packet = some packet)
    (hstep : step state input = some after) (hhands : HandsTo state after peer) :
    ∃ host, after.target input.towardsClient = some (peer, host) := by
  obtain ⟨data, code, hcalls⟩ := hhands
  obtain ⟨verdict, middle, -, hquiet, hends⟩ := receive_cases hpacket hstep
  cases hends with
  | ignored =>
      rw [hquiet] at hcalls
      exact absurd hcalls.symm (List.cons_ne_self _ _)
  | consumed =>
      change .packetDestroy :: packetCalls middle.trace = _ at hcalls
      rw [List.cons.injEq] at hcalls
      cases hcalls.1
  | stranded _ given htarget =>
      rw [hquiet] at hcalls
      exact absurd hcalls.symm (List.cons_ne_self _ _)
  | sent _ given found host htarget =>
      change .peerSend found .received given (middle.sendCode given) ::
        packetCalls middle.trace = _ at hcalls
      rw [List.cons.injEq, Call.peerSend.injEq] at hcalls
      obtain ⟨⟨rfl, -⟩, -⟩ := hcalls
      exact ⟨host, htarget⟩

theorem routed_of_tracked (htracked : Tracked session) (hpacket : input.packet = some packet)
    {after : ProxyState} (hstep : step session.state input = some after)
    (hhands : HandsTo session.state after peer) : Routed session input peer := by
  have hother := receive_other hpacket
  obtain ⟨host, htarget⟩ := handsTo_target hpacket hstep hhands
  obtain ⟨hpeer, hhost⟩ := ProxyState.target_eq_some htarget
  cases input with
  | client slot event => exact htracked.peer peer ((Drops.step hother hstep).peer peer hpeer)
  | server event =>
      have hside := step_leaves steady_clientSide hother hstep
      have hproxy : session.state.server.mProxyServer = some host :=
        (congrArg Prod.fst hside).symm.trans hhost
      have hgtPeer : session.state.server.mGtPeer = some peer :=
        (congrArg (fun side => side.2.1) hside).symm.trans hpeer
      obtain ⟨proxy, hsame, hlatest⟩ := htracked.client
      rw [hgtPeer] at hlatest
      obtain ⟨slot, hslot, rfl⟩ := Option.map_eq_some_iff.mp hlatest.symm
      exact ⟨hsame, hslot⟩

/-- Packets stay in their session when the client concerned opened the connection. -/
theorem separate_iff_matched (htracked : Tracked session) (hrouted : Routed session input peer)
    {after : ProxyState} (hstep : step session.state input = some after) :
    Separate session input peer ↔ Matched session input := by
  cases input with
  | client slot event =>
      obtain ⟨owner, hhead⟩ := hrouted
      have hmem := List.mem_of_mem_head? hhead
      rw [Matched, Session.opener, hhead]
      constructor
      · rintro hseparate other ⟨rfl⟩
        exact congrArg some (hseparate owner hmem).symm
      · intro hmatched other hother
        rw [htracked.owner_unique hother hmem]
        exact (Option.some_inj.mp (hmatched owner rfl)).symm
  | server event =>
      obtain ⟨hproxy, hlatest⟩ := hrouted
      obtain ⟨flow, hrun⟩ := step_eq_some.mp hstep
      cases hreal : session.state.server.mRealServer with
      | none =>
          unfold body incomingEvent at hrun
          rw [run_get_bind, hreal] at hrun
          cases hrun
      | some real =>
          rw [Matched, Session.opener, concerned, hlatest]
          rcases htracked.real real hreal with hnone | ⟨owner, hhead⟩
          · rw [hnone]
            exact iff_of_true (fun _ _ _ hmem => by rw [hnone] at hmem; cases hmem) nofun
          · have hmem := List.mem_of_mem_head? hhead
            rw [hhead]
            constructor
            · rintro hseparate other ⟨rfl⟩
              exact congrArg some (hseparate real owner hreal hmem).2
            · intro hmatched host other hhost hother
              rw [hreal] at hhost
              cases hhost
              rw [htracked.owner_unique hother hmem]
              exact ⟨hproxy, Option.some_inj.mp (hmatched owner rfl)⟩

/-- Wherever the events of any clients interleave: a client's packet goes to the latest
connection and the server's to the client of the latest event, and that is right exactly
when this client opened this connection. -/
theorem sessions_routed {env : Env} {port : Int} {start : ProxyState}
    (hstart : Started env port start) {inputs : List Input}
    (hrun : runSteps Session.step { state := start } inputs = some session)
    (hpacket : input.packet = some packet) (hstep : session.step input = some next)
    (hhands : HandsTo session.state next.state peer) :
    Routed session input peer ∧ (Separate session input peer ↔ Matched session input) := by
  have htracked : Tracked session :=
    Runs.runSteps_invariant (fun _ _ _ htracked hnext => htracked.step hnext) inputs
      (Tracked.started hstart) hrun
  obtain ⟨after, hafter, rfl⟩ := Option.map_eq_some_iff.mp hstep
  rw [session.record_state] at hhands
  have hrouted := routed_of_tracked htracked hpacket hafter hhands
  exact ⟨hrouted, separate_iff_matched htracked hrouted hafter⟩

/-- Two clients connect one after the other. What the second one sends goes over its own
connection, and stays in its session; what the first one sends goes there as well, and does
not. -/
theorem sessions_routed_two :
    ∃ session own other,
      runSteps Session.step { state := afterStart {} 17201 }
        [.client 0 .connect, .client 1 .connect] = some session ∧
      session.step (.client 1 (.receive [5, 0, 0, 0])) = some own ∧
      Routed session (.client 1 (.receive [5, 0, 0, 0])) ⟨3, 0⟩ ∧
      Separate session (.client 1 (.receive [5, 0, 0, 0])) ⟨3, 0⟩ ∧
      session.step (.client 0 (.receive [5, 0, 0, 0])) = some other ∧
      Routed session (.client 0 (.receive [5, 0, 0, 0])) ⟨3, 0⟩ ∧
      ¬ Separate session (.client 0 (.receive [5, 0, 0, 0])) ⟨3, 0⟩ := by
  have hany : ((runSteps Session.step { state := afterStart {} 17201 }
      [.client 0 .connect, .client 1 .connect]).any fun session =>
        (session.step (.client 1 (.receive [5, 0, 0, 0]))).any fun own =>
          (session.step (.client 0 (.receive [5, 0, 0, 0]))).any fun other =>
            decide (session.opener = some 1 ∧
              packetCalls own.state.trace =
                .peerSend ⟨3, 0⟩ .received [5, 0, 0, 0] 0 :: packetCalls session.state.trace ∧
              packetCalls other.state.trace =
                .peerSend ⟨3, 0⟩ .received [5, 0, 0, 0] 0 ::
                  packetCalls session.state.trace)) = true := by
    decide +kernel
  obtain ⟨session, hrun, hsteps⟩ := (Option.any_eq_true _ _).mp hany
  obtain ⟨own, hown, hrest⟩ := (Option.any_eq_true _ _).mp hsteps
  obtain ⟨other, hother, hfacts⟩ := (Option.any_eq_true _ _).mp hrest
  obtain ⟨hopener, hownCalls, hotherCalls⟩ := of_decide_eq_true hfacts
  obtain ⟨hownRouted, hownSeparate⟩ := sessions_routed (start_run 17201 rfl rfl) hrun rfl hown
    ⟨[5, 0, 0, 0], 0, hownCalls⟩
  obtain ⟨hotherRouted, hotherSeparate⟩ := sessions_routed (start_run 17201 rfl rfl) hrun rfl
    hother ⟨[5, 0, 0, 0], 0, hotherCalls⟩
  refine ⟨session, own, other, hrun, hown, hownRouted, hownSeparate.mpr fun owner howner => ?_,
    hother, hotherRouted, fun hseparate => ?_⟩
  · rw [hopener] at howner
    exact howner
  · have hsame : some 0 = some 1 := hotherSeparate.mp hseparate 1 hopener
    cases hsame

/-- Client 0 connects, client 1 sends a packet: it goes over the connection of client 0,
and what the server answers goes to client 1. -/
theorem sessions_mix :
    ∃ session middle next,
      runSteps Session.step { state := afterStart {} 17201 } [.client 0 .connect] = some session ∧
      session.step (.client 1 (.receive [5, 0, 0, 0])) = some middle ∧
      middle.step (.server (.receive [5, 0, 0, 0])) = some next ∧
      (HandsTo session.state middle.state ⟨2, 0⟩ ∧
        ¬ Separate session (.client 1 (.receive [5, 0, 0, 0])) ⟨2, 0⟩) ∧
      (HandsTo middle.state next.state ⟨0, 1⟩ ∧
        ¬ Separate middle (.server (.receive [5, 0, 0, 0])) ⟨0, 1⟩) := by
  have hany : ((runSteps Session.step { state := afterStart {} 17201 } [.client 0 .connect]).any
      fun session => (session.step (.client 1 (.receive [5, 0, 0, 0]))).any fun middle =>
        (middle.step (.server (.receive [5, 0, 0, 0]))).any fun next =>
          decide ((packetCalls middle.state.trace =
              .peerSend ⟨2, 0⟩ .received [5, 0, 0, 0] 0 :: packetCalls session.state.trace ∧
            packetCalls next.state.trace =
              .peerSend ⟨0, 1⟩ .received [5, 0, 0, 0] 0 :: packetCalls middle.state.trace) ∧
            (session.opened = [(2, 0)] ∧ middle.opened = [(2, 0)] ∧
              middle.state.server.mRealServer = some 2))) = true := by
    decide +kernel
  obtain ⟨session, hrun, hmiddle⟩ := (Option.any_eq_true _ _).mp hany
  obtain ⟨middle, hfirst, hnext⟩ := (Option.any_eq_true _ _).mp hmiddle
  obtain ⟨next, hsecond, hfacts⟩ := (Option.any_eq_true _ _).mp hnext
  obtain ⟨⟨hsent, hanswered⟩, hopened, hstill, hreal⟩ := of_decide_eq_true hfacts
  refine ⟨session, middle, next, hrun, hfirst, hsecond, ⟨⟨_, _, hsent⟩, fun hseparate => ?_⟩,
    ⟨_, _, hanswered⟩, fun hseparate => ?_⟩
  · exact absurd (hseparate 0 (by rw [hopened]; exact List.mem_singleton_self _)) (by decide)
  · exact absurd (hseparate 2 0 hreal (by rw [hstill]; exact List.mem_singleton_self _)).2
      (by decide)

end Routing

end SrmotionProxy.Server
