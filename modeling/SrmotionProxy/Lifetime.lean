/-
# Hosts and peers over whole runs

Which hosts are alive, and whether the pointers of `server` point to live ones, is
followed through all runs of the two loops. Both properties can fail: a redirect
destroys the host of a connection and keeps the peer, and a client that connects
overwrites the host of the connection before. The results say that nothing else
breaks them.
-/

import SrmotionProxy.Connection
import SrmotionProxy.Framing

namespace SrmotionProxy.Server

open SrmotionProxy.Lib SrmotionProxy.ENet SrmotionProxy.Proton

/-! ## The state that `start` leaves behind -/

/-- The proxy host is host 0, the first client host is host 1. -/
def afterStart (env : Env) (port : Int) : ProxyState :=
  { initial env port with
    server := { (initial env port).server with mProxyServer := some 0, mRealServer := some 1 }
    tick := 2
    nextHost := 2
    trace := [.hostFlush 1, .hostCreate 1 true, .hostCreate 0 false] }

/-- The state between the creation of the two hosts. -/
def afterProxy (env : Env) (port : Int) : ProxyState :=
  { initial env port with
    server := { (initial env port).server with mProxyServer := some 0 }
    tick := 1
    nextHost := 1
    trace := [.hostCreate 0 false] }

theorem start_eq {env : Env} (port : Int) (hproxy : env.hostCreated 0 = true) :
    start.run (initial env port) = setupClient.run (afterProxy env port) := by
  have hcreated : (initial env port).env.hostCreated (initial env port).tick = true := hproxy
  rw [start, run_bind_ok _ (hostCreate_run hcreated false), run_bind_ok _ (modifyServer_run _ _)]
  rfl

theorem start_run {env : Env} (port : Int) (hproxy : env.hostCreated 0 = true)
    (hclient : env.hostCreated 1 = true) : Started env port (afterStart env port) := by
  have hcreated : (afterProxy env port).env.hostCreated (afterProxy env port).tick = true :=
    hclient
  rw [Started, start_eq port hproxy, setupClient_run hcreated]
  rfl

theorem started_eq {env : Env} {port : Int} {state : ProxyState} (hstart : Started env port state) :
    state = afterStart env port := by
  have hrun := hstart
  rw [Started] at hrun
  cases hproxy : env.hostCreated 0 with
  | false =>
      have hfailed : (initial env port).env.hostCreated (initial env port).tick = false := hproxy
      rw [start, run_bind_ok _ (hostCreate_run_failed hfailed false)] at hrun
      cases hrun
  | true =>
      cases hclient : env.hostCreated 1 with
      | false =>
          have hfailed : (afterProxy env port).env.hostCreated (afterProxy env port).tick =
              false := hclient
          obtain ⟨failed, herror⟩ := setupClient_run_failed hfailed
          rw [start_eq port hproxy, herror] at hrun
          cases hrun
      | true =>
          have hsame := (start_run port hproxy hclient).symm.trans hstart
          cases hsame
          rfl

/-- The parts of it that the invariants below start from. -/
theorem Started.parts {env : Env} {port : Int} {state : ProxyState}
    (hstart : Started env port state) :
    state.server.mProxyServer = some 0 ∧ state.server.mRealServer = some 1 ∧
      state.server.mServerPeer = none ∧ state.server.mGtPeer = none ∧ state.nextHost = 2 ∧
      state.trace = [.hostFlush 1, .hostCreate 1 true, .hostCreate 0 false] := by
  rw [started_eq hstart]
  exact ⟨rfl, rfl, rfl, rfl, rfl, rfl⟩

/-! ## Pointers to live objects -/

/-- `m_server_peer` is null or a peer of the live host `m_real_server`, and every call
so far was made on live objects. -/
def Connected (state : ProxyState) : Prop :=
  (∀ peer, state.server.mServerPeer = some peer →
    state.server.mRealServer = some peer.host ∧ peer.host ∈ liveHosts state.trace) ∧
  ValidTrace state.trace

/-- What all events but a redirect out of a connection maintain. -/
structure Paired (state : ProxyState) : Prop where
  proxy : ∀ host, state.server.mProxyServer = some host → host ∈ liveHosts state.trace
  client : ∀ peer, state.server.mGtPeer = some peer → peer.host ∈ liveHosts state.trace
  real : ∀ host, state.server.mRealServer = some host →
    host ∈ liveHosts state.trace ∧ state.server.mProxyServer ≠ some host ∧
      ∀ peer, state.server.mGtPeer = some peer → peer.host ≠ host
  server : ∀ peer, state.server.mServerPeer = some peer →
    state.server.mRealServer = some peer.host
  fresh : ∀ host ∈ liveHosts state.trace, host < state.nextHost
  valid : ValidTrace state.trace

namespace Paired

variable {state : ProxyState}

theorem connected (hpaired : Paired state) : Connected state :=
  ⟨fun peer hpeer => ⟨hpaired.server peer hpeer,
    (hpaired.real _ (hpaired.server peer hpeer)).1⟩, hpaired.valid⟩

/-- Calls that neither create nor destroy a host only have to be valid. -/
theorem call (hpaired : Paired state) {next : ProxyState} {call : Call}
    (hserver : SamePointers next.server state.server) (hnext : next.nextHost = state.nextHost)
    (htrace : next.trace = call :: state.trace)
    (hlive : liveHosts (call :: state.trace) = liveHosts state.trace)
    (hvalid : call.Valid (liveHosts state.trace)) : Paired next where
  proxy := by rw [hserver.proxyServer, htrace, hlive]; exact hpaired.proxy
  client := by rw [hserver.gtPeer, htrace, hlive]; exact hpaired.client
  real := by
    rw [hserver.realServer, hserver.proxyServer, hserver.gtPeer, htrace, hlive]
    exact hpaired.real
  server := by rw [hserver.serverPeer, hserver.realServer]; exact hpaired.server
  fresh := by rw [htrace, hlive, hnext]; exact hpaired.fresh
  valid := by rw [htrace]; exact ⟨hvalid, hpaired.valid⟩

/-- Both ends of a send are alive. -/
theorem target (hpaired : Paired state) {client : Bool} {peer : Peer} {host : Host}
    (htarget : state.target client = some (peer, host)) :
    peer.host ∈ liveHosts state.trace ∧ host ∈ liveHosts state.trace := by
  obtain ⟨hpeer, hhost⟩ := ProxyState.target_eq_some htarget
  cases client with
  | true => exact ⟨hpaired.client _ hpeer, hpaired.proxy _ hhost⟩
  | false => exact ⟨(hpaired.real _ (hpaired.server _ hpeer)).1, (hpaired.real _ hhost).1⟩

theorem sendAndFlush (hpaired : Paired state) {client : Bool} {peer : Peer} {host : Host}
    (htarget : state.target client = some (peer, host)) (source : Source) (data : Bytes) :
    Paired (state.sendAndFlush source peer host data) := by
  obtain ⟨hpeer, hhost⟩ := hpaired.target htarget
  have hsent : Paired { state with
      trace := .peerSend peer source data (state.sendCode data) :: state.trace } :=
    hpaired.call .rfl rfl rfl rfl hpeer
  exact hsent.call .rfl rfl rfl rfl hhost

/-- Destroying the host of the connection leaves the proxy host alone. -/
theorem destroy (hpaired : Paired state) {real : Host}
    (hreal : state.server.mRealServer = some real) :
    Paired { state with
      server := { state.server with mServerPeer := none, mRealServer := none }
      trace := .hostDestroy real :: state.trace } := by
  obtain ⟨hlive, hproxy, hclient⟩ := hpaired.real real hreal
  refine ⟨fun host hhost => ?_, fun peer hpeer => ?_, nofun, nofun, fun host hhost => ?_,
    ⟨hlive, hpaired.valid⟩⟩
  · refine List.mem_filter.mpr ⟨hpaired.proxy host hhost, ?_⟩
    simpa using fun hsame : host = real => hproxy (hsame ▸ hhost)
  · exact List.mem_filter.mpr ⟨hpaired.client peer hpeer, by simpa using hclient peer hpeer⟩
  · exact hpaired.fresh host (List.mem_filter.mp hhost).1

theorem dropConnection (hpaired : Paired state) : Paired state.dropConnection := by
  unfold ProxyState.dropConnection
  cases hpeer : state.server.mServerPeer with
  | none => exact hpaired
  | some peer =>
      have hreal := hpaired.server peer hpeer
      have hclosed : Paired { state with trace := .peerDisconnect peer :: state.trace } :=
        hpaired.call .rfl rfl rfl rfl (hpaired.real _ hreal).1
      simp only [hreal]
      exact hclosed.destroy hreal

theorem disconnect (hpaired : Paired state) (reset : Bool) : Paired (state.disconnect reset) := by
  have hworld : Paired { state with server := { state.server with
      mWorld := { state.server.mWorld with
        connected := false, localPlayer := {}, players := [] } } } :=
    ⟨hpaired.proxy, hpaired.client, hpaired.real, hpaired.server, hpaired.fresh, hpaired.valid⟩
  have hdropped := hworld.dropConnection
  unfold ProxyState.disconnect
  cases reset with
  | false => exact hdropped
  | true =>
      exact ⟨hdropped.proxy, hdropped.client, hdropped.real, hdropped.server, hdropped.fresh,
        ⟨trivial, hdropped.valid⟩⟩

/-- Effects keep the pairing. -/
theorem effect (hpaired : Paired state) {next : ProxyState} (heffect : Effect state next) :
    Paired next := by
  cases heffect with
  | move hmove =>
      cases hmove with
      | edit world out gt tick =>
          exact ⟨hpaired.proxy, hpaired.client, hpaired.real, hpaired.server, hpaired.fresh,
            hpaired.valid⟩
      | send client peer host data htarget => exact hpaired.sendAndFlush htarget .built data
      | disconnect reset => exact hpaired.disconnect reset
  | handOver client peer host packet htarget =>
      exact hpaired.sendAndFlush htarget .received packet
  | destroy => exact hpaired.call .rfl rfl rfl rfl trivial
  | remember host slot hhost =>
      refine ⟨hpaired.proxy, fun peer hpeer => ?_, fun real hreal => ?_, hpaired.server,
        hpaired.fresh, hpaired.valid⟩
      · cases hpeer
        exact hpaired.proxy host hhost
      · obtain ⟨hlive, hproxy, -⟩ := hpaired.real real hreal
        refine ⟨hlive, hproxy, fun peer hpeer hsame => hproxy ?_⟩
        cases hpeer
        rw [← hsame]
        exact hhost

theorem effects (hpaired : Paired state) {next : ProxyState}
    (heffects : Relation.ReflTransGen Effect state next) : Paired next := by
  induction heffects with
  | refl => exact hpaired
  | tail _ heffect ih => exact ih.effect heffect

theorem remember (hpaired : Paired state) {host : Host}
    (hhost : state.server.mProxyServer = some host) (slot : Nat) :
    Paired (rememberPeer state host slot) :=
  hpaired.effect (.remember state host slot hhost)

/-- A new host is different from all others, so nothing that is alive is confused
with it. -/
theorem connect (hpaired : Paired state) : Paired (afterConnect state) := by
  have hnew : ∀ host ∈ liveHosts state.trace, host ≠ state.nextHost :=
    fun host hhost => (hpaired.fresh host hhost).ne
  refine ⟨fun host hhost => .tail _ (hpaired.proxy host hhost),
    fun peer hpeer => .tail _ (hpaired.client peer hpeer), fun real hreal => ?_,
    fun peer hpeer => ?_, fun host hhost => ?_,
    ⟨List.mem_cons_self, List.mem_cons_self, trivial, hpaired.valid⟩⟩
  · cases hreal
    refine ⟨List.mem_cons_self, fun hproxy => ?_, fun peer hpeer => ?_⟩
    · exact hnew _ (hpaired.proxy _ hproxy) rfl
    · exact hnew _ (hpaired.client peer hpeer)
  · unfold afterConnect at hpeer ⊢
    by_cases hconnected : state.env.hostConnected (state.tick + 1) = true
    · rw [if_pos hconnected] at hpeer
      cases hpeer
      rfl
    · rw [if_neg hconnected] at hpeer
      cases hpeer
  · change host ∈ state.nextHost :: liveHosts state.trace at hhost
    change host < state.nextHost + 1
    rcases List.mem_cons.mp hhost with rfl | hold
    · exact Nat.lt_succ_self _
    · exact (hpaired.fresh host hold).trans (Nat.lt_succ_self _)

/-- Without a connection the host can go. -/
theorem dropIdleHost (hpaired : Paired state) (hidle : state.server.mServerPeer = none) :
    Paired (dropHost state) := by
  unfold dropHost
  cases hreal : state.server.mRealServer with
  | none => exact hpaired
  | some real =>
      have hdestroyed := hpaired.destroy hreal
      exact ⟨hdestroyed.proxy, hdestroyed.client, nofun,
        fun peer hpeer => (by rw [hidle] at hpeer; cases hpeer), hdestroyed.fresh,
        hdestroyed.valid⟩

theorem stored (hpaired : Paired state) {server : Server}
    (hpointers : SamePointers server state.server) (gt : Gt) :
    Paired (redirectStored { state with gt := gt } server) :=
  hpaired.call hpointers rfl rfl rfl trivial

/-- Sending the list of a redirect keeps the pairing. -/
theorem sendVariant (hpaired : Paired state) {client : Bool} {list : VariantList}
    {netid delay : Int} {sent : ProxyState}
    (hsent : (Handler.sendVariant client list netid delay).code.run state = .ok () sent) :
    Paired sent ∧ sent.server = state.server := by
  rcases Handler.sendVariant_eq_ok hsent with ⟨-, rfl⟩ | ⟨peer, host, packet, htarget, -, rfl⟩
  · exact ⟨hpaired, rfl⟩
  · exact ⟨hpaired.sendAndFlush htarget .built packet, rfl⟩

/-- A redirect without a connection destroys an idle host. -/
theorem redirect (hpaired : Paired state) (hidle : state.server.mServerPeer = none)
    {list : VariantList} {next : ProxyState} (hredirects : Redirects list state next) :
    Paired next := by
  obtain ⟨-, gt, sent, hsent, rfl⟩ := hredirects
  have hpointers := redirectTarget_pointers state.server list
  have hstored := hpaired.stored hpointers gt
  obtain ⟨hsentPaired, hserver⟩ := hstored.sendVariant hsent
  have hnone : sent.server.mServerPeer = none := by
    rw [hserver]
    exact hpointers.serverPeer.trans hidle
  exact (hsentPaired.dropIdleHost hnone).call .rfl rfl rfl rfl trivial

end Paired

/-- A redirect keeps the peer of the connection. -/
theorem Redirects.pointers {list : VariantList} {state next : ProxyState}
    (hredirects : Redirects list state next) :
    next.server.mServerPeer = state.server.mServerPeer ∧ next.server.mRealServer = none := by
  obtain ⟨-, gt, sent, hsent, rfl⟩ := hredirects
  have hkept : sent.server.mServerPeer = state.server.mServerPeer := by
    have hserver : sent.server = redirectTarget state.server list := by
      rcases Handler.sendVariant_eq_ok hsent with ⟨-, rfl⟩ | ⟨peer, host, packet, -, -, rfl⟩
      · rfl
      · rfl
    rw [hserver]
    exact (redirectTarget_pointers state.server list).serverPeer
  unfold dropHost
  cases hreal : sent.server.mRealServer with
  | none => exact ⟨hkept, hreal⟩
  | some real => exact ⟨hkept, rfl⟩

/-- The steps that keep the pairing: those that do not redirect, and redirects while
there is no connection. -/
def KeepsPeer (state : ProxyState) (input : Input) : Prop :=
  redirectInput input = none ∨ state.server.mServerPeer = none

theorem paired_step {state next : ProxyState} {input : Input} (hpaired : Paired state)
    (hkeeps : KeepsPeer state input) (hstep : step state input = some next) : Paired next := by
  rcases step_cases hstep with ⟨slot, host, -, hhost, -, rfl⟩ | ⟨list, hlist, -, hredirects⟩ |
    ⟨-, -, heffects⟩
  · exact (hpaired.remember hhost slot).connect
  · rcases hkeeps with hnone | hidle
    · rw [hlist] at hnone
      cases hnone
    · exact hpaired.redirect hidle hredirects
  · exact hpaired.effects heffects

theorem not_connected_step {state next : ProxyState} {input : Input}
    (hloses : ¬ KeepsPeer state input) (hstep : step state input = some next) :
    ¬ Connected next := by
  rintro ⟨hpeer, -⟩
  simp only [KeepsPeer, not_or] at hloses
  rcases step_cases hstep with ⟨slot, host, rfl, -⟩ | ⟨list, -, -, hredirects⟩ | ⟨hnone, -⟩
  · exact hloses.1 rfl
  · obtain ⟨hsame, hreal⟩ := hredirects.pointers
    obtain ⟨peer, hsome⟩ := Option.ne_none_iff_exists'.mp hloses.2
    rw [hsome] at hsame
    have hpaired := (hpeer peer hsame).1
    rw [hreal] at hpaired
    cases hpaired
  · exact hloses.1 hnone

theorem paired_started {env : Env} {port : Int} {state : ProxyState}
    (hstart : Started env port state) : Paired state := by
  obtain ⟨hproxy, hreal, hpeer, hclient, hnext, htrace⟩ := hstart.parts
  have hlive : liveHosts state.trace = [1, 0] := by
    rw [htrace]
    rfl
  refine ⟨?_, ?_, ?_, ?_, ?_, ?_⟩
  · intro host hhost
    rw [hproxy, Option.some_inj] at hhost
    simp [hlive, ← hhost]
  · simp [hclient]
  · intro host hhost
    rw [hreal, Option.some_inj] at hhost
    simp [hlive, hproxy, hclient, ← hhost]
  · simp [hpeer]
  · simp [hlive, hnext]
  · rw [htrace]
    exact ⟨List.mem_cons_self, trivial, trivial, trivial⟩

/-- In a run, the peer of the connection belongs to its live host throughout, and only
live objects are used, exactly if no redirect arrives over a connection. -/
theorem connected_iff {env : Env} {port : Int} {state : ProxyState}
    (hstart : Started env port state) (inputs : List Input) :
    EveryState step Connected state inputs ↔ EveryStep step KeepsPeer state inputs :=
  Runs.everyState_iff_everyStep (fun _ hpaired => hpaired.connected)
    (fun _ _ _ hpaired hkeeps hstep => paired_step hpaired hkeeps hstep)
    (fun _ _ _ _ hloses hstep => not_connected_step hloses hstep)
    inputs state (paired_started hstart)


/-- A client connects, nothing redirects. -/
theorem connected_until_disconnect :
    EveryState step Connected (afterStart {} 17201) [.client 0 .connect, .server .disconnect] :=
  (connected_iff (start_run 17201 rfl rfl) _).mpr
    fun _ _ => ⟨.inl rfl, fun _ _ => ⟨.inl rfl, trivial⟩⟩

/-- The packet in which the server sends the client elsewhere. -/
def redirectPacket : Bytes :=
  let list := (((((VariantList.ofString (ascii "OnSendToServer")).modify 1
    (Variant.setInt32 17001)).modify 2 (Variant.setInt32 7)).modify 3
    (Variant.setInt32 9)).modify 4 (Variant.setString (ascii "10.0.0.2|door|")))
  callPacket (-1) 0 (UInt32.ofNat list.encoding.length) list.encoding

/-- A redirect that arrives over a connection leaves a peer of a destroyed host behind. -/
theorem redirect_keeps_peer :
    ¬ EveryState step Connected (afterStart {} 17201)
      [.client 0 .connect, .server (.receive redirectPacket)] := by
  intro hevery
  have hlast : (runSteps step (afterStart {} 17201)
      [.client 0 .connect, .server (.receive redirectPacket)]).any (fun state =>
        state.server.mServerPeer = some ⟨2, 0⟩ ∧ state.server.mRealServer = none) = true := by
    decide +kernel
  obtain ⟨last, hrun, hpointers⟩ := (Option.any_eq_true _ _).mp hlast
  obtain ⟨hpeer, hreal⟩ := of_decide_eq_true hpointers
  have hpaired := ((Runs.everyState_last hevery hrun).1 _ hpeer).1
  rw [hreal] at hpaired
  cases hpaired

/-! ## One client host at a time -/

/-- The client hosts that are alive are among `{ m_real_server }`. -/
def SingleClient (state : ProxyState) : Prop :=
  ∀ host ∈ liveClients state.trace, state.server.mRealServer = some host

/-- The client hosts that are alive are exactly what `m_real_server` points to. -/
structure Sole (state : ProxyState) : Prop where
  clients : liveClients state.trace = state.server.mRealServer.toList
  fresh : ∀ host, state.server.mRealServer = some host → host < state.nextHost

namespace Sole

variable {state : ProxyState}

theorem singleClient (hsole : Sole state) : SingleClient state := by
  intro host hhost
  rw [hsole.clients] at hhost
  exact Option.mem_toList.mp hhost

/-- Calls that leave the client hosts alone. -/
theorem call (hsole : Sole state) {next : ProxyState} {call : Call}
    (hreal : next.server.mRealServer = state.server.mRealServer)
    (hnext : next.nextHost = state.nextHost) (htrace : next.trace = call :: state.trace)
    (hclients : liveClients (call :: state.trace) = liveClients state.trace) : Sole next where
  clients := by rw [htrace, hclients, hreal, hsole.clients]
  fresh := by rw [hreal, hnext]; exact hsole.fresh

theorem sendAndFlush (hsole : Sole state) (source : Source) (peer : Peer) (host : Host)
    (data : Bytes) : Sole (state.sendAndFlush source peer host data) := by
  have hsent : Sole { state with
      trace := .peerSend peer source data (state.sendCode data) :: state.trace } :=
    hsole.call rfl rfl rfl rfl
  exact hsent.call rfl rfl rfl rfl

/-- When the host goes, no client host is left. -/
theorem destroy (hsole : Sole state) {real : Host} (hreal : state.server.mRealServer = some real)
    {next : ProxyState} (hnone : next.server.mRealServer = none)
    (htrace : next.trace = .hostDestroy real :: state.trace) : Sole next where
  clients := by
    rw [htrace, liveClients, hsole.clients, hreal, hnone]
    simp
  fresh := by rw [hnone]; exact nofun

theorem dropConnection (hsole : Sole state) : Sole state.dropConnection := by
  unfold ProxyState.dropConnection
  cases hpeer : state.server.mServerPeer with
  | none => exact hsole
  | some peer =>
      have hclosed : Sole { state with trace := .peerDisconnect peer :: state.trace } :=
        hsole.call rfl rfl rfl rfl
      cases hreal : state.server.mRealServer with
      | none =>
          exact ⟨hclosed.clients.trans (by rw [hreal]), nofun⟩
      | some real => exact hclosed.destroy hreal rfl rfl

theorem disconnect (hsole : Sole state) (reset : Bool) : Sole (state.disconnect reset) := by
  have hworld : Sole { state with server := { state.server with
      mWorld := { state.server.mWorld with
        connected := false, localPlayer := {}, players := [] } } } :=
    ⟨hsole.clients, hsole.fresh⟩
  have hdropped := hworld.dropConnection
  unfold ProxyState.disconnect
  cases reset with
  | false => exact hdropped
  | true => exact ⟨hdropped.clients, hdropped.fresh⟩

theorem effect (hsole : Sole state) {next : ProxyState} (heffect : Effect state next) :
    Sole next := by
  cases heffect with
  | move hmove =>
      cases hmove with
      | edit world out gt tick => exact ⟨hsole.clients, hsole.fresh⟩
      | send client peer host data htarget => exact hsole.sendAndFlush .built peer host data
      | disconnect reset => exact hsole.disconnect reset
  | handOver client peer host packet htarget =>
      exact hsole.sendAndFlush .received peer host packet
  | destroy => exact hsole.call rfl rfl rfl rfl
  | remember host slot hhost => exact ⟨hsole.clients, hsole.fresh⟩

theorem effects (hsole : Sole state) {next : ProxyState}
    (heffects : Relation.ReflTransGen Effect state next) : Sole next := by
  induction heffects with
  | refl => exact hsole
  | tail _ heffect ih => exact ih.effect heffect

theorem sendVariant (hsole : Sole state) {client : Bool} {list : VariantList}
    {netid delay : Int} {sent : ProxyState}
    (hsent : (Handler.sendVariant client list netid delay).code.run state = .ok () sent) :
    Sole sent := by
  rcases Handler.sendVariant_eq_ok hsent with ⟨-, rfl⟩ | ⟨peer, host, packet, -, -, rfl⟩
  · exact hsole
  · exact hsole.sendAndFlush .built peer host packet

theorem stored (hsole : Sole state) {server : Server}
    (hpointers : SamePointers server state.server) (gt : Gt) :
    Sole (redirectStored { state with gt := gt } server) :=
  hsole.call hpointers.realServer rfl rfl rfl

theorem dropHost (hsole : Sole state) : Sole (dropHost state) := by
  unfold Server.dropHost
  cases hreal : state.server.mRealServer with
  | none => exact hsole
  | some real => exact hsole.destroy hreal rfl rfl

/-- A redirect leaves no client host. -/
theorem redirect (hsole : Sole state) {list : VariantList} {next : ProxyState}
    (hredirects : Redirects list state next) : Sole next := by
  obtain ⟨-, gt, sent, hsent, rfl⟩ := hredirects
  have hstored := hsole.stored (redirectTarget_pointers state.server list) gt
  exact (hstored.sendVariant hsent).dropHost.call rfl rfl rfl rfl

/-- A new connection is the only one if there was no client host. -/
theorem connect (hsole : Sole state) (hnone : state.server.mRealServer = none) :
    Sole (afterConnect state) where
  clients := by
    change state.nextHost :: liveClients state.trace = [state.nextHost]
    rw [hsole.clients, hnone]
    rfl
  fresh := by
    rintro host ⟨⟩
    exact Nat.lt_succ_self _

end Sole

/-- A client connects only while there is no client host. -/
def ConnectsFree (state : ProxyState) (input : Input) : Prop :=
  (∃ slot, input = .client slot .connect) → state.server.mRealServer = none

instance (state : ProxyState) : (input : Input) → Decidable (ConnectsFree state input)
  | .client slot .connect =>
      decidable_of_iff (state.server.mRealServer = none)
        ⟨fun hnone _ => hnone, fun hfree => hfree ⟨slot, rfl⟩⟩
  | .client _ .disconnect => .isTrue nofun
  | .client _ (.receive _) => .isTrue nofun
  | .server _ => .isTrue nofun

theorem sole_step {state next : ProxyState} {input : Input} (hsole : Sole state)
    (hfree : ConnectsFree state input) (hstep : step state input = some next) : Sole next := by
  rcases step_cases hstep with ⟨slot, host, hinput, hhost, -, rfl⟩ |
    ⟨list, -, -, hredirects⟩ | ⟨-, -, heffects⟩
  · have hremembered := hsole.effect (.remember state host slot hhost)
    exact hremembered.connect (hfree ⟨slot, hinput⟩)
  · exact hsole.redirect hredirects
  · exact hsole.effects heffects

/-- The host of before is orphaned by a connect. -/
theorem not_singleClient_step {state next : ProxyState} {input : Input} (hsole : Sole state)
    (hbusy : ¬ ConnectsFree state input) (hstep : step state input = some next) :
    ¬ SingleClient next := by
  intro hsingle
  simp only [ConnectsFree, Classical.not_imp] at hbusy
  obtain ⟨⟨slot, rfl⟩, hreal⟩ := hbusy
  obtain ⟨real, hreal⟩ := Option.ne_none_iff_exists'.mp hreal
  rcases step_cases hstep with ⟨_, host, -, -, -, rfl⟩ | ⟨list, hlist, -⟩ | ⟨-, hother, -⟩
  · have horphan : real ∈ liveClients (afterConnect (rememberPeer state host slot)).trace := by
      change real ∈ state.nextHost :: liveClients state.trace
      rw [hsole.clients, hreal]
      simp
    have hsame : some state.nextHost = some real := hsingle real horphan
    have hless := hsole.fresh real hreal
    exact hless.ne' (Option.some_inj.mp hsame)
  · cases hlist
  · exact hother slot rfl

theorem sole_started {env : Env} {port : Int} {state : ProxyState}
    (hstart : Started env port state) : Sole state := by
  obtain ⟨-, hreal, -, -, hnext, htrace⟩ := hstart.parts
  refine ⟨by rw [htrace, hreal]; rfl, fun host hhost => ?_⟩
  rw [hreal, Option.some_inj] at hhost
  rw [hnext, ← hhost]
  decide

/-- In a run, no client host is orphaned exactly if clients connect only while there is
no client host; `start` itself already creates one. -/
theorem singleClient_iff {env : Env} {port : Int} {state : ProxyState}
    (hstart : Started env port state) (inputs : List Input) :
    EveryState step SingleClient state inputs ↔ EveryStep step ConnectsFree state inputs :=
  Runs.everyState_iff_everyStep (fun _ hsole => hsole.singleClient)
    (fun _ _ _ hsole hfree hstep => sole_step hsole hfree hstep)
    (fun _ _ _ hsole hbusy hstep => not_singleClient_step hsole hbusy hstep)
    inputs state (sole_started hstart)

/-- A redirect, and then a client connects, for whom a new host is made. -/
theorem singleClient_after_redirect :
    ∃ last, runSteps step (afterStart {} 17201)
        [.server (.receive redirectPacket), .client 0 .connect] = some last ∧
      last.server.mRealServer = some 2 ∧
      EveryState step SingleClient (afterStart {} 17201)
        [.server (.receive redirectPacket), .client 0 .connect] := by
  have hany : (runSteps step (afterStart {} 17201)
      [.server (.receive redirectPacket), .client 0 .connect]).any (fun last =>
        decide (last.server.mRealServer = some 2)) = true := by decide +kernel
  obtain ⟨last, hrun, hreal⟩ := (Option.any_eq_true _ _).mp hany
  exact ⟨last, hrun, of_decide_eq_true hreal,
    (singleClient_iff (start_run 17201 rfl rfl) _).mpr (by decide +kernel)⟩

/-- The first client that connects orphans the host that `start` created. -/
theorem first_connect_orphans :
    ¬ EveryState step SingleClient (afterStart {} 17201) [.client 0 .connect] := by
  intro hevery
  have hlast : (runSteps step (afterStart {} 17201) [.client 0 .connect]).any (fun state =>
      1 ∈ liveClients state.trace ∧ state.server.mRealServer = some 2) = true := by
    decide +kernel
  obtain ⟨last, hrun, hclients⟩ := (Option.any_eq_true _ _).mp hlast
  obtain ⟨hlive, hreal⟩ := of_decide_eq_true hclients
  have hsame := Runs.everyState_last hevery hrun 1 hlive
  rw [hreal] at hsame
  cases hsame

end SrmotionProxy.Server
