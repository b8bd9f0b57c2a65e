/-
# Redirects to another server

What `redirect_server` hides from the client and what the next connection makes of it.
The client is sent to the proxy itself; the server's address goes into `m_server` and
`m_port`, from where `connect` takes it, unless a reset comes in between.
-/

import SrmotionProxy.Lifetime
import SrmotionProxy.Resend

namespace SrmotionProxy.Server

open SrmotionProxy.Lib SrmotionProxy.ENet SrmotionProxy.Proton

/-! ## The list that is sent on -/

theorem value_getUint32 (v : Variant) :
    v.getUint32.2.value = if v.mType = .unused then .uint32 0 else v.value := by
  unfold Variant.getUint32
  by_cases hunused : v.mType = .unused
  · simp only [if_pos hunused]
    rfl
  · simp only [if_neg hunused]

theorem getUint32_of_used {v : Variant} (hused : v.mType ≠ .unused) :
    v.getUint32 = (v.mVar.w0, v) := by
  unfold Variant.getUint32
  rw [if_neg hused]

/-- The slots of the list that is sent on. -/
theorem redirectList_slots (server : Server) (list : VariantList) :
    redirectList server list 0 = list 0 ∧
      redirectList server list 1 =
        (list 1).getUint32.2.setInt32 (UInt32.ofInt server.mProxyport) ∧
      redirectList server list 2 = (list 2).getUint32.2 ∧
      redirectList server list 3 = (list 3).getUint32.2 ∧
      redirectList server list 4 = (list 4).setString (server.ipserver ++
        (list 4).getString.drop (findPos (list 4).getString (ascii "|"))) ∧
      redirectList server list 5 = list 5 ∧ redirectList server list 6 = list 6 := by
  refine ⟨?_, ?_, ?_, ?_, ?_, ?_, ?_⟩ <;>
    simp [redirectList, readList, VariantList.modify]

theorem sendable_getUint32 {v : Variant} (hv : v.mType = .unused ∨ v.mType.carried = true) :
    v.getUint32.2.mType = .unused ∨ v.getUint32.2.mType.carried = true := by
  by_cases hunused : v.mType = .unused
  · rw [Variant.getUint32, if_pos hunused]
    exact .inr rfl
  · rw [getUint32_of_used hunused]
    exact hv

theorem redirectList_sendable (server : Server) {list : VariantList}
    (hsendable : list.Sendable) : (redirectList server list).Sendable := by
  obtain ⟨h0, h1, h2, h3, h4, h5, h6⟩ := redirectList_slots server list
  intro slot
  match slot with
  | 0 => rw [h0]; exact hsendable 0
  | 1 => rw [h1]; exact .inr rfl
  | 2 => rw [h2]; exact sendable_getUint32 (hsendable 2)
  | 3 => rw [h3]; exact sendable_getUint32 (hsendable 3)
  | 4 => rw [h4]; exact .inr rfl
  | 5 => rw [h5]; exact hsendable 5
  | 6 => rw [h6]; exact hsendable 6

theorem mString_getUint32 (v : Variant) : v.getUint32.2.mString = v.mString := by
  unfold Variant.getUint32
  by_cases hunused : v.mType = .unused
  · simp only [if_pos hunused]
    rfl
  · simp only [if_neg hunused]

/-- Strings from a packet and an address no longer than one still fit. -/
theorem redirectList_fits {server : Server} {list : VariantList}
    (hstrings : ∀ slot, (list slot).mString.length ≤ maximumPacketSize)
    (haddress : server.ipserver.length ≤ maximumPacketSize) :
    (redirectList server list).encoding.length < 2 ^ 31 := by
  obtain ⟨h0, h1, h2, h3, h4, h5, h6⟩ := redirectList_slots server list
  have hall : ∀ slot, (redirectList server list slot).mString.length ≤ 2 * maximumPacketSize := by
    intro slot
    have hslot := hstrings slot
    match slot with
    | 0 => rw [h0]; omega
    | 1 =>
        rw [h1, Variant.setInt32, mString_getUint32]
        omega
    | 2 => rw [h2, mString_getUint32]; omega
    | 3 => rw [h3, mString_getUint32]; omega
    | 4 =>
        rw [h4, Variant.setString, Variant.getString]
        simp only [List.length_append, List.length_drop]
        omega
    | 5 => rw [h5]; omega
    | 6 => rw [h6]; omega
  have hlength := length_encoding_le hall
  unfold maximumPacketSize at hlength
  omega

/-- Splitting at the first bar and joining again gives the text back. -/
theorem split_at_bar {text : Bytes} (hbar : bar ∈ text) :
    ∃ before after, text = before ++ bar :: after ∧ bar ∉ before ∧
      findPos text (ascii "|") = before.length := by
  obtain ⟨before, after, htext, hfree⟩ := List.eq_append_cons_of_mem hbar
  refine ⟨before, after, htext, hfree, ?_⟩
  have hliteral : ascii "|" = [bar] := rfl
  rw [findPos, hliteral, htext, Seq.find_singleton_of_not_mem hfree]
  rfl

/-- The client is sent to the proxy and nothing of the original address is lost. -/
structure SentOn (before : Server) (list received : VariantList) (after : Server) : Prop where
  kept : ∀ slot, slot = 0 ∨ slot = 5 ∨ slot = 6 → (received slot).value = (list slot).value
  numbers : ∀ slot, slot = 2 ∨ slot = 3 → (received slot).value =
    if (list slot).mType = .unused then .uint32 0 else (list slot).value
  port : (received 1).value = .int32 (UInt32.ofInt before.mProxyport)
  address : ∃ suffix, (received 4).value = .string (before.ipserver ++ bar :: suffix) ∧
    after.mServer ++ bar :: suffix = (list 4).mString ∧ bar ∉ after.mServer
  stored : after.mPort = (list 1).mVar.w0.toNat

theorem wrapInt_of_port {value : Nat} (hport : value ≤ 65535) : wrapInt value = value := by
  unfold wrapInt
  omega

theorem redirect_sends {state : ProxyState} {list : VariantList} {peer : Peer} {host : Host}
    (hpeer : state.server.mGtPeer = some peer) (hhost : state.server.mProxyServer = some host)
    (htype : (list 1).mType = .uint32 ∨ (list 1).mType = .int32)
    (hport : (list 1).mVar.w0.toNat ≤ 65535) (hbar : bar ∈ (list 4).mString)
    (hsendable : list.Sendable)
    (hstrings : ∀ slot, (list slot).mString.length ≤ maximumPacketSize)
    (haddress : state.server.ipserver.length ≤ maximumPacketSize) :
    ∃ after packet received code, (redirectServer list).run state = .ok () after ∧
      after.trace = (state.server.mRealServer.toList.map Call.hostDestroy) ++
        .hostFlush host :: .peerSend peer .built packet code ::
          .redirected after.server.mServer after.server.mPort :: state.trace ∧
      getStruct packet = .ok (some packet) ∧ Packet.mType packet = PACKET_CALL_FUNCTION ∧
      Events.In.decodeCall packet = .ok received ∧
      SentOn state.server list received after.server := by
  obtain ⟨packet, received, hpacket, -, hstruct, hcall, -, -, hdecode, hvalues⟩ :=
    callFunctionPacket_decodes (redirectList_sendable state.server hsendable)
      (redirectList_fits hstrings haddress) (by decide : intMin ≤ -1 ∧ -1 ≤ intMax)
      (by decide : intMin ≤ 0 ∧ 0 ≤ intMax)
  obtain ⟨before, suffix, htext, hfree, hpos⟩ := split_at_bar hbar
  obtain ⟨hserver, hstored⟩ := redirectTarget_address state.server list
  have hused : (list 1).mType ≠ .unused := by
    rcases htype with htype | htype <;> rw [htype] <;> decide
  have hmServer : (redirectTarget state.server list).mServer = before := by
    rw [hserver, Variant.getString, hpos, htext, List.take_left]
  have hmPort : (redirectTarget state.server list).mPort = (list 1).mVar.w0.toNat := by
    rw [hstored, getUint32_of_used hused, wrapInt_of_port hport]
  have hpointers := redirectTarget_pointers state.server list
  have hrun (sent : ProxyState) := @redirectServer_run_ok state sent list (by
    rw [Variant.getString, hpos, htext, List.length_append]
    omega)
  generalize redirectTarget state.server list = server at hmServer hmPort hpointers hrun
  have htarget : (redirectStored state server).target true = some (peer, host) := by
    simp [ProxyState.target, redirectStored, hpointers.gtPeer, hpointers.proxyServer, hpeer,
      hhost]
  refine ⟨_, packet, received, (redirectStored state server).sendCode packet,
    hrun _ (Handler.sendVariant_run htarget hpacket), ?_, hstruct, hcall, hdecode, ?_⟩
  · rw [dropHost_trace, dropHost_server, ← hpointers.realServer]
    rfl
  · obtain ⟨h0, h1, h2, h3, h4, h5, h6⟩ := redirectList_slots state.server list
    have hslot (slot : Fin 7) :
        (received slot).value = (redirectList state.server list slot).value :=
      congrFun hvalues slot
    rw [dropHost_server]
    refine ⟨?_, ?_, ?_, ⟨suffix, ?_, ?_, ?_⟩, hmPort⟩
    · rintro slot (rfl | rfl | rfl)
      · rw [hslot, h0]
      · rw [hslot, h5]
      · rw [hslot, h6]
    · rintro slot (rfl | rfl)
      · rw [hslot, h2, value_getUint32]
      · rw [hslot, h3, value_getUint32]
    · rw [hslot, h1]
      rfl
    · rw [hslot, h4, Variant.getString, hpos, htext, List.drop_left]
      rfl
    · change server.mServer ++ bar :: suffix = _
      rw [hmServer, htext]
    · change bar ∉ server.mServer
      rwa [hmServer]

/-! ## Where connections go -/

/-- The address of the most recent redirect since the last reset. -/
def dialTarget (home : Bytes) (homePort : Int) : List Call → Bytes × Int
  | [] => (home, homePort)
  | .redirected server port :: _ => (server, port)
  | .reset :: _ => (home, homePort)
  | _ :: earlier => dialTarget home homePort earlier

/-- Every connection of the trace went to the target at the time. -/
def Dials (home : Bytes) (homePort : Int) : List Call → Prop
  | [] => True
  | .hostConnect _ address port :: earlier =>
      address = cStr (dialTarget home homePort earlier).1 ∧
        port = ((dialTarget home homePort earlier).2 % 65536).toNat ∧
        Dials home homePort earlier
  | _ :: earlier => Dials home homePort earlier

/-- `m_server` and `m_port` are the target. -/
structure Aimed (home : Bytes) (homePort : Int) (state : ProxyState) : Prop where
  serverz : state.server.serverz = home
  portz : state.server.portz = homePort
  target : (state.server.mServer, state.server.mPort) = dialTarget home homePort state.trace
  dials : Dials home homePort state.trace

namespace Aimed

variable {home : Bytes} {homePort : Int} {state : ProxyState}

/-- Calls that are neither a connection nor a redirect nor a reset. -/
theorem call (haimed : Aimed home homePort state) {next : ProxyState} {call : Call}
    (hhome : next.server.serverz = state.server.serverz)
    (hhomePort : next.server.portz = state.server.portz)
    (hserver : next.server.mServer = state.server.mServer)
    (hport : next.server.mPort = state.server.mPort) (htrace : next.trace = call :: state.trace)
    (htarget : dialTarget home homePort (call :: state.trace) =
      dialTarget home homePort state.trace)
    (hdials : Dials home homePort (call :: state.trace) = Dials home homePort state.trace) :
    Aimed home homePort next where
  serverz := by rw [hhome, haimed.serverz]
  portz := by rw [hhomePort, haimed.portz]
  target := by rw [hserver, hport, htrace, htarget, haimed.target]
  dials := by rw [htrace, hdials]; exact haimed.dials

theorem sendAndFlush (haimed : Aimed home homePort state) (source : Source) (peer : Peer)
    (host : Host) (data : Bytes) :
    Aimed home homePort (state.sendAndFlush source peer host data) := by
  have hsent : Aimed home homePort { state with
      trace := .peerSend peer source data (state.sendCode data) :: state.trace } :=
    haimed.call rfl rfl rfl rfl rfl rfl rfl
  exact hsent.call rfl rfl rfl rfl rfl rfl rfl

theorem dropConnection (haimed : Aimed home homePort state) :
    Aimed home homePort state.dropConnection := by
  unfold ProxyState.dropConnection
  cases hpeer : state.server.mServerPeer with
  | none => exact haimed
  | some peer =>
      have hclosed : Aimed home homePort { state with
          trace := .peerDisconnect peer :: state.trace } :=
        haimed.call rfl rfl rfl rfl rfl rfl rfl
      cases hreal : state.server.mRealServer with
      | none => exact ⟨hclosed.serverz, hclosed.portz, hclosed.target, hclosed.dials⟩
      | some real => exact hclosed.call rfl rfl rfl rfl rfl rfl rfl

/-- A disconnect keeps the target unless it resets it. -/
theorem disconnect (haimed : Aimed home homePort state) (reset : Bool) :
    Aimed home homePort (state.disconnect reset) := by
  have hworld : Aimed home homePort { state with server := { state.server with
      mWorld := { state.server.mWorld with
        connected := false, localPlayer := {}, players := [] } } } :=
    ⟨haimed.serverz, haimed.portz, haimed.target, haimed.dials⟩
  have hdropped := hworld.dropConnection
  unfold ProxyState.disconnect
  cases reset with
  | false => exact hdropped
  | true =>
      refine ⟨hdropped.serverz, hdropped.portz, ?_, hdropped.dials⟩
      exact Prod.ext hdropped.serverz hdropped.portz

theorem effect (haimed : Aimed home homePort state) {next : ProxyState}
    (heffect : Effect state next) : Aimed home homePort next := by
  cases heffect with
  | move hmove =>
      cases hmove with
      | edit world out gt tick =>
          exact ⟨haimed.serverz, haimed.portz, haimed.target, haimed.dials⟩
      | send client peer host data htarget => exact haimed.sendAndFlush .built peer host data
      | disconnect reset => exact haimed.disconnect reset
  | handOver client peer host packet htarget =>
      exact haimed.sendAndFlush .received peer host packet
  | destroy => exact haimed.call rfl rfl rfl rfl rfl rfl rfl
  | remember host slot hhost =>
      exact ⟨haimed.serverz, haimed.portz, haimed.target, haimed.dials⟩

theorem effects (haimed : Aimed home homePort state) {next : ProxyState}
    (heffects : Relation.ReflTransGen Effect state next) : Aimed home homePort next := by
  induction heffects with
  | refl => exact haimed
  | tail _ heffect ih => exact ih.effect heffect

/-- A connection dials the target. -/
theorem connect (haimed : Aimed home homePort state) :
    Aimed home homePort (afterConnect state) := by
  have htarget := haimed.target
  refine ⟨haimed.serverz, haimed.portz, haimed.target, ?_, ?_, haimed.dials⟩
  · exact congrArg (fun target : Bytes × Int => cStr target.1) htarget
  · exact congrArg (fun target : Bytes × Int => (target.2 % 65536).toNat) htarget

/-- A redirect sets the target. -/
theorem redirect (haimed : Aimed home homePort state) {list : VariantList} {next : ProxyState}
    (hredirects : Redirects list state next) : Aimed home homePort next := by
  obtain ⟨-, gt, sent, hsent, rfl⟩ := hredirects
  obtain ⟨hhome, hhomePort⟩ := redirectTarget_home state.server list
  generalize redirectTarget state.server list = server at hhome hhomePort hsent
  have hstored : Aimed home homePort (redirectStored { state with gt := gt } server) :=
    ⟨hhome.trans haimed.serverz, hhomePort.trans haimed.portz, rfl, haimed.dials⟩
  have hsentAimed : Aimed home homePort sent := by
    rcases Handler.sendVariant_eq_ok hsent with ⟨-, rfl⟩ | ⟨peer, host, packet, -, -, rfl⟩
    · exact hstored
    · exact hstored.sendAndFlush .built peer host packet
  have hdropped : Aimed home homePort (dropHost sent) := by
    unfold dropHost
    cases hreal : sent.server.mRealServer with
    | none => exact hsentAimed
    | some real => exact hsentAimed.call rfl rfl rfl rfl rfl rfl rfl
  exact hdropped.call rfl rfl rfl rfl rfl rfl rfl

theorem step (haimed : Aimed home homePort state) {next : ProxyState} {input : Input}
    (hstep : Server.step state input = some next) : Aimed home homePort next := by
  rcases step_cases hstep with ⟨slot, host, -, hhost, -, rfl⟩ | ⟨list, -, -, hredirects⟩ |
    ⟨-, -, heffects⟩
  · exact (haimed.effect (.remember state host slot hhost)).connect
  · exact haimed.redirect hredirects
  · exact haimed.effects heffects

end Aimed

theorem aimed_started {env : Env} {port : Int} {state : ProxyState}
    (hstart : Started env port state) :
    Aimed (initial env port).server.serverz port state := by
  rw [started_eq hstart]
  exact ⟨rfl, rfl, rfl, trivial⟩

/-- Redirects are passed on to the client in the proxy's name, and every connection of
a run goes where the most recent redirect since the last reset pointed, or home. -/
theorem redirect_followed :
    (∀ (state : ProxyState) (list : VariantList) (peer : Peer) (host : Host),
      state.server.mGtPeer = some peer → state.server.mProxyServer = some host →
      ((list 1).mType = .uint32 ∨ (list 1).mType = .int32) →
      (list 1).mVar.w0.toNat ≤ 65535 → bar ∈ (list 4).mString → list.Sendable →
      (∀ slot, (list slot).mString.length ≤ maximumPacketSize) →
      state.server.ipserver.length ≤ maximumPacketSize →
      ∃ after packet received code, (redirectServer list).run state = .ok () after ∧
        after.trace = (state.server.mRealServer.toList.map Call.hostDestroy) ++
          .hostFlush host :: .peerSend peer .built packet code ::
            .redirected after.server.mServer after.server.mPort :: state.trace ∧
        getStruct packet = .ok (some packet) ∧ Packet.mType packet = PACKET_CALL_FUNCTION ∧
        Events.In.decodeCall packet = .ok received ∧
        SentOn state.server list received after.server) ∧
    ∀ (env : Env) (port : Int) (state last : ProxyState) (inputs : List Input),
      Started env port state → runSteps step state inputs = some last →
      Dials (initial env port).server.serverz port last.trace :=
  ⟨fun _ _ _ _ hpeer hhost htype hport hbar hsendable hstrings haddress =>
    redirect_sends hpeer hhost htype hport hbar hsendable hstrings haddress,
  fun _ _ _ _ inputs hstart hrun => (Runs.runSteps_invariant
    (fun _ _ _ haimed hstep => Aimed.step haimed hstep) inputs (aimed_started hstart) hrun).dials⟩

/-- A call with arguments of every kind, as the server sends it. -/
def sampleRedirect (token : Variant → Variant) : VariantList :=
  ((((VariantList.ofString (ascii "OnSendToServer")).modify 1 (Variant.setInt32 17001)).modify 2
    token).modify 3 (Variant.setUint32 9)).modify 4 (Variant.setString (ascii "10.0.0.2|door|"))

/-- The state of a proxy with a client. -/
def withClient : ProxyState :=
  { server := { mGtPeer := some ⟨0, 3⟩, mProxyServer := some 0 } }

/-- The sample reaches the client with the proxy's address. -/
theorem redirect_followed_sample :
    ∃ after packet received, (redirectServer (sampleRedirect (Variant.setInt32 7))).run withClient =
        .ok () after ∧
      Events.In.decodeCall packet = .ok received ∧
      SentOn withClient.server (sampleRedirect (Variant.setInt32 7)) received after.server := by
  have hsendable : (sampleRedirect (Variant.setInt32 7)).Sendable := by decide
  have hstrings : ∀ slot, (sampleRedirect (Variant.setInt32 7) slot).mString.length ≤
      maximumPacketSize := by decide
  obtain ⟨after, packet, received, _, hrun, -, -, -, hdecode, hsent⟩ :=
    redirect_followed.1 withClient (sampleRedirect (Variant.setInt32 7)) ⟨0, 3⟩ 0 rfl rfl
      (.inr rfl) (by decide) (by decide) hsendable hstrings (by decide)
  exact ⟨after, packet, received, hrun, hdecode, hsent⟩

/-- The packets in a trace that were sent to a peer. -/
def packetsTo (peer : Peer) : List Call → List Bytes
  | [] => []
  | .peerSend target _ data _ :: earlier =>
      if target = peer then data :: packetsTo peer earlier else packetsTo peer earlier
  | _ :: earlier => packetsTo peer earlier

/-- With nothing in slot 2 the client finds the number zero there. -/
theorem redirect_fills_slot :
    (sampleRedirect id 2).mType = .unused ∧
      ∃ after packet received, (redirectServer (sampleRedirect id)).run withClient =
          .ok () after ∧
        packetsTo ⟨0, 3⟩ after.trace = [packet] ∧
        Events.In.decodeCall packet = .ok received ∧ (received 2).value = .uint32 0 := by
  refine ⟨rfl, ?_⟩
  have hsendable : (sampleRedirect id).Sendable := by decide
  have hstrings : ∀ slot, (sampleRedirect id slot).mString.length ≤ maximumPacketSize := by decide
  obtain ⟨after, packet, received, code, hrun, htrace, -, -, hdecode, hsent⟩ :=
    redirect_sends (rfl : withClient.server.mGtPeer = some ⟨0, 3⟩)
      (rfl : withClient.server.mProxyServer = some 0) (.inr rfl) (by decide) (by decide)
      hsendable hstrings (by decide)
  refine ⟨after, packet, received, hrun, ?_, hdecode, hsent.numbers 2 (.inl rfl)⟩
  rw [htrace]
  rfl

/-! ## Malformed redirects -/

/-- Slot 4 is not a string with a bar. -/
def Malformed (list : VariantList) : Prop :=
  ¬ ((list 4).mType = .string ∧ bar ∈ (list 4).getString)

/-- The members that a redirect sets. -/
structure SessionKept (before after : ProxyState) : Prop where
  port : after.server.mPort = before.server.mPort
  token : after.server.mToken = before.server.mToken
  user : after.server.mUser = before.server.mUser
  address : after.server.mServer = before.server.mServer
  connecting : after.gt.connecting = before.gt.connecting
  realServer : after.server.mRealServer = before.server.mRealServer

/-- The redirect returns and has changed nothing. -/
def RejectedSafely (state : ProxyState) (list : VariantList) : Prop :=
  ∃ after, (redirectServer list).run state = .ok () after ∧ SessionKept state after

/-- The redirect points where the session is already. Slot 4 holds an address, which may
be left over from before the slot was given another type. -/
structure PointsHere (state : ProxyState) (list : VariantList) : Prop where
  bar : bar ∈ (list 4).getString
  port : state.server.mPort = wrapInt (list 1).getUint32.1.toNat
  token : state.server.mToken = wrapInt (list 2).getUint32.1.toNat
  user : state.server.mUser = wrapInt (list 3).getUint32.1.toNat
  address : state.server.mServer =
    (list 4).getString.take (findPos (list 4).getString (ascii "|"))
  connecting : state.gt.connecting = true
  realServer : state.server.mRealServer = none
  sends : state.target true = none ∨
    ∃ packet, callFunctionPacket (redirectList state.server list) (-1) 0 = .ok packet

section Malformed

variable {state : ProxyState} {list : VariantList}

theorem storeTarget_numbers (server : Server) (port token user : Int) (address : Bytes) :
    (storeAddress (storeNumbers server port token user) address).mToken = token ∧
      (storeAddress (storeNumbers server port token user) address).mUser = user :=
  ⟨rfl, rfl⟩

theorem redirectTarget_numbers (server : Server) (list : VariantList) :
    (redirectTarget server list).mToken = wrapInt (list 2).getUint32.1.toNat ∧
      (redirectTarget server list).mUser = wrapInt (list 3).getUint32.1.toNat := by
  rw [redirectTarget]
  exact storeTarget_numbers _ _ _ _ _

/-- Whether a bar is found. -/
theorem findPos_bar_le_iff {text : Bytes} (hsize : text.length < npos) :
    findPos text (ascii "|") ≤ text.length ↔ bar ∈ text := by
  constructor
  · intro hle
    by_contra hfree
    rw [findPos, show ascii "|" = [bar] from rfl, Seq.find_singleton_eq_none hfree,
      Option.getD_none] at hle
    omega
  · intro hbar
    obtain ⟨before, after, htext, -, hpos⟩ := split_at_bar hbar
    rw [hpos, htext, List.length_append]
    omega

/-- What a redirect that returns leaves in the session. -/
theorem sessionKept_iff {sent : ProxyState}
    (hserver : sent.server = redirectTarget state.server list)
    (hgt : sent.gt.connecting = true) :
    SessionKept state (dropHost sent) ↔
      state.server.mPort = wrapInt (list 1).getUint32.1.toNat ∧
      state.server.mToken = wrapInt (list 2).getUint32.1.toNat ∧
      state.server.mUser = wrapInt (list 3).getUint32.1.toNat ∧
      state.server.mServer =
        (list 4).getString.take (findPos (list 4).getString (ascii "|")) ∧
      state.gt.connecting = true ∧ state.server.mRealServer = none := by
  obtain ⟨haddress, hport⟩ := redirectTarget_address state.server list
  obtain ⟨htoken, huser⟩ := redirectTarget_numbers state.server list
  have hconnecting : (dropHost sent).gt.connecting = true := by
    unfold dropHost
    cases sent.server.mRealServer <;> exact hgt
  constructor
  · intro hkept
    have h1 := hkept.port
    have h2 := hkept.token
    have h3 := hkept.user
    have h4 := hkept.address
    have h5 := hkept.connecting
    have h6 := hkept.realServer
    rw [dropHost_server, hserver] at h1 h2 h3 h4 h6
    rw [hconnecting] at h5
    exact ⟨h1.symm.trans hport, h2.symm.trans htoken, h3.symm.trans huser,
      h4.symm.trans haddress, h5.symm, h6.symm⟩
  · rintro ⟨h1, h2, h3, h4, h5, h6⟩
    constructor
    · rw [dropHost_server, hserver, h1]
      exact hport
    · rw [dropHost_server, hserver, h2]
      exact htoken
    · rw [dropHost_server, hserver, h3]
      exact huser
    · rw [dropHost_server, hserver, h4]
      exact haddress
    · rw [hconnecting, h5]
    · rw [dropHost_server, h6]

theorem target_redirectStored :
    (redirectStored state (redirectTarget state.server list)).target true = state.target true := by
  have hpointers := redirectTarget_pointers state.server list
  generalize redirectTarget state.server list = server at hpointers
  simp [ProxyState.target, redirectStored, hpointers.gtPeer, hpointers.proxyServer]

/-- Sending leaves the session as it is stored. -/
theorem sent_session {server : Server} {sent : ProxyState} {list : VariantList}
    (hsent : (Handler.sendVariant true list (-1) 0).code.run (redirectStored state server) =
      .ok () sent) : sent.server = server ∧ sent.gt.connecting = true := by
  rcases Handler.sendVariant_eq_ok hsent with ⟨-, rfl⟩ | ⟨peer, host, packet, -, -, rfl⟩ <;>
    exact ⟨rfl, rfl⟩

/-- A redirect leaves the session alone exactly if it points where the session is already. -/
theorem redirect_rejected_iff (hsize : (list 4).getString.length < npos) :
    RejectedSafely state list ↔ PointsHere state list := by
  constructor
  · rintro ⟨after, hrun, hkept⟩
    obtain ⟨hbar, sent, hsent, rfl⟩ := redirectServer_eq_ok hrun
    obtain ⟨hserver, hgt⟩ := sent_session hsent
    obtain ⟨h1, h2, h3, h4, h5, h6⟩ := (sessionKept_iff hserver hgt).mp hkept
    refine ⟨(findPos_bar_le_iff hsize).mp hbar, h1, h2, h3, h4, h5, h6, ?_⟩
    rcases Handler.sendVariant_eq_ok hsent with ⟨htarget, -⟩ | ⟨-, -, packet, -, hpacket, -⟩
    · exact .inl (target_redirectStored.symm.trans htarget)
    · exact .inr ⟨packet, hpacket⟩
  · intro hhere
    have hbar := (findPos_bar_le_iff hsize).mpr hhere.bar
    obtain ⟨sent, hsent⟩ : ∃ sent, (Handler.sendVariant true (redirectList state.server list) (-1)
        0).code.run (redirectStored state (redirectTarget state.server list)) = .ok () sent := by
      rcases hhere.sends with hnone | ⟨packet, hpacket⟩
      · exact ⟨_, Handler.sendVariant_run_none (target_redirectStored.trans hnone) _ _ _⟩
      · cases htarget : state.target true with
        | none =>
            exact ⟨_, Handler.sendVariant_run_none (target_redirectStored.trans htarget) _ _ _⟩
        | some found =>
            exact ⟨_, Handler.sendVariant_run (target_redirectStored.trans htarget) hpacket⟩
    obtain ⟨hserver, hgt⟩ := sent_session hsent
    exact ⟨dropHost sent, redirectServer_run_ok hbar hsent, (sessionKept_iff hserver hgt).mpr
      ⟨hhere.port, hhere.token, hhere.user, hhere.address, hhere.connecting, hhere.realServer⟩⟩

end Malformed

/-- A redirect without an address. -/
def bareRedirect : VariantList :=
  (((VariantList.ofString (ascii "OnSendToServer")).modify 1 (Variant.setInt32 17001)).modify 2
    (Variant.setInt32 7)).modify 3 (Variant.setUint32 9)

/-- A redirect to where the session is, with a number in slot 4 in front of the old address. -/
def staleRedirect : VariantList :=
  ((bareRedirect.modify 4 (Variant.setString (ascii "127.0.0.1|0|12"))).modify 4
    (Variant.setUint32 0))

/-- A session that has been redirected there. -/
def redirected : ProxyState where
  server := { mPort := 17001, mToken := 7, mUser := 9, mServer := ascii "127.0.0.1" }
  gt := { connecting := true }

/-- The redirect is malformed and does no harm: everything is as it says. -/
theorem redirect_rejected_iff_stale :
    Malformed staleRedirect ∧ RejectedSafely redirected staleRedirect := by
  refine ⟨fun hstring => ?_, (redirect_rejected_iff (by decide)).mpr
    ⟨by decide, by decide, by decide, by decide, by decide, rfl, rfl, .inl rfl⟩⟩
  have htype : (staleRedirect 4).mType = .uint32 := rfl
  rw [htype] at hstring
  cases hstring.1

/-- The redirect without an address is malformed and throws. -/
theorem redirect_bare_throws :
    Malformed bareRedirect ∧ ¬ RejectedSafely withClient bareRedirect := by
  have hfree : bar ∉ (bareRedirect 4).getString := by decide
  refine ⟨fun hstring => hfree hstring.2, ?_⟩
  rintro ⟨after, hrun, -⟩
  have hbar := (redirectServer_eq_ok hrun).1
  rw [findPos_bar_le_iff (by decide)] at hbar
  exact hfree hbar

end SrmotionProxy.Server
