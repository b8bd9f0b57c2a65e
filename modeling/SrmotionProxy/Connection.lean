/-
# What one event does to the connections

Almost everything an event does is a sequence of effects: moves of a handler, the
packet of the event handed over or destroyed, the peer of the event remembered. The
exceptions are a client that connects and a call that redirects. Both are specified
here by the state they lead to, and `step_cases` puts the three together, so that an
invariant of the loops is checked on effects, `connected` and `redirected` alone.
-/

import SrmotionProxy.Poll

namespace SrmotionProxy.Server

open SrmotionProxy.Lib SrmotionProxy.ENet SrmotionProxy.Proton

/-! ## Effects -/

/-- What the code around the handlers does to the state. -/
inductive Effect : ProxyState → ProxyState → Prop
  | move {first second : ProxyState} (hmove : Move first second) : Effect first second
  | handOver (state : ProxyState) (client : Bool) (peer : Peer) (host : Host) (packet : Bytes)
      (htarget : state.target client = some (peer, host)) :
      Effect state (state.sendAndFlush .received peer host packet)
  | destroy (state : ProxyState) :
      Effect state { state with trace := .packetDestroy :: state.trace }
  | remember (state : ProxyState) (host : Host) (slot : Nat)
      (hhost : state.server.mProxyServer = some host) :
      Effect state { state with server := { state.server with mGtPeer := some ⟨host, slot⟩ } }

/-! ### The ends of a receive branch -/

theorem forward_run {state : ProxyState} {client : Bool} {peer : Peer} {host : Host}
    (htarget : state.target client = some (peer, host)) (packet : Bytes) :
    (forward client packet).run state =
      .ok .again (state.sendAndFlush .received peer host packet) := by
  simp only [forward, EStateM.run_bind, EStateM.run_get, htarget]
  rfl

theorem forward_run_none {state : ProxyState} {client : Bool}
    (htarget : state.target client = none) (packet : Bytes) :
    (forward client packet).run state = .ok .leave state := by
  simp only [forward, EStateM.run_bind, EStateM.run_get, htarget]
  rfl

/-! ### Predicates that effects keep -/

section Effects

variable {I : ProxyState → Prop}

/-- A handler keeps what effects keep. -/
theorem handler_keeps (hclosed : ∀ first second, Effect first second → I first → I second)
    {α : Type} (handler : Handler α) : Keeps I handler.code :=
  Confined.keeps (fun first second hmove => hclosed first second (.move hmove)) handler

theorem consume_keeps (hclosed : ∀ first second, Effect first second → I first → I second) :
    Keeps I consume :=
  Keeps.bind (Keeps.modify fun state => hclosed _ _ (.destroy state)) fun _ => Keeps.pure _

theorem forward_keeps (hclosed : ∀ first second, Effect first second → I first → I second)
    (client : Bool) (packet : Bytes) : Keeps I (forward client packet) := by
  intro state hstate
  cases htarget : state.target client with
  | none =>
      rw [forward_run_none htarget]
      exact hstate
  | some pair =>
      rw [forward_run htarget]
      exact hclosed _ _ (.handOver state client pair.1 pair.2 packet htarget) hstate

theorem consumeOrForward_keeps
    (hclosed : ∀ first second, Effect first second → I first → I second)
    (client : Bool) {handler : Proxy Bool} (hhandler : Keeps I handler) (packet : Bytes) :
    Keeps I (consumeOrForward client handler packet) :=
  Keeps.bind hhandler fun _ => Keeps.ite (consume_keeps hclosed) (forward_keeps hclosed _ _)

theorem view_bind_keeps {α : Type} (value : Except Abort α) {next : α → Proxy Flow}
    (hnext : ∀ result, value = .ok result → Keeps I (next result)) :
    Keeps I (view value >>= next) := by
  cases value with
  | error failure => exact fun _ hstate => hstate
  | ok result => exact hnext result rfl

theorem outgoingGamePacket_keeps
    (hclosed : ∀ first second, Effect first second → I first → I second) (packet : Bytes) :
    Keeps I (outgoingGamePacket packet) := by
  unfold outgoingGamePacket
  apply Keeps.ite (consumeOrForward_keeps hclosed _ (handler_keeps hclosed _) _)
  apply Keeps.ite (view_bind_keeps _ fun _ _ => forward_keeps hclosed _ _)
  apply Keeps.ite (forward_keeps hclosed _ _)
  refine Keeps.ite (Keeps.bind Keeps.get fun _ => ?_) (forward_keeps hclosed _ _)
  exact Keeps.ite (Keeps.pure _) (forward_keeps hclosed _ _)

theorem outgoingPacket_keeps
    (hclosed : ∀ first second, Effect first second → I first → I second) (packet : Bytes) :
    Keeps I (outgoingPacket packet) := by
  have htext (handler : Bytes → Handler Bool) (result : Bytes × Bytes) :
      Keeps I (consumeOrForward false (handler result.1).code result.2) :=
    consumeOrForward_keeps hclosed _ (handler_keeps hclosed _) _
  unfold outgoingPacket
  apply Keeps.ite (view_bind_keeps _ fun result _ => htext Events.Out.generictext result)
  apply Keeps.ite (view_bind_keeps _ fun result _ => htext Events.Out.gamemessage result)
  refine Keeps.ite ?_ ?_
  · refine view_bind_keeps _ fun result _ => ?_
    cases result with
    | none => exact forward_keeps hclosed _ _
    | some struct => exact outgoingGamePacket_keeps hclosed struct
  · exact Keeps.ite (Keeps.pure _) (forward_keeps hclosed _ _)

theorem outgoingDisconnect_keeps
    (hclosed : ∀ first second, Effect first second → I first → I second) :
    Keeps I outgoingDisconnect := by
  unfold outgoingDisconnect
  refine Keeps.bind Keeps.get fun state => Keeps.ite (Keeps.pure _) (Keeps.ite ?_ (Keeps.pure _))
  refine Keeps.bind (handler_keeps hclosed _) fun _ => Keeps.bind (Keeps.modify fun state => ?_)
    fun _ => Keeps.pure _
  exact hclosed _ _ (.move (.edit state state.server.mWorld state.out
    { state.gt with connecting := false } state.tick))

end Effects

/-! ## Calls that redirect -/

/-- The list that a packet from the server hands to `redirect_server`, if it does. -/
def redirectCall (packet : Bytes) : Option VariantList :=
  if packet ≠ [] ∧ getPacketType packet = NET_MESSAGE_GAME_PACKET then
    match getStruct packet with
    | .ok (some struct) =>
        if Packet.mType struct = PACKET_CALL_FUNCTION then
          match Events.In.decodeCall struct with
          | .ok list => if Events.In.isRedirect (list 0).getString then some list else none
          | .error _ => none
        else none
    | _ => none
  else none

/-- The same for an input. -/
def redirectInput : Input → Option VariantList
  | .server (.receive packet) => redirectCall packet
  | _ => none

theorem redirectCall_eq_some {packet : Bytes} {list : VariantList}
    (hcall : redirectCall packet = some list) :
    packet ≠ [] ∧ getPacketType packet = NET_MESSAGE_GAME_PACKET ∧
      ∃ struct, getStruct packet = .ok (some struct) ∧
        Packet.mType struct = PACKET_CALL_FUNCTION ∧
        Events.In.decodeCall struct = .ok list ∧
        Events.In.isRedirect (list 0).getString = true := by
  unfold redirectCall at hcall
  split at hcall
  case isFalse => cases hcall
  case isTrue hgame =>
      split at hcall
      case h_2 => cases hcall
      case h_1 struct hstruct =>
          split at hcall
          case isFalse => cases hcall
          case isTrue htype =>
              split at hcall
              case h_2 => cases hcall
              case h_1 list' hdecode =>
                  split at hcall
                  case isFalse => cases hcall
                  case isTrue hredirect =>
                      cases hcall
                      exact ⟨hgame.1, hgame.2, struct, hstruct, htype, hdecode, hredirect⟩

theorem redirectCall_eq_none {packet struct : Bytes} {list : VariantList}
    (hpacket : packet ≠ []) (hgame : getPacketType packet = NET_MESSAGE_GAME_PACKET)
    (hstruct : getStruct packet = .ok (some struct))
    (htype : Packet.mType struct = PACKET_CALL_FUNCTION)
    (hdecode : Events.In.decodeCall struct = .ok list) (hnone : redirectCall packet = none) :
    Events.In.isRedirect (list 0).getString = false := by
  rw [redirectCall, if_pos ⟨hpacket, hgame⟩, hstruct] at hnone
  simp only [htype, hdecode, if_true] at hnone
  by_contra hredirect
  rw [if_pos (by simpa using hredirect)] at hnone
  cases hnone

section Incoming

variable {I : ProxyState → Prop}

theorem incomingGamePacket_keeps
    (hclosed : ∀ first second, Effect first second → I first → I second) {struct : Bytes}
    (hplain : ∀ list, Packet.mType struct = PACKET_CALL_FUNCTION →
      Events.In.decodeCall struct = .ok list →
      Events.In.isRedirect (list 0).getString = false) :
    Keeps I (incomingGamePacket struct) := by
  have hhandler {α : Type} (handler : Handler α) : Keeps I handler.code :=
    handler_keeps hclosed handler
  have hforward (packet : Bytes) : Keeps I (forward true packet) :=
    forward_keeps hclosed true packet
  unfold incomingGamePacket
  apply Keeps.ite (Keeps.bind (hhandler _) fun _ => hforward _)
  apply Keeps.ite (Keeps.bind (hhandler _) fun _ => hforward _)
  by_cases hcall : Packet.mType struct = PACKET_CALL_FUNCTION
  · rw [if_pos hcall]
    refine consumeOrForward_keeps hclosed true ?_ struct
    unfold Events.In.variantlist
    cases hdecode : Events.In.decodeCall struct with
    | error failure => exact fun _ hstate => hstate
    | ok list =>
        refine Keeps.bind (hhandler _) fun _ => ?_
        rw [if_neg (by rw [hplain list hcall hdecode]; decide)]
        exact hhandler _
  · rw [if_neg hcall]
    apply Keeps.ite (consumeOrForward_keeps hclosed _ (hhandler _) _)
    exact Keeps.ite (consumeOrForward_keeps hclosed _ (hhandler _) _) (hforward _)

theorem incomingPacket_keeps
    (hclosed : ∀ first second, Effect first second → I first → I second) {packet : Bytes}
    (hplain : redirectCall packet = none) : Keeps I (incomingPacket packet) := by
  have hforward (packet : Bytes) : Keeps I (forward true packet) :=
    forward_keeps hclosed true packet
  have htext (handler : Bytes → Handler Bool) (result : Bytes × Bytes) :
      Keeps I (consumeOrForward true (handler result.1).code result.2) :=
    consumeOrForward_keeps hclosed _ (handler_keeps hclosed _) _
  unfold incomingPacket
  by_cases hpacket : packet = []
  · rw [if_pos hpacket]
    exact hforward _
  rw [if_neg hpacket]
  apply Keeps.ite (view_bind_keeps _ fun result _ => htext Events.In.generictext result)
  apply Keeps.ite (view_bind_keeps _ fun result _ => htext Events.In.gamemessage result)
  by_cases hgame : getPacketType packet = NET_MESSAGE_GAME_PACKET
  · rw [if_pos hgame]
    refine view_bind_keeps _ fun result hresult => ?_
    cases result with
    | none => exact hforward _
    | some struct =>
        refine incomingGamePacket_keeps hclosed fun list htype hdecode => ?_
        exact redirectCall_eq_none hpacket hgame hresult htype hdecode hplain
  · rw [if_neg hgame]
    apply Keeps.ite (view_bind_keeps _ fun result _ => htext Events.In.tracking result)
    exact Keeps.ite (Keeps.pure _) (hforward _)

end Incoming

/-! ## Connecting -/

/-- The state after a `connect` whose host was created. -/
def afterConnect (state : ProxyState) : ProxyState :=
  { state with
    server := { state.server with
      mRealServer := some state.nextHost
      mServerPeer :=
        if state.env.hostConnected (state.tick + 1) then some ⟨state.nextHost, 0⟩ else none }
    tick := state.tick + 2
    nextHost := state.nextHost + 1
    trace := .hostConnect state.nextHost (cStr state.server.mServer)
        (state.server.mPort % 65536).toNat ::
      .hostFlush state.nextHost :: .hostCreate state.nextHost true :: state.trace }

theorem modifyServer_run (update : Server → Server) (state : ProxyState) :
    (modifyServer update).run state =
      .ok () { state with server := update state.server } := rfl

theorem hostCreate_run {state : ProxyState} (hcreated : state.env.hostCreated state.tick = true)
    (client : Bool) :
    (hostCreate client).run state = .ok (some state.nextHost)
      { state with
        tick := state.tick + 1
        nextHost := state.nextHost + 1
        trace := .hostCreate state.nextHost client :: state.trace } := by
  rw [hostCreate, run_get_bind, if_pos hcreated]
  rfl

theorem hostCreate_run_failed {state : ProxyState}
    (hfailed : state.env.hostCreated state.tick = false) (client : Bool) :
    (hostCreate client).run state = .ok none { state with tick := state.tick + 1 } := by
  rw [hostCreate, run_get_bind,
    if_neg (by rw [hfailed]; decide)]
  rfl

theorem setupClient_run {state : ProxyState} (hcreated : state.env.hostCreated state.tick = true) :
    setupClient.run state = .ok true
      { state with
        server := { state.server with mRealServer := some state.nextHost }
        tick := state.tick + 1
        nextHost := state.nextHost + 1
        trace := .hostFlush state.nextHost :: .hostCreate state.nextHost true :: state.trace } := by
  rw [setupClient, run_bind_ok state (hostCreate_run hcreated true)]
  rfl

theorem setupClient_run_failed {state : ProxyState}
    (hfailed : state.env.hostCreated state.tick = false) :
    ∃ after, setupClient.run state = .error .undefinedBehaviour after := by
  rw [setupClient, run_bind_ok state (hostCreate_run_failed hfailed true)]
  exact ⟨_, rfl⟩

theorem hostConnect_run (state : ProxyState) (host : Host) (address : Bytes) (port : Nat) :
    (hostConnect host address port).run state =
      .ok (if state.env.hostConnected state.tick then some ⟨host, 0⟩ else none)
        { state with
          tick := state.tick + 1
          trace := .hostConnect host address port :: state.trace } := by
  rw [hostConnect, run_get_bind]
  cases hpeer : state.env.hostConnected state.tick <;> rfl

theorem connect_run {state : ProxyState} (hcreated : state.env.hostCreated state.tick = true) :
    connect.run state =
      .ok (state.env.hostConnected (state.tick + 1)) (afterConnect state) := by
  rw [connect, run_get_bind, run_bind_ok state (setupClient_run hcreated)]
  refine (run_bind_ok _ (hostConnect_run _ state.nextHost _ _)).trans ?_
  rw [run_bind_ok _ (modifyServer_run _ _), afterConnect]
  cases state.env.hostConnected (state.tick + 1) <;> rfl

theorem connect_eq_ok {state after : ProxyState} {flag : Bool}
    (hrun : connect.run state = .ok flag after) :
    state.env.hostCreated state.tick = true ∧ after = afterConnect state := by
  cases hcreated : state.env.hostCreated state.tick with
  | true =>
      rw [connect_run hcreated] at hrun
      cases hrun
      exact ⟨rfl, rfl⟩
  | false =>
      obtain ⟨failed, hfailed⟩ := setupClient_run_failed hcreated
      rw [connect, run_get_bind,
        run_bind_error state hfailed] at hrun
      cases hrun

/-! ## Redirecting -/

/-- The numbers that `redirect_server` takes from slots 1 to 3. -/
def storeNumbers (server : Server) (port token user : Int) : Server :=
  { server with mPort := port, mToken := token, mUser := user }

/-- The address that it takes from slot 4. -/
def storeAddress (server : Server) (address : Bytes) : Server :=
  { server with mServer := address }

/-- The members that `redirect_server` overwrites, taken from slots 1 to 4. -/
def redirectTarget (server : Server) (list : VariantList) : Server :=
  storeAddress (storeNumbers server (wrapInt (list 1).getUint32.1.toNat)
    (wrapInt (list 2).getUint32.1.toNat) (wrapInt (list 3).getUint32.1.toNat))
    ((list 4).getString.take (findPos (list 4).getString (ascii "|")))

/-- The pointers to hosts and peers are the same. -/
structure SamePointers (first second : Server) : Prop where
  proxyServer : first.mProxyServer = second.mProxyServer
  realServer : first.mRealServer = second.mRealServer
  serverPeer : first.mServerPeer = second.mServerPeer
  gtPeer : first.mGtPeer = second.mGtPeer

theorem SamePointers.rfl {server : Server} : SamePointers server server :=
  ⟨Eq.refl _, Eq.refl _, Eq.refl _, Eq.refl _⟩

theorem storeTarget_pointers (server : Server) (port token user : Int) (address : Bytes) :
    SamePointers (storeAddress (storeNumbers server port token user) address) server :=
  ⟨rfl, rfl, rfl, rfl⟩

theorem redirectTarget_pointers (server : Server) (list : VariantList) :
    SamePointers (redirectTarget server list) server := by
  rw [redirectTarget]
  exact storeTarget_pointers _ _ _ _ _

theorem storeTarget_address (server : Server) (port token user : Int) (address : Bytes) :
    (storeAddress (storeNumbers server port token user) address).mServer = address ∧
      (storeAddress (storeNumbers server port token user) address).mPort = port :=
  ⟨rfl, rfl⟩

theorem storeTarget_home (server : Server) (port token user : Int) (address : Bytes) :
    (storeAddress (storeNumbers server port token user) address).serverz = server.serverz ∧
      (storeAddress (storeNumbers server port token user) address).portz = server.portz :=
  ⟨rfl, rfl⟩

theorem redirectTarget_address (server : Server) (list : VariantList) :
    (redirectTarget server list).mServer =
        (list 4).getString.take (findPos (list 4).getString (ascii "|")) ∧
      (redirectTarget server list).mPort = wrapInt (list 1).getUint32.1.toNat := by
  rw [redirectTarget]
  exact storeTarget_address _ _ _ _ _

/-- A redirect does not touch the address that a reset goes back to. -/
theorem redirectTarget_home (server : Server) (list : VariantList) :
    (redirectTarget server list).serverz = server.serverz ∧
      (redirectTarget server list).portz = server.portz := by
  rw [redirectTarget]
  exact storeTarget_home _ _ _ _ _

/-- The list after slots 1 to 3 have been read as numbers. -/
def readList (list : VariantList) : VariantList :=
  ((list.modify 1 fun _ => (list 1).getUint32.2).modify 2 fun _ => (list 2).getUint32.2).modify 3
    fun _ => (list 3).getUint32.2

/-- The list that `redirect_server` passes on to the client. -/
def redirectList (server : Server) (list : VariantList) : VariantList :=
  ((readList list).modify 1 (Variant.setInt32 (UInt32.ofInt server.mProxyport))).modify 4
    (Variant.setString (server.ipserver ++
      (list 4).getString.drop (findPos (list 4).getString (ascii "|"))))

/-- The state in which the list is sent. -/
def redirectStored (state : ProxyState) (server : Server) : ProxyState :=
  { state with
    server := server
    gt := { state.gt with connecting := true }
    trace := .redirected server.mServer server.mPort :: state.trace }

/-- `redirect_server` ends by destroying the host and forgetting it. -/
def dropHost (state : ProxyState) : ProxyState :=
  match state.server.mRealServer with
  | none => state
  | some host =>
      { state with
        server := { state.server with mRealServer := none }
        trace := .hostDestroy host :: state.trace }

theorem dropHost_trace (state : ProxyState) :
    (dropHost state).trace =
      state.server.mRealServer.toList.map Call.hostDestroy ++ state.trace := by
  unfold dropHost
  cases state.server.mRealServer <;> rfl

theorem dropHost_server (state : ProxyState) :
    (dropHost state).server = { state.server with mRealServer := none } := by
  unfold dropHost
  cases hreal : state.server.mRealServer with
  | none =>
      calc
        state.server = { state.server with mRealServer := state.server.mRealServer } := rfl
        _ = { state.server with mRealServer := none } := by rw [hreal]
  | some real => rfl

theorem destroyRealServer_run (state : ProxyState) :
    destroyRealServer.run state = .ok () (dropHost state) := rfl

theorem modifyServer_thrice (first second third : Server → Server) (rest : Proxy Unit)
    (state : ProxyState) :
    (do
      modifyServer first
      modifyServer second
      modifyServer third
      rest).run state =
      rest.run { state with server := third (second (first state.server)) } := rfl

/-- The getters store their numbers. -/
theorem redirectServer_run (state : ProxyState) (list : VariantList) :
    (redirectServer list).run state = (redirectDoor (readList list)).run
      { state with
        server := storeNumbers state.server (wrapInt (list 1).getUint32.1.toNat)
          (wrapInt (list 2).getUint32.1.toNat) (wrapInt (list 3).getUint32.1.toNat) } := by
  have hread2 (slot1 : Variant) : (list.modify 1 fun _ => slot1) 2 = list 2 :=
    list.modify_of_ne _ (by decide)
  have hread3 (slot1 slot2 : Variant) :
      ((list.modify 1 fun _ => slot1).modify 2 fun _ => slot2) 3 = list 3 := by
    rw [VariantList.modify_of_ne _ _ (by decide), VariantList.modify_of_ne _ _ (by decide)]
  unfold redirectServer readList
  rcases (list 1).getUint32 with ⟨port, slot1⟩
  simp only [hread2]
  rcases (list 2).getUint32 with ⟨token, slot2⟩
  simp only [hread3]
  rcases (list 3).getUint32 with ⟨user, slot3⟩
  exact modifyServer_thrice _ _ _ _ state

theorem readList_text (list : VariantList) : readList list 4 = list 4 := by
  rw [readList, VariantList.modify_of_ne _ _ (by decide), VariantList.modify_of_ne _ _ (by decide),
    VariantList.modify_of_ne _ _ (by decide)]

theorem redirectDoor_run {state : ProxyState} {server : Server} {list : VariantList}
    (hserver : state.server = server)
    (hbar : findPos (list 4).getString (ascii "|") ≤ (list 4).getString.length) :
    (redirectDoor list).run state =
      (do
        (Handler.sendVariant true ((list.modify 1
          (Variant.setInt32 (UInt32.ofInt server.mProxyport))).modify 4
          (Variant.setString (server.ipserver ++
            (list 4).getString.drop (findPos (list 4).getString (ascii "|"))))) (-1) 0).code
        destroyRealServer).run
      (redirectStored state (storeAddress server
        ((list 4).getString.take (findPos (list 4).getString (ascii "|"))))) := by
  subst hserver
  simp only [redirectDoor, substrFrom_of_le hbar]
  rfl

theorem redirectDoor_run_failed {state : ProxyState} {list : VariantList}
    (hbar : (list 4).getString.length < findPos (list 4).getString (ascii "|")) :
    (redirectDoor list).run state = .error .outOfRange state := by
  simp only [redirectDoor, substrFrom_of_lt hbar]
  rfl

theorem redirectStored_server (state : ProxyState) (first second : Server) :
    redirectStored { state with server := first } second = redirectStored state second := rfl

theorem storeNumbers_mProxyport (server : Server) (port token user : Int) :
    (storeNumbers server port token user).mProxyport = server.mProxyport := rfl

theorem storeNumbers_ipserver (server : Server) (port token user : Int) :
    (storeNumbers server port token user).ipserver = server.ipserver := rfl

/-- A redirect that completes: slot 4 holds a bar, the list is sent, the host goes. -/
theorem redirectServer_eq_ok {state after : ProxyState} {list : VariantList}
    (hrun : (redirectServer list).run state = .ok () after) :
    findPos (list 4).getString (ascii "|") ≤ (list 4).getString.length ∧
      ∃ sent, (Handler.sendVariant true (redirectList state.server list) (-1) 0).code.run
          (redirectStored state (redirectTarget state.server list)) = .ok () sent ∧
        after = dropHost sent := by
  rw [redirectServer_run] at hrun
  unfold redirectTarget redirectList
  generalize wrapInt (list 1).getUint32.1.toNat = port at hrun ⊢
  generalize wrapInt (list 2).getUint32.1.toNat = token at hrun ⊢
  generalize wrapInt (list 3).getUint32.1.toNat = user at hrun ⊢
  by_cases hbar : findPos (list 4).getString (ascii "|") ≤ (list 4).getString.length
  · rw [redirectDoor_run (rfl : _ = storeNumbers state.server port token user)
      (by rwa [readList_text]), readList_text, redirectStored_server, storeNumbers_mProxyport,
      storeNumbers_ipserver] at hrun
    obtain ⟨_, sent, hsent, hrest⟩ := run_bind_eq_ok _ hrun
    rw [destroyRealServer_run] at hrest
    cases hrest
    exact ⟨hbar, sent, hsent, rfl⟩
  · rw [redirectDoor_run_failed (by rw [readList_text]; omega)] at hrun
    cases hrun

/-- A redirect completes when slot 4 holds a bar and the list can be sent. -/
theorem redirectServer_run_ok {state sent : ProxyState} {list : VariantList}
    (hbar : findPos (list 4).getString (ascii "|") ≤ (list 4).getString.length)
    (hsent : (Handler.sendVariant true (redirectList state.server list) (-1) 0).code.run
      (redirectStored state (redirectTarget state.server list)) = .ok () sent) :
    (redirectServer list).run state = .ok () (dropHost sent) := by
  rw [redirectServer_run]
  unfold redirectTarget redirectList at hsent
  generalize wrapInt (list 1).getUint32.1.toNat = port at hsent ⊢
  generalize wrapInt (list 2).getUint32.1.toNat = token at hsent ⊢
  generalize wrapInt (list 3).getUint32.1.toNat = user at hsent ⊢
  rw [redirectDoor_run (rfl : _ = storeNumbers state.server port token user)
    (by rwa [readList_text]), readList_text, redirectStored_server, storeNumbers_mProxyport,
    storeNumbers_ipserver, run_bind_ok _ hsent, destroyRealServer_run]

/-! ## The steps of a run -/

theorem outgoingEvent_run {state : ProxyState} {host : Host} {slot : Nat}
    (hhost : state.server.mProxyServer = some host) (event : Event) :
    (outgoingEvent slot event).run state =
      (match event with
        | .connect => do if ← connect then return .again else return .leave
        | .receive packet => outgoingPacket packet
        | .disconnect => outgoingDisconnect : Proxy Flow).run
      { state with server := { state.server with mGtPeer := some ⟨host, slot⟩ } } := by
  unfold outgoingEvent
  rw [run_get_bind, hhost]
  rfl

/-- The member that `handle_outgoing` sets first. -/
def rememberPeer (state : ProxyState) (host : Host) (slot : Nat) : ProxyState :=
  { state with server := { state.server with mGtPeer := some ⟨host, slot⟩ } }

/-- What a call that redirects leads to. -/
structure Redirects (list : VariantList) (state next : ProxyState) : Prop where
  bar : findPos (list 4).getString (ascii "|") ≤ (list 4).getString.length
  sends : ∃ gt sent,
    (Handler.sendVariant true (redirectList state.server list) (-1) 0).code.run
      (redirectStored { state with gt := gt } (redirectTarget state.server list)) =
        .ok () sent ∧
    next = { dropHost sent with trace := .packetDestroy :: (dropHost sent).trace }

theorem noteLogon_run (func : Bytes) (state : ProxyState) :
    ∃ gt, (Events.In.noteLogon func).code.run state = .ok () { state with gt := gt } := by
  unfold Events.In.noteLogon
  rw [Confined.code_ite]
  by_cases hlogon : contains func (ascii "OnSuperMainStartAcceptLogon") = true
  · rw [if_pos hlogon]
    exact ⟨{ state.gt with inGame := true }, rfl⟩
  · rw [if_neg hlogon]
    exact ⟨state.gt, rfl⟩

theorem incomingPacket_redirects {packet : Bytes} {list : VariantList}
    (hcall : redirectCall packet = some list) {state next : ProxyState} {flow : Flow}
    (hrun : (incomingPacket packet).run state = .ok flow next) : Redirects list state next := by
  obtain ⟨hpacket, hgame, struct, hstruct, htype, hdecode, hredirect⟩ :=
    redirectCall_eq_some hcall
  have hvariantlist : Events.In.variantlist struct = (do
      (Events.In.noteLogon (list 0).getString).code
      redirectServer list
      return true) := by
    simp only [Events.In.variantlist, hdecode, hredirect, if_true]
  have hpacketRun : incomingPacket packet =
      consumeOrForward true (Events.In.variantlist struct) struct := by
    unfold incomingPacket
    rw [if_neg hpacket, hgame, if_neg (by decide), if_neg (by decide), if_pos rfl, hstruct]
    change incomingGamePacket struct = _
    unfold incomingGamePacket
    rw [htype, if_neg (by decide), if_neg (by decide), if_pos rfl]
  rw [hpacketRun, hvariantlist, consumeOrForward] at hrun
  obtain ⟨gt, hnoted⟩ := noteLogon_run (list 0).getString state
  obtain ⟨consumed, after, hhandler, hend⟩ := run_bind_eq_ok state hrun
  rw [run_bind_ok state hnoted] at hhandler
  obtain ⟨_, redirected, hredirectRun, hreturn⟩ := run_bind_eq_ok _ hhandler
  cases hreturn
  cases hend
  obtain ⟨hbar, sent, hsent, rfl⟩ := redirectServer_eq_ok hredirectRun
  exact ⟨hbar, gt, sent, hsent, rfl⟩

/-- Every step connects, redirects, or has effects only. -/
theorem step_cases {state next : ProxyState} {input : Input}
    (hstep : step state input = some next) :
    (∃ slot host, input = .client slot .connect ∧ state.server.mProxyServer = some host ∧
      state.env.hostCreated state.tick = true ∧
      next = afterConnect (rememberPeer state host slot)) ∨
    (∃ list, redirectInput input = some list ∧ state.server.mRealServer ≠ none ∧
      Redirects list state next) ∨
    (redirectInput input = none ∧ (∀ slot, input ≠ .client slot .connect) ∧
      Relation.ReflTransGen Effect state next) := by
  obtain ⟨flow, hrun⟩ := step_eq_some.mp hstep
  have hclosed : ∀ first second, Effect first second →
      Relation.ReflTransGen Effect state first → Relation.ReflTransGen Effect state second :=
    fun _ _ heffect hreached => hreached.tail heffect
  have heffects {m : Proxy Flow} {start : ProxyState}
      (hkeeps : Keeps (Relation.ReflTransGen Effect state) m)
      (hstart : Relation.ReflTransGen Effect state start) (hm : m.run start = .ok flow next) :
      Relation.ReflTransGen Effect state next := by
    have hfinal := hkeeps start hstart
    rwa [hm] at hfinal
  cases input with
  | client slot event =>
      cases hhost : state.server.mProxyServer with
      | none =>
          unfold body outgoingEvent at hrun
          rw [run_get_bind, hhost] at hrun
          cases hrun
      | some host =>
          rw [body, outgoingEvent_run hhost] at hrun
          have hremembered : Relation.ReflTransGen Effect state (rememberPeer state host slot) :=
            .single (.remember state host slot hhost)
          cases event with
          | connect =>
              left
              obtain ⟨flag, connected, hconnect, hend⟩ := run_bind_eq_ok _ hrun
              obtain ⟨hcreated, rfl⟩ := connect_eq_ok hconnect
              refine ⟨slot, host, rfl, rfl, hcreated, ?_⟩
              cases flag <;> (cases hend; rfl)
          | disconnect =>
              exact .inr (.inr ⟨rfl, by simp, heffects (outgoingDisconnect_keeps hclosed)
                hremembered hrun⟩)
          | receive packet =>
              exact .inr (.inr ⟨rfl, by simp, heffects (outgoingPacket_keeps hclosed packet)
                hremembered hrun⟩)
  | server event =>
      cases hhost : state.server.mRealServer with
      | none =>
          unfold body incomingEvent at hrun
          rw [run_get_bind, hhost] at hrun
          cases hrun
      | some host =>
          unfold body incomingEvent at hrun
          rw [run_get_bind, hhost] at hrun
          cases event with
          | connect => exact .inr (.inr ⟨rfl, by simp, by cases hrun; exact .refl⟩)
          | disconnect =>
              refine .inr (.inr ⟨rfl, by simp, heffects ?_ .refl hrun⟩)
              exact Keeps.bind (handler_keeps hclosed _) fun _ => Keeps.pure _
          | receive packet =>
              cases hcall : redirectCall packet with
              | some list =>
                  exact .inr (.inl ⟨list, hcall, by simp, incomingPacket_redirects hcall hrun⟩)
              | none =>
                  exact .inr (.inr ⟨hcall, by simp,
                    heffects (incomingPacket_keeps hclosed hcall) .refl hrun⟩)

end SrmotionProxy.Server
