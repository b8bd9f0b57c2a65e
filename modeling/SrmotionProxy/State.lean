/-
# The state of the proxy and how its parts may change it

`server`, the globals of `events::out` and `gt`, the environment the process runs
in and the trace of its library calls make up one state. A computation of the
proxy may throw and keeps its state when it does.

Almost all event handlers change the state in three ways only: they edit the world,
the settings and the flags, they send packets through `server::send`, and they call
`server::disconnect`. They are written in the monad `Handler`, whose programs are
confined to these moves by construction. `connect` and `redirect_server`, which
handle hosts directly, are not.
-/

import SrmotionProxy.ENet
import SrmotionProxy.Lib.Confined
import SrmotionProxy.Packet

namespace SrmotionProxy

open SrmotionProxy.Lib SrmotionProxy.ENet

/-! ## World -/

/-- `player`; the position is a pair of floats. -/
structure Player where
  name : Bytes := []
  country : Bytes := []
  netid : Int := -1
  userid : Int := -1
  pos : UInt32 × UInt32 := (0, 0)
  invis : Bool := false
  mod : Bool := false
  deriving DecidableEq, Repr

/-- `player::operator==`. -/
def Player.same (left right : Player) : Bool :=
  left.netid == right.netid && left.userid == right.userid

/-- `world`. -/
structure World where
  name : Bytes := []
  players : List Player := []
  localPlayer : Player := {}
  connected : Bool := false
  deriving DecidableEq, Repr

/-! ## Settings -/

/-- The variables of `events::out` that some handler reads. -/
structure Settings where
  saveworld : Bytes := []
  packets : Bytes := ascii "`b[`#S`b]:SrMotion#1337 `o"
  dc : Bytes := ascii "SrMotion#1337"
  ip : Bytes := []
  type : Bytes := []
  name : Bytes := []
  currentuid : Bytes := []
  unaccesspaketi : Bytes := []
  country : Bytes := ascii "tr"
  mode : Bytes := ascii "`5Pull"
  owneruid : Bytes := []
  taxsystem : Bool := false
  fastmmode : Bool := false
  dicemod : Bool := false
  worldbanjoinmod : Bool := false
  autopull : Bool := false
  fastdrop : Bool := false
  fasttrash : Bool := false
  visualspin : Bool := false
  wltroll : Bool := false
  wrenchpull : Bool := false
  autohosts : Bool := false
  dicespeed : Bool := false
  visdice : Bool := false
  yuzde : Int := 10
  wlx : Int := 0
  wly : Int := 0
  uidz : Int := 0
  setx : Int := 0
  sety : Int := 0
  id : Int := 12
  posx : Int := 0
  posy : Int := 0
  ruletsayi : Int := 0
  iditemm : Int := 0
  loggedin : Int := 1
  type2 : Int := 2
  sayi : Int := 1

/-- The variables of `gt`. -/
structure Gt where
  flag : Bytes := ascii "tr"
  resolvingUid2 : Bool := false
  connecting : Bool := false
  inGame : Bool := false
  ghost : Bool := false

/-! ## Server -/

/-- `server`; null pointers are `none`. -/
structure Server where
  mProxyServer : Option Host := none
  mRealServer : Option Host := none
  mServerPeer : Option Peer := none
  mGtPeer : Option Peer := none
  mUser : Int := 0
  mToken : Int := 0
  mServer : Bytes := ascii "213.179.209.168"
  mPort : Int := 17201
  serverz : Bytes := ascii "213.179.209.168"
  portz : Int := 17201
  mProxyport : Int := 17191
  ipserver : Bytes := ascii "127.0.0.1"
  create : Bytes := ascii "0.0.0.0"
  mWorld : World := {}

/-- What the process does not decide itself; the n-th question gets the n-th answer.
`eraseDropsLast` says which way `ret.erase(ret.end())` goes, which the standard
leaves open. -/
structure Env where
  hostCreated : Nat → Bool := fun _ => true
  hostConnected : Nat → Bool := fun _ => true
  peerView : Nat → PeerView := fun _ => {}
  random : Nat → Nat := fun _ => 0
  response : Nat → Bytes → Except Abort Bytes := fun _ _ => .error .runtimeError
  eraseDropsLast : Bool := false

/-- Everything. -/
structure ProxyState where
  server : Server := {}
  out : Settings := {}
  gt : Gt := {}
  env : Env := {}
  tick : Nat := 0
  nextHost : Host := 0
  trace : List Call := []

/-- A computation of the proxy. -/
abbrev Proxy := EStateM Abort ProxyState

namespace ProxyState

/-- The peer and host a `send(client, ...)` uses, if both pointers are set. -/
def target (state : ProxyState) (client : Bool) : Option (Peer × Host) :=
  let peer := if client then state.server.mGtPeer else state.server.mServerPeer
  let host := if client then state.server.mProxyServer else state.server.mRealServer
  match peer, host with
  | some peer, some host => some (peer, host)
  | _, _ => none

theorem target_eq_some {state : ProxyState} {client : Bool} {peer : Peer} {host : Host}
    (htarget : state.target client = some (peer, host)) :
    (if client then state.server.mGtPeer else state.server.mServerPeer) = some peer ∧
      (if client then state.server.mProxyServer else state.server.mRealServer) = some host := by
  unfold target at htarget
  generalize (if client then state.server.mGtPeer else state.server.mServerPeer) = found
    at htarget ⊢
  generalize (if client then state.server.mProxyServer else state.server.mRealServer) = owner
    at htarget ⊢
  cases found with
  | none => cases htarget
  | some found =>
      cases owner with
      | none => cases htarget
      | some owner =>
          cases htarget
          exact ⟨rfl, rfl⟩

/-- The result of an `enet_peer_send` made now. -/
def sendCode (state : ProxyState) (data : Bytes) : Int :=
  enetPeerSend (state.env.peerView state.tick) 0 data.length

/-- `enet_peer_send(peer, 0, packet); enet_host_flush(host);` -/
def sendAndFlush (state : ProxyState) (source : Source) (peer : Peer) (host : Host)
    (data : Bytes) : ProxyState :=
  { state with
    tick := state.tick + 1
    trace := .hostFlush host :: .peerSend peer source data (state.sendCode data) ::
      state.trace }

/-- The part of `server::disconnect` that closes the connection. -/
def dropConnection (state : ProxyState) : ProxyState :=
  match state.server.mServerPeer with
  | none => state
  | some peer =>
      let trace := .peerDisconnect peer :: state.trace
      { state with
        server := { state.server with mServerPeer := none, mRealServer := none }
        trace := match state.server.mRealServer with
          | none => trace
          | some host => .hostDestroy host :: trace }

/-- `server::disconnect`. -/
def disconnect (state : ProxyState) (reset : Bool) : ProxyState :=
  let world := { state.server.mWorld with
    connected := false, localPlayer := {}, players := [] }
  let state := { state with server := { state.server with mWorld := world } }
  let state := state.dropConnection
  if reset then
    { state with
      server := { state.server with
        mUser := 0, mToken := 0, mServer := state.server.serverz
        mPort := state.server.portz }
      trace := .reset :: state.trace }
  else state

/-- `server::disconnectsr` has the same body. -/
def disconnectsr (state : ProxyState) (reset : Bool) : ProxyState := state.disconnect reset

end ProxyState

/-! ## Handlers -/

/-- What a handler may do to the state in one move. -/
inductive Move : ProxyState → ProxyState → Prop
  | edit (state : ProxyState) (world : World) (out : Settings) (gt : Gt) (tick : Nat) :
      Move state { state with
        server := { state.server with mWorld := world }, out := out, gt := gt, tick := tick }
  | send (state : ProxyState) (client : Bool) (peer : Peer) (host : Host) (data : Bytes)
      (htarget : state.target client = some (peer, host)) :
      Move state (state.sendAndFlush .built peer host data)
  | disconnect (state : ProxyState) (reset : Bool) : Move state (state.disconnect reset)

/-- A handler: it may throw, and it changes the state by moves only. -/
abbrev Handler := Confined Move Abort

namespace Handler

/-- The current state. -/
def getState : Handler ProxyState := Confined.read

def getWorld : Handler World := do return (← getState).server.mWorld

def getSettings : Handler Settings := do return (← getState).out

def getGt : Handler Gt := do return (← getState).gt

def modifyWorld (update : World → World) : Handler Unit :=
  Confined.move
    (fun state => { state with
      server := { state.server with mWorld := update state.server.mWorld } })
    fun state => .edit state (update state.server.mWorld) state.out state.gt state.tick

def modifySettings (update : Settings → Settings) : Handler Unit :=
  Confined.move (fun state => { state with out := update state.out })
    fun state => .edit state state.server.mWorld (update state.out) state.gt state.tick

def modifyGt (update : Gt → Gt) : Handler Unit :=
  Confined.move (fun state => { state with gt := update state.gt })
    fun state => .edit state state.server.mWorld state.out (update state.gt) state.tick

/-- The number of the next answer of the environment. -/
def nextTick : Handler Nat := do
  let tick := (← getState).tick
  Confined.move (fun state => { state with tick := state.tick + 1 })
    fun state => .edit state state.server.mWorld state.out state.gt (state.tick + 1)
  return tick

/-- `server::disconnect(reset)`. -/
def disconnect (reset : Bool) : Handler Unit :=
  Confined.move (fun state => state.disconnect reset) fun state => .disconnect state reset

/-- `server::disconnectsr(reset)`. -/
def disconnectsr (reset : Bool) : Handler Unit :=
  Confined.move (fun state => state.disconnectsr reset) fun state => .disconnect state reset

/-- How the three overloads of `server::send` end: unless a pointer is null, the
packet goes to the peer and the host is flushed. -/
def deliver (client : Bool) (data : Bytes) : Handler Unit where
  code := do
    let state ← get
    match state.target client with
    | none => return ()
    | some (peer, host) => set (state.sendAndFlush .built peer host data)
  confined := fun state => by
    cases htarget : state.target client with
    | none => simpa [htarget] using Relation.ReflTransGen.refl
    | some pair =>
        obtain ⟨peer, host⟩ := pair
        simpa [htarget] using
          Relation.ReflTransGen.single (Move.send state client peer host data htarget)

/-- `catch (std::exception)`. -/
def catchException {α : Type} (body : Handler α) (handler : Handler α) : Handler α :=
  Confined.tryCatchIf Abort.isStdException body fun _ => handler

/-- Undefined behaviour. -/
def undefinedBehaviour {α : Type} : Handler α := Confined.fail .undefinedBehaviour

/-- The value of a computation on data, or its exception. -/
def lift {α : Type} (value : Except Abort α) : Handler α := Confined.ofExcept value

end Handler

end SrmotionProxy
