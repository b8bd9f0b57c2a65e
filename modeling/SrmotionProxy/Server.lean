/-
# The methods of `server`

The three overloads of `send` and `quit`, which handlers use, and the methods that
create, connect and destroy hosts: `start`, `setup_client`, `connect` and
`redirect_server`. The packet loops are in `Poll`.
-/

import SrmotionProxy.State

namespace SrmotionProxy

open SrmotionProxy.Lib SrmotionProxy.ENet SrmotionProxy.Proton

/-! ## Sending -/

namespace Handler

/-- `server::send(client, type, data, len)`. -/
def sendRaw (client : Bool) (type : Int) (data : Bytes) : Handler Unit :=
  deliver client (rawPacket type data)

/-- `server::send(client, text, type)`. -/
def sendText (client : Bool) (text : Bytes) (type : Int) : Handler Unit :=
  deliver client (textPacket text type)

/-- `server::send(client, list, netid, delay)`; the pointers are looked at first. -/
def sendVariant (client : Bool) (list : VariantList) (netid delay : Int) : Handler Unit := do
  if (← getState).target client = none then
    return ()
  else
    let packet ← lift (callFunctionPacket list netid delay)
    deliver client packet

/-- `server::send(false, text)` with the default message type. -/
def sendServer (text : Bytes) : Handler Unit :=
  sendText false text NET_MESSAGE_GENERIC_TEXT.toNat

/-- `gt::send_log`. -/
def sendLog (text : Bytes) : Handler Unit :=
  sendText true (ascii "action|log\nmsg|" ++ text) NET_MESSAGE_GAME_MESSAGE.toNat

/-- `server::quit`. -/
def quit : Handler Unit := do
  modifyGt fun gt => { gt with inGame := false }
  disconnect true

/-! ### What a send does -/

section Running

variable {state : ProxyState} {client : Bool} {peer : Peer} {host : Host}

theorem deliver_run (htarget : state.target client = some (peer, host)) (data : Bytes) :
    (deliver client data).code.run state =
      .ok () (state.sendAndFlush .built peer host data) := by
  simp [deliver, htarget]

theorem deliver_run_none (htarget : state.target client = none) (data : Bytes) :
    (deliver client data).code.run state = .ok () state := by
  simp [deliver, htarget]

theorem sendVariant_run (htarget : state.target client = some (peer, host))
    {list : VariantList} {netid delay : Int} {packet : Bytes}
    (hpacket : callFunctionPacket list netid delay = .ok packet) :
    (sendVariant client list netid delay).code.run state =
      .ok () (state.sendAndFlush .built peer host packet) := by
  have hdeliver := deliver_run htarget packet
  simp only [sendVariant, getState, lift, hpacket]
  simp [Confined.read, Confined.ofExcept, htarget, hdeliver]

theorem sendVariant_run_none (htarget : state.target client = none)
    (list : VariantList) (netid delay : Int) :
    (sendVariant client list netid delay).code.run state = .ok () state := by
  simp [sendVariant, getState, Confined.read, htarget]

/-- A variant send that completes did nothing or delivered a packet. -/
theorem sendVariant_eq_ok {after : ProxyState} {list : VariantList} {netid delay : Int}
    (hrun : (sendVariant client list netid delay).code.run state = .ok () after) :
    (state.target client = none ∧ after = state) ∨
      ∃ peer host packet, state.target client = some (peer, host) ∧
        callFunctionPacket list netid delay = .ok packet ∧
        after = state.sendAndFlush .built peer host packet := by
  cases htarget : state.target client with
  | none =>
      rw [sendVariant_run_none htarget] at hrun
      cases hrun
      exact .inl ⟨rfl, rfl⟩
  | some pair =>
      obtain ⟨peer, host⟩ := pair
      cases hpacket : callFunctionPacket list netid delay with
      | error failure =>
          simp only [sendVariant, getState, lift, hpacket] at hrun
          simp [Confined.read, Confined.ofExcept, Confined.fail, htarget] at hrun
          cases hrun
      | ok packet =>
          rw [sendVariant_run htarget hpacket] at hrun
          cases hrun
          exact .inr ⟨peer, host, packet, rfl, rfl, rfl⟩

theorem sendText_run (htarget : state.target client = some (peer, host)) (text : Bytes)
    (type : Int) :
    (sendText client text type).code.run state =
      .ok () (state.sendAndFlush .built peer host (textPacket text type)) :=
  deliver_run htarget _

/-- A text send that completes did nothing or delivered the text. -/
theorem sendText_eq_ok {after : ProxyState} {text : Bytes} {type : Int}
    (hrun : (sendText client text type).code.run state = .ok () after) :
    after = state ∨ ∃ peer host, state.target client = some (peer, host) ∧
      after = state.sendAndFlush .built peer host (textPacket text type) := by
  cases htarget : state.target client with
  | none =>
      cases (deliver_run_none htarget _).symm.trans hrun
      exact .inl rfl
  | some pair =>
      obtain ⟨peer, host⟩ := pair
      cases (sendText_run htarget text type).symm.trans hrun
      exact .inr ⟨peer, host, rfl, rfl⟩

end Running

end Handler

/-! ## Hosts -/

namespace Server

/-- Update the members of `server`. -/
def modifyServer (update : Server → Server) : Proxy Unit :=
  modify fun state => { state with server := update state.server }

/-- `enet_host_create`; `none` when it fails. -/
def hostCreate (client : Bool) : Proxy (Option Host) := do
  let state ← get
  if state.env.hostCreated state.tick then
    set { state with
      tick := state.tick + 1
      nextHost := state.nextHost + 1
      trace := .hostCreate state.nextHost client :: state.trace }
    return some state.nextHost
  else
    set { state with tick := state.tick + 1 }
    return none

/-- `server::setup_client`. The new pointer is used before it is checked. -/
def setupClient : Proxy Bool := do
  let host ← hostCreate true
  modifyServer fun server => { server with mRealServer := host }
  match host with
  | none => throw .undefinedBehaviour
  | some host =>
      modify fun state => { state with trace := .hostFlush host :: state.trace }
      return true

/-- `enet_host_connect`; a client host has a single peer slot. -/
def hostConnect (host : Host) (address : Bytes) (port : Nat) : Proxy (Option Peer) := do
  let state ← get
  set { state with
    tick := state.tick + 1
    trace := .hostConnect host address port :: state.trace }
  if state.env.hostConnected state.tick then return some ⟨host, 0⟩ else return none

/-- `server::connect`. The address is taken from `m_server` and `m_port`, the
latter cut down to 16 bits. -/
def connect : Proxy Bool := do
  let state ← get
  let address := cStr state.server.mServer
  let port := (state.server.mPort % 65536).toNat
  if !(← setupClient) then
    return false
  match (← get).server.mRealServer with
  | none => throw .undefinedBehaviour
  | some host =>
      let peer ← hostConnect host address port
      modifyServer fun server => { server with mServerPeer := peer }
      return peer.isSome

/-- `server::start`. The new pointer is used before it is checked. -/
def start : Proxy Bool := do
  let host ← hostCreate false
  modifyServer fun server => { server with mProxyServer := host }
  match host with
  | none => throw .undefinedBehaviour
  | some _ => setupClient

/-- The end of `redirect_server`: the host is destroyed and forgotten. -/
def destroyRealServer : Proxy Unit :=
  modify fun state =>
    match state.server.mRealServer with
    | none => state
    | some host =>
        { state with
          server := { state.server with mRealServer := none }
          trace := .hostDestroy host :: state.trace }

/-- `redirect_server` from the string in slot 4 on. -/
def redirectDoor (varlist : VariantList) : Proxy Unit := do
  let str := (varlist 4).getString
  let bar := findPos str (ascii "|")
  match substrFrom str bar with
  | .error failure => throw failure
  | .ok doorid =>
      let address := str.take bar
      modify fun state => { state with
        server := { state.server with mServer := address }
        trace := .redirected address state.server.mPort :: state.trace }
      let server := (← get).server
      let varlist := varlist.modify 1 (Variant.setInt32 (UInt32.ofInt server.mProxyport))
      let varlist := varlist.modify 4 (Variant.setString (server.ipserver ++ doorid))
      modify fun state => { state with gt := { state.gt with connecting := true } }
      (Handler.sendVariant true varlist (-1) 0).code
      destroyRealServer

/-- `server::redirect_server`. Three getters turn an unused slot into the number
zero on the way. -/
def redirectServer (varlist : VariantList) : Proxy Unit := do
  let (port, slot1) := (varlist 1).getUint32
  let varlist := varlist.modify 1 fun _ => slot1
  modifyServer fun server => { server with mPort := wrapInt port.toNat }
  let (token, slot2) := (varlist 2).getUint32
  let varlist := varlist.modify 2 fun _ => slot2
  modifyServer fun server => { server with mToken := wrapInt token.toNat }
  let (user, slot3) := (varlist 3).getUint32
  let varlist := varlist.modify 3 fun _ => slot3
  modifyServer fun server => { server with mUser := wrapInt user.toNat }
  redirectDoor varlist

end Server

end SrmotionProxy
