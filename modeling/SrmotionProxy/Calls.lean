/-
# Function calls between the peers

A function call is a game packet with a list in it. This module reads calls off packets,
received or sent, and follows the calls that go out while a handler runs: a text is none,
and what `send` builds from a list is one, with that list.
-/

import SrmotionProxy.Frame
import SrmotionProxy.Resend

namespace SrmotionProxy

open SrmotionProxy.Lib SrmotionProxy.ENet SrmotionProxy.Proton

/-! ## Lists in packets -/

theorem getString_of_value {v : Variant} {text : Bytes} (hvalue : v.value = .string text) :
    v.getString = text := by
  unfold Variant.value at hvalue
  split at hvalue <;> cases hvalue
  rfl

section Slots

variable {list : VariantList} {bound : Nat}

/-- Every slot is unused or carried, and no string is longer than the bound. -/
def Bounded (bound : Nat) (list : VariantList) : Prop :=
  list.Sendable ∧ ∀ slot, (list slot).mString.length ≤ bound

theorem Bounded.mono {wider : Nat} (hlist : Bounded bound list) (hwider : bound ≤ wider) :
    Bounded wider list :=
  ⟨hlist.1, fun slot => (hlist.2 slot).trans hwider⟩

theorem Item.store_bounded (hlist : Bounded bound list) {item : Item}
    (hcarried : item.value.Carried) (hpayload : item.value.payload.length ≤ bound) :
    Bounded bound (item.store list) := by
  obtain ⟨index, value⟩ := item
  have hwrite (v : Variant) (hv : v.mString.length ≤ bound) :
      (value.write v).mType.carried = true ∧ (value.write v).mString.length ≤ bound := by
    cases value with
    | unused | entity | component => exact hcarried.elim
    | string text =>
        have htext : text.length ≤ bound := by
          simp only [Value.payload, List.length_append, length_le32] at hpayload
          omega
        exact ⟨rfl, htext⟩
    | float | vector2 | vector3 | uint32 | rect | int32 => exact ⟨rfl, hv⟩
  refine ⟨fun slot => ?_, fun slot => ?_⟩
  · by_cases hslot : slot = index
    · subst hslot
      rw [Item.store, VariantList.modify_same]
      exact .inr (hwrite _ (hlist.2 slot)).1
    · rw [Item.store, VariantList.modify_of_ne _ _ hslot]
      exact hlist.1 slot
  · by_cases hslot : slot = index
    · subst hslot
      rw [Item.store, VariantList.modify_same]
      exact (hwrite _ (hlist.2 slot)).2
    · rw [Item.store, VariantList.modify_of_ne _ _ hslot]
      exact hlist.2 slot

theorem storeItems_bounded {items : List Item} (hcarried : CarriedItems items)
    (hpayload : ∀ item ∈ items, item.value.payload.length ≤ bound)
    (hlist : Bounded bound list) : Bounded bound (storeItems list items) := by
  induction items generalizing list with
  | nil => exact hlist
  | cons item items ih =>
      refine ih (fun later hlater => hcarried later (List.mem_cons_of_mem item hlater))
        (fun later hlater => hpayload later (List.mem_cons_of_mem item hlater)) ?_
      exact Item.store_bounded hlist (hcarried item List.mem_cons_self)
        (hpayload item List.mem_cons_self)

theorem bounded_fresh (bound : Nat) : Bounded bound .fresh :=
  ⟨fun _ => .inl rfl, fun _ => Nat.zero_le bound⟩

/-- A list that was read from a packet is bounded by the packet. -/
theorem decodeCall_bounded {packet : Bytes} (hdecode : Events.In.decodeCall packet = .ok list) :
    Bounded packet.length list := by
  obtain ⟨parsed, hparsed, hreturn⟩ := except_bind_eq_ok hdecode
  cases hreturn
  obtain ⟨⟨count, p⟩, hcount, hitems⟩ := except_bind_eq_ok hparsed
  obtain ⟨⟨accepted, rest, after⟩, hread, hreturn⟩ := except_bind_eq_ok hitems
  cases hreturn
  have hpayload : p.length ≤ packet.length := by
    have hlength := congrArg List.length (readByte_eq_ok hcount)
    rw [getExtended, List.drop_drop, List.length_drop, List.length_cons] at hlength
    omega
  have hbounded (items : List Item) (hcarried : CarriedItems items) {tail : Bytes}
      (hp : p = items.flatMap Item.bytes ++ tail) :
      Bounded packet.length (storeItems .fresh items) := by
    refine storeItems_bounded hcarried (fun item hitem => ?_) (bounded_fresh _)
    have htotal := payload_le_payloadTotal hitem
    have hlength := congrArg List.length hp
    rw [List.length_append, length_flatMap_bytes] at hlength
    omega
  cases accepted with
  | true =>
      obtain ⟨items, -, hcarried, hp, rfl⟩ := readItems_accepted hread
      exact hbounded items hcarried hp
  | false =>
      obtain ⟨items, index, type, -, hcarried, -, hp, rfl⟩ := readItems_rejected hread
      exact hbounded items hcarried hp

end Slots

/-! ## Calls -/

/-- The function call that a packet is: its struct, and the list that is read from it. -/
def callOf (packet : Bytes) : Option (Bytes × VariantList) :=
  (Server.structOf packet).bind fun struct =>
    if Packet.mType struct = PACKET_CALL_FUNCTION then
      (Events.In.decodeCall struct).toOption.map fun list => (struct, list)
    else none

section Reading

variable {packet struct : Bytes} {list : VariantList}

theorem callOf_eq_some : callOf packet = some (struct, list) ↔
    Server.structOf packet = some struct ∧ Packet.mType struct = PACKET_CALL_FUNCTION ∧
      Events.In.decodeCall struct = .ok list := by
  rw [callOf, Option.bind_eq_some_iff]
  constructor
  · rintro ⟨found, hstruct, hcall⟩
    by_cases htype : Packet.mType found = PACKET_CALL_FUNCTION
    · rw [if_pos htype] at hcall
      cases hdecode : Events.In.decodeCall found with
      | error failure =>
          rw [hdecode] at hcall
          cases hcall
      | ok decoded =>
          rw [hdecode] at hcall
          cases hcall
          exact ⟨hstruct, htype, hdecode⟩
    · rw [if_neg htype] at hcall
      cases hcall
  · rintro ⟨hstruct, htype, hdecode⟩
    exact ⟨struct, hstruct, by rw [if_pos htype, hdecode]; rfl⟩

/-- What `get_struct` has accepted it accepts again, as it left it. -/
theorem structOf_again (hstruct : Server.structOf packet = some struct) :
    Server.structOf struct = some struct := by
  obtain ⟨hgame, hget⟩ := Server.structOf_eq_some hstruct
  obtain ⟨hlong, hsame⟩ := Server.structOf_sameOutside hstruct
  have hfree (i : Nat) (hi : i < 56) : ¬ Server.SizeField packet i := fun hsize => by
    have hfrom := hsize.2.1
    omega
  have htype : getPacketType struct = NET_MESSAGE_GAME_PACKET := by
    rw [← hgame, getPacketType, getPacketType, hsame.length, hsame.getD (hfree 0 (by decide))]
  have hflags : Packet.mPacketFlags struct = Packet.mPacketFlags packet :=
    hsame.wordAt fun i _ hi => hfree i (by omega)
  apply Server.structOf_eq htype
  have hshort : ¬ packet.length < sizeofGameUpdatePacket - 4 := by
    unfold sizeofGameUpdatePacket
    omega
  by_cases hextended : Packet.mPacketFlags packet &&& 8 ≠ 0
  · have hwhole := hget
    rw [getStruct, if_neg hshort, if_neg (by omega), if_pos hextended] at hwhole
    by_cases hsmall : packet.length < (Packet.mDataSize packet + 60).toNat
    · rw [if_pos hsmall] at hwhole
      cases hwhole
    · rw [if_neg hsmall] at hwhole
      cases hwhole
      exact hget
  · rw [getStruct, if_neg hshort, if_neg (by omega), if_neg hextended] at hget
    have hzero : Packet.setDataSize packet 0 = struct := Option.some.inj (Except.ok.inj hget)
    rw [getStruct, hsame.length, if_neg hshort, if_neg (by omega), hflags, if_neg hextended,
      ← hzero, Packet.setDataSize, Packet.setDataSize,
      overwrite_twice (by rw [length_le32]; omega)]

/-- The struct of a call is the same call. -/
theorem callOf_again (hcall : callOf packet = some (struct, list)) :
    callOf struct = some (struct, list) := by
  obtain ⟨hstruct, hrest⟩ := callOf_eq_some.mp hcall
  exact callOf_eq_some.mpr ⟨structOf_again hstruct, hrest⟩

theorem callOf_textPacket {type : Nat} (text : Bytes) (hshort : type ≤ 255)
    (hother : UInt8.ofNat type ≠ NET_MESSAGE_GAME_PACKET) :
    callOf (textPacket text type) = none := by
  rw [callOf, Server.structOf_eq_none (by rw [getPacketType_textPacket text hshort]; exact hother),
    Option.bind_none]

/-- A received list is bounded by the packet it came in. -/
theorem callOf_bounded (hcall : callOf packet = some (struct, list)) :
    Bounded packet.length list := by
  obtain ⟨hstruct, -, hdecode⟩ := callOf_eq_some.mp hcall
  have hlist := decodeCall_bounded hdecode
  rwa [(Server.structOf_sameOutside hstruct).2.length] at hlist

end Reading

/-! ## Calls that are sent -/

/-- The packet is a call with the values of a list, under an addressing. -/
def IsCall (packet : Bytes) (list : VariantList) (netid delay : Int) : Prop :=
  ∃ struct sent, callOf packet = some (struct, sent) ∧ sent.values = list.values ∧
    Packet.mPlayerFlags struct = netid ∧ Packet.mIntData struct = delay

section Building

variable {list : VariantList} {netid delay : Int}

/-- What is built from a list is a call with the values of that list. -/
theorem callFunctionPacket_isCall (hsendable : list.Sendable)
    (hfits : list.encoding.length < 2 ^ 31) (hnetid : intMin ≤ netid ∧ netid ≤ intMax)
    (hdelay : intMin ≤ delay ∧ delay ≤ intMax) :
    ∃ packet, callFunctionPacket list netid delay = .ok packet ∧
      IsCall packet list netid delay := by
  obtain ⟨packet, sent, hpacket, hgame, hget, htype, hflags, hdata, hdecode, hvalues⟩ :=
    callFunctionPacket_decodes hsendable hfits hnetid hdelay
  exact ⟨packet, hpacket, packet, sent,
    callOf_eq_some.mpr ⟨Server.structOf_eq hgame hget, htype, hdecode⟩, hvalues, hflags, hdata⟩

/-- A packet with short strings can be received as well. -/
theorem callFunctionPacket_received (hsendable : list.Sendable)
    (hstrings : ∀ slot, (list slot).mString.length ≤ 1000)
    (hnetid : intMin ≤ netid ∧ netid ≤ intMax) (hdelay : intMin ≤ delay ∧ delay ≤ intMax) :
    ∃ packet, callFunctionPacket list netid delay = .ok packet ∧
      packet.length ≤ maximumPacketSize ∧ IsCall packet list netid delay := by
  have hfits := length_encoding_le hstrings
  have hbuilt := callFunctionPacket_eq list netid delay (by omega)
  obtain ⟨packet, hpacket, hcall⟩ :=
    callFunctionPacket_isCall hsendable (by omega) hnetid hdelay
  cases hbuilt.symm.trans hpacket
  refine ⟨_, hpacket, ?_, hcall⟩
  rw [CallPacket.length]
  unfold maximumPacketSize
  omega

/-- What is built from a received list with another text is a call. -/
theorem withText_isCall (hlist : Bounded maximumPacketSize list) {text : Bytes}
    (htext : text.length ≤ 32 * maximumPacketSize) (hnetid : intMin ≤ netid ∧ netid ≤ intMax)
    (hdelay : intMin ≤ delay ∧ delay ≤ intMax) :
    ∃ packet,
      callFunctionPacket (list.modify 1 (Variant.setString text)) netid delay = .ok packet ∧
      IsCall packet (list.modify 1 (Variant.setString text)) netid delay := by
  obtain ⟨packet, sent, hpacket, hgame, hget, htype, hflags, hdata, hdecode, hvalues⟩ :=
    withText_decodes hlist.1 hlist.2 htext hnetid hdelay
  exact ⟨packet, hpacket, packet, sent,
    callOf_eq_some.mpr ⟨Server.structOf_eq hgame hget, htype, hdecode⟩, hvalues, hflags, hdata⟩

end Building

/-- The calls of a kind that were handed over, with their peers, the latest first. -/
def sentCalls (kind : VariantList → Bool) (trace : List Call) : List (Peer × Bytes) :=
  trace.filterMap fun call =>
    match call with
    | .peerSend peer _ data _ =>
        if (callOf data).any (fun found => kind found.2) then some (peer, data) else none
    | _ => none

section Sent

variable {kind : VariantList → Bool} {state : ProxyState} {source : Source} {peer : Peer}
  {host : Host} {data : Bytes}

theorem sentCalls_of_none (hnone : callOf data = none) :
    sentCalls kind (state.sendAndFlush source peer host data).trace =
      sentCalls kind state.trace := by
  rw [ProxyState.sendAndFlush, sentCalls, List.filterMap_cons_none rfl,
    List.filterMap_cons_none (by simp only [hnone]; rfl), ← sentCalls]

theorem sentCalls_of_some {struct : Bytes} {list : VariantList}
    (hcall : callOf data = some (struct, list)) (hkind : kind list = true) :
    sentCalls kind (state.sendAndFlush source peer host data).trace =
      (peer, data) :: sentCalls kind state.trace := by
  rw [ProxyState.sendAndFlush, sentCalls, List.filterMap_cons_none rfl,
    List.filterMap_cons_some (by simp only [hcall, Option.any_some, hkind, if_true]; rfl),
    ← sentCalls]

end Sent

theorem Handler.sendText_out {state after : ProxyState} {client : Bool} {text : Bytes}
    {type : Int} (hrun : (Handler.sendText client text type).code.run state = .ok () after) :
    after.out = state.out := by
  rcases Handler.sendText_eq_ok hrun with rfl | ⟨peer, host, -, rfl⟩ <;> rfl

/-! ## Handlers between two calls -/

/-- What a handler leaves alone while it sends nothing but texts: where the client is, and the
calls that were sent. -/
def callView (kind : VariantList → Bool) (state : ProxyState) :
    Option (Peer × Host) × List (Peer × Bytes) :=
  (state.target true, sentCalls kind state.trace)

/-- The computation sends no calls. -/
def Quiet {α : Type} (kind : VariantList → Bool) (m : Handler α) : Prop :=
  Server.Leaves (callView kind) m.code

namespace Quiet

variable {α β : Type} {kind : VariantList → Bool}

theorem pure (value : α) : Quiet kind (Pure.pure value : Handler α) := Server.Leaves.pure value

theorem bind {first : Handler α} {next : α → Handler β} (hfirst : Quiet kind first)
    (hnext : ∀ value, Quiet kind (next value)) : Quiet kind (first >>= next) :=
  Server.Leaves.bind hfirst hnext

theorem ite {condition : Prop} [Decidable condition] {first second : Handler α}
    (hfirst : Quiet kind first) (hsecond : Quiet kind second) :
    Quiet kind (if condition then first else second) := by
  by_cases hcondition : condition
  · rwa [if_pos hcondition]
  · rwa [if_neg hcondition]

theorem lift (value : Except Abort α) : Quiet kind (Handler.lift value) := by
  intro state result after hrun
  obtain ⟨-, rfl⟩ := Confined.ofExcept_eq_ok hrun
  rfl

/-- Reading the state and editing settings, flags and the world send nothing. -/
theorem of_silent {m : Handler α} (hsilent : ∀ state value after,
    m.code.run state = .ok value after → after.target true = state.target true ∧
      after.trace = state.trace) : Quiet kind m := by
  intro state value after hrun
  obtain ⟨htarget, htrace⟩ := hsilent state value after hrun
  rw [callView, callView, htarget, htrace]

theorem getState : Quiet kind Handler.getState :=
  of_silent fun _ _ _ hrun => by cases hrun; exact ⟨rfl, rfl⟩

theorem getSettings : Quiet kind Handler.getSettings :=
  of_silent fun _ _ _ hrun => by cases hrun; exact ⟨rfl, rfl⟩

theorem getGt : Quiet kind Handler.getGt :=
  of_silent fun _ _ _ hrun => by cases hrun; exact ⟨rfl, rfl⟩

theorem modifySettings (update : Settings → Settings) :
    Quiet kind (Handler.modifySettings update) :=
  of_silent fun _ _ _ hrun => by cases hrun; exact ⟨rfl, rfl⟩

theorem modifyGt (update : Gt → Gt) : Quiet kind (Handler.modifyGt update) :=
  of_silent fun _ _ _ hrun => by cases hrun; exact ⟨rfl, rfl⟩

theorem modifyWorld (update : World → World) : Quiet kind (Handler.modifyWorld update) :=
  of_silent fun _ _ _ hrun => by cases hrun; exact ⟨rfl, rfl⟩

/-- Texts are no calls. -/
theorem sendText (client : Bool) (text : Bytes) {type : Nat} (hshort : type ≤ 255)
    (hother : UInt8.ofNat type ≠ NET_MESSAGE_GAME_PACKET) :
    Quiet kind (Handler.sendText client text type) := by
  intro state value after hrun
  rcases Handler.sendText_eq_ok hrun with rfl | ⟨peer, host, -, rfl⟩
  · rfl
  · exact congrArg (Prod.mk (state.target true))
      (sentCalls_of_none (callOf_textPacket text hshort hother))

theorem sendServer (text : Bytes) : Quiet kind (Handler.sendServer text) :=
  sendText false text (by decide) (by decide)

theorem sendLog (text : Bytes) : Quiet kind (Handler.sendLog text) :=
  sendText true _ (by decide) (by decide)

end Quiet

/-! ## Calls that are swallowed -/

/-- The functions whose handlers send calls to the client. -/
inductive Relayed where
  | onConsoleMessage
  | onTalkBubble
  | onDialogRequest
  | onSpawn

namespace Relayed

def func : Relayed → String
  | .onConsoleMessage => "OnConsoleMessage"
  | .onTalkBubble => "OnTalkBubble"
  | .onDialogRequest => "OnDialogRequest"
  | .onSpawn => "OnSpawn"

def handler (list : VariantList) : Relayed → Handler Bool
  | .onConsoleMessage => Events.In.onConsoleMessage list
  | .onTalkBubble => Events.In.onTalkBubble list
  | .onDialogRequest => Events.In.onDialogRequest list
  | .onSpawn => Events.In.onSpawn list

theorem callFunction_eq (call : Relayed) (list : VariantList) :
    Events.In.isRedirect (ascii call.func) = false ∧
      Events.In.callFunction (ascii call.func) list = call.handler list := by
  unfold Events.In.callFunction
  cases call with
  | onConsoleMessage =>
      refine ⟨by decide, ?_⟩
      rw [func, if_neg (by decide), if_neg (by decide), if_pos (by decide), handler]
  | onTalkBubble =>
      refine ⟨by decide, ?_⟩
      rw [func, if_neg (by decide), if_neg (by decide), if_neg (by decide), if_pos (by decide),
        handler]
  | onDialogRequest =>
      refine ⟨by decide, ?_⟩
      rw [func, if_neg (by decide), if_neg (by decide), if_neg (by decide), if_neg (by decide),
        if_pos (by decide), handler]
  | onSpawn =>
      refine ⟨by decide, ?_⟩
      rw [func, if_neg (by decide), if_neg (by decide), if_neg (by decide), if_neg (by decide),
        if_neg (by decide), if_neg (by decide), if_pos (by decide), handler]

theorem noteLogon_eq (call : Relayed) :
    Events.In.noteLogon (ascii call.func) = (pure () : Handler Unit) := by
  unfold Events.In.noteLogon
  cases call <;> exact if_neg (by decide)

/-- A call of one of the functions is a run of its handler. -/
theorem variantlist_run (call : Relayed) {struct : Bytes} {list : VariantList}
    (hdecode : Events.In.decodeCall struct = .ok list)
    (hfunc : (list 0).getString = ascii call.func) :
    Events.In.variantlist struct = (call.handler list).code := by
  obtain ⟨hplain, hhandler⟩ := call.callFunction_eq list
  unfold Events.In.variantlist
  rw [hdecode]
  simp only [hfunc, hplain, Bool.false_eq_true, if_false, hhandler, call.noteLogon_eq]
  rfl

end Relayed

/-- A received call is judged by the handler of its function, and goes on if that lets it. -/
theorem incomingPacket_call {packet struct : Bytes} {list : VariantList}
    (hcall : callOf packet = some (struct, list)) :
    Server.incomingPacket packet =
      Server.consumeOrForward true (Events.In.variantlist struct) struct := by
  obtain ⟨hstruct, htype, -⟩ := callOf_eq_some.mp hcall
  obtain ⟨hgame, hget⟩ := Server.structOf_eq_some hstruct
  have hsome : packet ≠ [] := by
    rintro rfl
    exact absurd hgame (by decide)
  unfold Server.incomingPacket
  rw [if_neg hsome, hgame, if_neg (by decide), if_neg (by decide), if_pos rfl, hget]
  change Server.incomingGamePacket struct = _
  unfold Server.incomingGamePacket
  rw [htype, if_neg (by decide), if_neg (by decide), if_pos rfl]

end SrmotionProxy
