/-
# The roster

What the events that keep `m_world` do to it, given once as a function on worlds, and
the machine whose steps are these events. On top of it stand the results about the
roster: where the local player is, what a departure removes, and the map of present
players that the vector stands for.
-/

import SrmotionProxy.Proton.RtvarCopies
import SrmotionProxy.Verdict

namespace SrmotionProxy

open SrmotionProxy.Lib SrmotionProxy.Proton

/-! ## The record of a spawn text -/

namespace Proton.Rtvar

/-- Both texts have the same joined value, or none, under every key. -/
def SameValues (left right : Rtvar) : Prop :=
  ∀ key, (left.find key).map Pair.mValue = (right.find key).map Pair.mValue

theorem get_eq (var : Rtvar) (key : Bytes) :
    var.get key = ((var.find key).map Pair.mValue).getD [] := by
  unfold get
  cases var.find key <;> rfl

theorem getInt_eq (var : Rtvar) (key : Bytes) :
    var.getInt key =
      ((var.find key).map Pair.mValue).elim (.error .undefinedBehaviour)
        fun value => .ok (atoi value) := by
  unfold getInt
  cases var.find key <;> rfl

theorem SameValues.get {left right : Rtvar} (hsame : left.SameValues right) (key : Bytes) :
    left.get key = right.get key := by
  rw [get_eq, get_eq, hsame key]

theorem SameValues.getInt {left right : Rtvar} (hsame : left.SameValues right) (key : Bytes) :
    left.getInt key = right.getInt key := by
  rw [getInt_eq, getInt_eq, hsame key]

/-- Integers are read off the joined value. -/
theorem getInt_eq_ok {var : Rtvar} {key : Bytes} {value : Int}
    (hvalue : var.getInt key = .ok value) : value = atoi (var.get key) := by
  rw [getInt_eq] at hvalue
  rw [get_eq]
  cases hfound : (var.find key).map Pair.mValue with
  | none => rw [hfound] at hvalue; cases hvalue
  | some found =>
      rw [hfound] at hvalue
      cases hvalue
      rfl

end Proton.Rtvar

namespace Events.In

open Proton.Rtvar

/-- Writing a first value leaves all joined values alone. -/
theorem updateFirst_sameValues {var after : Rtvar} {key : Bytes} {update : Bytes → Bytes}
    (hrun : updateFirst var key update = .ok after) : after.SameValues var := by
  intro other
  unfold updateFirst at hrun
  obtain ⟨pair, hpair, hrest⟩ := except_bind_eq_ok hrun
  obtain ⟨changed, hchanged, hend⟩ := except_bind_eq_ok hrest
  cases hfind : var.find key with
  | none => rw [hfind] at hpair; cases hpair
  | some found =>
      rw [hfind] at hpair
      cases hpair
      obtain ⟨before, later, hpairs, hkey, hbefore⟩ := find_eq_some hfind
      have hfields : changed.mKey = pair.mKey ∧ changed.mValue = pair.mValue := by
        unfold Pair.setFirst at hchanged
        cases hvalues : pair.mValues with
        | nil => rw [hvalues] at hchanged; cases hchanged
        | cons first rest =>
            rw [hvalues] at hchanged
            cases hchanged
            exact ⟨rfl, rfl⟩
      cases hend
      rw [hpairs, modifyFirst_split hkey hbefore]
      unfold Rtvar.find
      rw [hpairs, List.find?_append, List.find?_append, List.find?_cons, List.find?_cons,
        hfields.1]
      cases List.find? (fun pair => decide (pair.mKey = other)) before with
      | some earlier => rfl
      | none =>
          by_cases hother : pair.mKey = other
          · simp [hother, hfields.2]
          · simp [hother]

/-- The player that a spawn text describes. -/
def describe (var : Rtvar) : Player :=
  let invis := var.get (ascii "invis") = ascii "1"
  { name := if invis then [] else var.get (ascii "name")
    country := if invis then [] else var.get (ascii "country")
    netid := atoi (var.get (ascii "netID"))
    userid := atoi (var.get (ascii "userID"))
    pos := if invis then (0, 0) else spawnPos var
    invis := decide invis
    mod := decide (invis ∨ var.get (ascii "mstate") = ascii "1" ∨
      var.get (ascii "smstate") = ascii "1") }

/-- The fields that ordinary and invisible players share, filled in at the end. -/
def withIdentity (var : Rtvar) (ply : Player) : Player :=
  { ply with
    mod := ply.mod || decide (var.get (ascii "mstate") = ascii "1" ∨
      var.get (ascii "smstate") = ascii "1")
    userid := atoi (var.get (ascii "userID"))
    netid := atoi (var.get (ascii "netID")) }

/-- Whatever `spawnPlayer` returns is the described player, with the edited text. -/
theorem spawnPlayer_eq_ok {autohosts : Bool} {var after : Rtvar} {name netid : Pair}
    {userid : Option Pair} {ply : Player} (hname : var.find (ascii "name") = some name)
    (hrun : spawnPlayer autohosts var name netid userid = .ok (ply, after)) :
    ply = describe var ∧ after.SameValues var := by
  have hfinish (start : Player) (edited : Rtvar) (hsame : edited.SameValues var)
      (hend : (do
        let moderator := edited.get (ascii "mstate") = ascii "1" ∨
          edited.get (ascii "smstate") = ascii "1"
        let start := if moderator then { start with mod := true } else start
        let userid ← edited.getInt (ascii "userID")
        let netid ← edited.getInt (ascii "netID")
        return ({ start with userid := userid, netid := netid }, edited)) =
          (.ok (ply, after) : Except Abort (Player × Rtvar))) :
      ply = withIdentity var start ∧ after.SameValues var := by
    obtain ⟨user, huser, hrest⟩ := except_bind_eq_ok hend
    obtain ⟨net, hnet, hlast⟩ := except_bind_eq_ok hrest
    cases hlast
    refine ⟨?_, hsame⟩
    rw [getInt_eq_ok huser, getInt_eq_ok hnet, withIdentity, hsame.get, hsame.get, hsame.get,
      hsame.get]
    by_cases hmoderator : var.get (ascii "mstate") = ascii "1" ∨
        var.get (ascii "smstate") = ascii "1"
    · simp [hmoderator]
    · simp [hmoderator]
  have hnameText : var.get (ascii "name") = name.mValue := by rw [Rtvar.get, hname]
  unfold spawnPlayer at hrun
  obtain ⟨invis, hinvis, hrest⟩ := except_bind_eq_ok hrun
  have hinvisText : var.get (ascii "invis") = invis.mValue := by
    unfold Rtvar.get
    cases hfind : var.find (ascii "invis") with
    | none => rw [hfind] at hinvis; cases hinvis
    | some pair => rw [hfind] at hinvis; cases hinvis; rfl
  by_cases hhidden : invis.mValue = ascii "1"
  · rw [if_neg (not_not_intro hhidden)] at hrest
    obtain ⟨hply, hafter⟩ := hfinish _ var (fun _ => rfl) hrest
    refine ⟨?_, hafter⟩
    rw [hply, describe, withIdentity, hinvisText]
    simp [hhidden]
  · rw [if_pos hhidden] at hrest
    have hvisible : withIdentity var (visiblePlayer var name) = describe var := by
      rw [describe, withIdentity, visiblePlayer, hinvisText, hnameText]
      simp [hhidden]
    cases autohosts with
    | false =>
        obtain ⟨hply, hafter⟩ := hfinish (visiblePlayer var name) var (fun _ => rfl) hrest
        exact ⟨hply.trans hvisible, hafter⟩
    | true =>
        obtain ⟨user, huser, hrest⟩ := except_bind_eq_ok hrest
        obtain ⟨edited, hedited, hrest⟩ := except_bind_eq_ok hrest
        obtain ⟨hply, hafter⟩ := hfinish (visiblePlayer var name) edited
          (updateFirst_sameValues hedited) hrest
        exact ⟨hply.trans hvisible, hafter⟩

end Events.In

/-! ## Departures -/

namespace Roster

/-- The roster without the first player of that number and without whoever else the
loop of `OnRemove` takes for it. -/
def leaving (netid : Int) : List Player → List Player
  | [] => []
  | player :: later =>
      if player.netid = netid then Remove.survivors Player.same player later
      else player :: leaving netid later

theorem leaving_absent {netid : Int} {players : List Player}
    (habsent : ∀ player ∈ players, player.netid ≠ netid) : leaving netid players = players := by
  induction players with
  | nil => rfl
  | cons player players ih =>
      rw [leaving, if_neg (habsent player List.mem_cons_self),
        ih fun later hlater => habsent later (List.mem_cons_of_mem player hlater)]

theorem leaving_split {netid : Int} {before later : List Player} {target : Player}
    (hbefore : ∀ player ∈ before, player.netid ≠ netid) (htarget : target.netid = netid) :
    leaving netid (before ++ target :: later) =
      before ++ Remove.survivors Player.same target later := by
  induction before with
  | nil => rw [List.nil_append, leaving, if_pos htarget, List.nil_append]
  | cons player before ih =>
      rw [List.cons_append, leaving, if_neg (hbefore player List.mem_cons_self),
        ih fun earlier hearlier => hbefore earlier (List.mem_cons_of_mem player hearlier)]
      rfl

theorem same_iff {left right : Player} :
    left.same right = true ↔ left.netid = right.netid ∧ left.userid = right.userid := by
  rw [Player.same, Bool.and_eq_true, beq_iff_eq, beq_iff_eq]

theorem same_eq_false {left right : Player} (hnetid : left.netid ≠ right.netid) :
    left.same right = false := by
  rw [Bool.eq_false_iff]
  intro hsame
  exact hnetid (same_iff.mp hsame).1

/-- Either nobody has the number, or there is a first one who has it. -/
theorem absent_or_split (netid : Int) (players : List Player) :
    (∀ player ∈ players, player.netid ≠ netid) ∨
      ∃ before target later, players = before ++ target :: later ∧
        (∀ player ∈ before, player.netid ≠ netid) ∧ target.netid = netid := by
  cases hfind : players.find? fun player => player.netid = netid with
  | none =>
      left
      intro player hplayer
      simpa using List.find?_eq_none.mp hfind player hplayer
  | some target =>
      right
      obtain ⟨htarget, before, later, rfl, hbefore⟩ := List.find?_eq_some_iff_append.mp hfind
      refine ⟨before, target, later, rfl, fun player hplayer => ?_, by simpa using htarget⟩
      simpa using hbefore player hplayer

/-- The loop of `OnRemove` never fails. -/
theorem erasePlayer_eq (netid : Int) (players : List Player) :
    Events.In.erasePlayer netid players = .ok (leaving netid players) := by
  unfold Events.In.erasePlayer
  rcases absent_or_split netid players with habsent | ⟨before, target, later, rfl, hbefore, htarget⟩
  · have hnone : (players.find? fun player => player.netid = netid) = none :=
      List.find?_eq_none.mpr fun player hplayer => by simpa using habsent player hplayer
    rw [hnone, leaving_absent habsent]
  · have hfind : (List.find? (fun player : Player => player.netid = netid)
        (before ++ target :: later)) = some target :=
      List.find?_eq_some_iff_append.mpr ⟨by simpa using htarget, before, later, rfl,
        fun player hplayer => by simpa using hbefore player hplayer⟩
    have hindex : List.findIdx (fun player : Player => player.netid = netid)
        (before ++ target :: later) = before.length := by
      have hnone : List.findIdx (fun player : Player => player.netid = netid) before =
          before.length :=
        List.findIdx_eq_length.mpr fun player hplayer => by simpa using hbefore player hplayer
      rw [List.findIdx_append, hnone, if_neg (Nat.lt_irrefl _), List.findIdx_cons]
      simp [htarget]
    rw [hfind, hindex, leaving_split hbefore htarget]
    refine Remove.eraseSame_eq (same_iff.mpr ⟨rfl, rfl⟩) fun player hplayer => ?_
    exact same_eq_false (htarget ▸ hbefore player hplayer)

/-! ## Events -/

/-- An incoming event that keeps `m_world`. -/
inductive Event where
  | spawn (varlist : VariantList)
  | remove (varlist : VariantList)
  | worldMenu
  | mapData (packet : Bytes)
  | state (packet : Bytes)
  | disconnect (reset : Bool)

/-- The handler of an event. -/
def handle : Event → Handler Bool
  | .spawn varlist => Events.In.onSpawn varlist
  | .remove varlist => Events.In.onRemove varlist
  | .worldMenu => Events.In.onRequestWorldSelectMenu
  | .mapData packet => Events.In.sendmapdata packet
  | .state packet => Events.In.state packet
  | .disconnect reset => do
      Handler.disconnect reset
      return false

/-- The state after an event; none if its handler ends in an exception. -/
def step (state : ProxyState) (event : Event) : Option ProxyState :=
  match (handle event).code.run state with
  | .ok _ after => some after
  | .error _ _ => none

/-- The netid that an `OnRemove` text names. -/
def departing (text : Bytes) : Option Int :=
  if Seq.find (ascii "netID|") text = some 0 then some (atoi (text.drop 6)) else none

/-- What an event that completes makes of the world. -/
def worldAfter (world : World) : Event → World
  | .spawn varlist =>
      let text := (varlist 1).getString
      let var := Rtvar.parse text
      if (var.find (ascii "netID")).isSome ∧ (var.find (ascii "onlineID")).isSome then
        let ply := Events.In.describe var
        { world with
          localPlayer := if contains text (ascii "type|local") then ply else world.localPlayer
          players := world.players ++ [ply] }
      else world
  | .remove varlist =>
      match departing (varlist 1).getString with
      | none => world
      | some netid =>
          { world with
            localPlayer := if netid = world.localPlayer.netid then {} else world.localPlayer
            players := leaving netid world.players }
  | .worldMenu =>
      { world with players := [], localPlayer := {}, connected := false, name := ascii "EXIT" }
  | .mapData packet =>
      { name := (Events.In.mapName packet).toOption.getD [], connected := true }
  | .state packet =>
      if world.connected = false ∨ Packet.mPlayerFlags packet = -1 then world
      else
        { world with
          players := Events.In.movePlayer (Packet.mPlayerFlags packet)
            (Packet.mVecX packet, Packet.mVecY packet) world.players }
  | .disconnect _ => { world with connected := false, localPlayer := {}, players := [] }

/-- A state with another world. -/
def withWorld (state : ProxyState) (world : World) : ProxyState :=
  { state with server := { state.server with mWorld := world } }

section Steps

open Events.In

variable {state after : ProxyState} {result : Bool}

theorem disconnect_world (state : ProxyState) (reset : Bool) :
    (state.disconnect reset).server.mWorld =
      { state.server.mWorld with connected := false, localPlayer := {}, players := [] } := by
  have hdrop (state : ProxyState) :
      state.dropConnection.server.mWorld = state.server.mWorld := by
    unfold ProxyState.dropConnection
    cases state.server.mServerPeer <;> rfl
  cases reset <;> exact hdrop _

theorem sendmapdata_world {packet : Bytes}
    (hrun : (sendmapdata packet).code.run state = .ok result after) :
    after.server.mWorld = worldAfter state.server.mWorld (.mapData packet) := by
  obtain ⟨_, cleared, hclear, hrest⟩ := Confined.bind_eq_ok hrun
  cases hclear
  obtain ⟨name, named, hlift, hrest⟩ := Confined.bind_eq_ok hrest
  obtain ⟨hname, rfl⟩ := Confined.ofExcept_eq_ok hlift
  cases hrest
  rw [worldAfter, hname]
  rfl

theorem state_world {packet : Bytes}
    (hrun : (Events.In.state packet).code.run state = .ok result after) :
    after.server.mWorld = worldAfter state.server.mWorld (.state packet) := by
  obtain ⟨world, same, hworld, hrest⟩ := Confined.bind_eq_ok hrun
  cases hworld
  rw [worldAfter]
  by_cases hconnected : state.server.mWorld.connected = false
  · rw [if_pos (.inl hconnected)]
    rw [if_pos hconnected] at hrest
    cases hrest
    rfl
  · rw [if_neg hconnected] at hrest
    by_cases hnobody : Packet.mPlayerFlags packet = -1
    · rw [if_pos (.inr hnobody)]
      rw [if_pos hnobody] at hrest
      cases hrest
      rfl
    · rw [if_neg (not_or.mpr ⟨hconnected, hnobody⟩)]
      rw [if_neg hnobody] at hrest
      cases hrest
      rfl

/-- `OnRemove` changes the world and nothing else. -/
theorem onRemove_run (varlist : VariantList) (state : ProxyState) :
    (onRemove varlist).code.run state =
      .ok false (withWorld state (worldAfter state.server.mWorld (.remove varlist))) := by
  rw [worldAfter, departing]
  unfold onRemove
  by_cases hprefix : Seq.find (ascii "netID|") (varlist 1).getString = some 0
  · have hlength : 6 ≤ (varlist 1).getString.length := by
      obtain ⟨rest, hrest⟩ := (Seq.find_eq_zero_iff).mp hprefix
      rw [← hrest, List.length_append]
      exact Nat.le_add_right 6 _
    simp only [if_pos hprefix, substrFrom_of_le hlength, erasePlayer_eq]
    have htext : (Handler.lift (.ok ((varlist 1).getString.drop 6))).code.run state =
      .ok ((varlist 1).getString.drop 6) state := rfl
    have hworld : Handler.getWorld.code.run state = .ok state.server.mWorld state := rfl
    refine (run_bind_ok state htext).trans ((run_bind_ok state hworld).trans ?_)
    by_cases hlocal : atoi ((varlist 1).getString.drop 6) = state.server.mWorld.localPlayer.netid
    · simp only [if_pos hlocal]
      rfl
    · simp only [if_neg hlocal]
      rfl
  · rw [if_neg hprefix, if_neg hprefix]
    rfl

theorem sendVariant_world {client : Bool} {list : VariantList} {netid delay : Int}
    (hrun : (Handler.sendVariant client list netid delay).code.run state = .ok () after) :
    after.server.mWorld = state.server.mWorld := by
  rcases Handler.sendVariant_eq_ok hrun with ⟨-, rfl⟩ | ⟨peer, host, packet, -, -, rfl⟩ <;> rfl

theorem sendLog_world {text : Bytes}
    (hrun : (Handler.sendLog text).code.run state = .ok () after) :
    after.server.mWorld = state.server.mWorld := by
  cases htarget : state.target true with
  | none =>
      have hlog := hrun.symm.trans (Handler.deliver_run_none htarget _)
      cases hlog
      rfl
  | some pair =>
      have hlog := hrun.symm.trans (Handler.deliver_run htarget _)
      cases hlog
      rfl

theorem noteUnaccess_world {name : Pair} {userid : Option Pair}
    (hrun : (noteUnaccess name userid).code.run state = .ok () after) :
    after.server.mWorld = state.server.mWorld := by
  unfold noteUnaccess at hrun
  by_cases hlocked : contains name.mValue (ascii "`^") = true
  · rw [if_pos hlocked] at hrun
    obtain ⟨userid, same, hlift, hrest⟩ := Confined.bind_eq_ok hrun
    obtain ⟨-, rfl⟩ := Confined.ofExcept_eq_ok hlift
    obtain ⟨out, same, hout, hrest⟩ := Confined.bind_eq_ok hrest
    cases hout
    by_cases hknown : contains same.out.unaccesspaketi
        (ascii "\ncheckbox_" ++ userid.mValue ++ ascii "|0") = true
    · simp only [if_pos hknown] at hrest
      cases hrest
      rfl
    · simp only [if_neg hknown] at hrest
      cases hrest
      rfl
  · rw [if_neg hlocked] at hrun
    cases hrun
    rfl

/-- `OnSpawn` from the choice of the local player on. -/
theorem enter_world {varlist : VariantList} {ply : Player} {edited : Rtvar}
    (hrun : (show Handler Bool from do
      let isLocal := contains (varlist 1).getString (ascii "type|local")
      let var ← Handler.lift (if isLocal then updateFirst edited (ascii "mstate")
        (fun _ => ascii "1") else .ok edited)
      if isLocal then
        Handler.modifyWorld fun world => { world with localPlayer := ply }
      Handler.modifyWorld fun world => { world with players := world.players ++ [ply] }
      let env := (← Handler.getState).env
      let str := Events.replace (var.serialize env.eraseDropsLast) (ascii "onlineID")
        (ascii "onlineID|")
      Handler.sendVariant true (varlist.modify 1 (Variant.setString str)) (-1) (-1)
      return true).code.run state = .ok result after) :
    after.server.mWorld =
      { state.server.mWorld with
        localPlayer := if contains (varlist 1).getString (ascii "type|local") then ply
          else state.server.mWorld.localPlayer
        players := state.server.mWorld.players ++ [ply] } := by
  obtain ⟨var, same, hlift, hrest⟩ := Confined.bind_eq_ok hrun
  obtain ⟨-, rfl⟩ := Confined.ofExcept_eq_ok hlift
  have hpushed (middle : ProxyState) (hend : (show Handler Bool from do
      Handler.modifyWorld fun world => { world with players := world.players ++ [ply] }
      let env := (← Handler.getState).env
      let str := Events.replace (var.serialize env.eraseDropsLast) (ascii "onlineID")
        (ascii "onlineID|")
      Handler.sendVariant true (varlist.modify 1 (Variant.setString str)) (-1) (-1)
      return true).code.run middle = .ok result after) :
      after.server.mWorld =
        { middle.server.mWorld with players := middle.server.mWorld.players ++ [ply] } := by
    obtain ⟨_, pushed, hpush, hrest⟩ := Confined.bind_eq_ok hend
    obtain ⟨_, again, hagain, hrest⟩ := Confined.bind_eq_ok hrest
    obtain ⟨_, sent, hsend, hreturn⟩ := Confined.bind_eq_ok hrest
    cases hreturn
    rw [sendVariant_world hsend]
    cases hagain
    cases hpush
    rfl
  by_cases hlocal : contains (varlist 1).getString (ascii "type|local") = true
  · simp only [if_pos hlocal] at hrest ⊢
    obtain ⟨_, entered, henter, hrest⟩ := Confined.bind_eq_ok hrest
    rw [hpushed entered hrest]
    cases henter
    rfl
  · simp only [if_neg hlocal] at hrest ⊢
    exact hpushed _ hrest

theorem onSpawn_world {varlist : VariantList}
    (hrun : (onSpawn varlist).code.run state = .ok result after) :
    after.server.mWorld = worldAfter state.server.mWorld (.spawn varlist) := by
  unfold onSpawn at hrun
  obtain ⟨name, same, hlift, hrest⟩ := Confined.bind_eq_ok hrun
  obtain ⟨hderef, rfl⟩ := Confined.ofExcept_eq_ok hlift
  obtain ⟨_, noted, hnote, hrest⟩ := Confined.bind_eq_ok hrest
  rw [← noteUnaccess_world hnote, worldAfter]
  cases hnetid : (Rtvar.parse (varlist 1).getString).find (ascii "netID") with
  | none =>
      rw [hnetid] at hrest
      cases hrest
      rfl
  | some netid =>
      cases honline : (Rtvar.parse (varlist 1).getString).find (ascii "onlineID") with
      | none =>
          rw [hnetid, honline] at hrest
          cases hrest
          rfl
      | some online =>
          rw [hnetid, honline] at hrest
          simp only at hrest
          obtain ⟨out, same, hout, hrest⟩ := Confined.bind_eq_ok hrest
          cases hout
          obtain ⟨⟨ply, edited⟩, same, hlift, hrest⟩ := Confined.bind_eq_ok hrest
          obtain ⟨hspawned, rfl⟩ := Confined.ofExcept_eq_ok hlift
          have hname : (Rtvar.parse (varlist 1).getString).find (ascii "name") = some name := by
            cases hfind : (Rtvar.parse (varlist 1).getString).find (ascii "name") with
            | none => rw [hfind] at hderef; cases hderef
            | some found => rw [hfind] at hderef; cases hderef; rfl
          obtain ⟨rfl, -⟩ := spawnPlayer_eq_ok hname hspawned
          simp only [Option.isSome_some, and_self, if_true]
          by_cases hhidden : (describe (Rtvar.parse (varlist 1).getString)).invis = true
          · simp only [if_pos hhidden] at hrest
            obtain ⟨_, logged, hlog, hrest⟩ := Confined.bind_eq_ok hrest
            have hlogged := sendLog_world hlog
            rw [← hlogged]
            exact enter_world hrest
          · simp only [if_neg hhidden] at hrest
            exact enter_world hrest

/-- An event that completes has the effect on the world that `worldAfter` gives. -/
theorem step_world {event : Event} (hstep : step state event = some after) :
    after.server.mWorld = worldAfter state.server.mWorld event := by
  unfold step at hstep
  cases hrun : (handle event).code.run state with
  | error failure last => rw [hrun] at hstep; cases hstep
  | ok result last =>
      rw [hrun] at hstep
      cases hstep
      cases event with
      | spawn varlist => exact onSpawn_world hrun
      | remove varlist =>
          cases (onRemove_run varlist state).symm.trans hrun
          rfl
      | worldMenu => cases hrun; rfl
      | mapData packet => exact sendmapdata_world hrun
      | state packet => exact state_world hrun
      | disconnect reset =>
          obtain ⟨_, dropped, hdrop, hrest⟩ := Confined.bind_eq_ok hrun
          cases hdrop
          cases hrest
          exact disconnect_world state reset

end Steps

/-! ## Events as inputs of the loops -/

/-- The event that a function call is. -/
def ofCall (varlist : VariantList) : Option Event :=
  let func := (varlist 0).getString
  if func = ascii "OnSpawn" then some (.spawn varlist)
  else if func = ascii "OnRemove" then some (.remove varlist)
  else if func = ascii "OnRequestWorldSelectMenu" then some .worldMenu
  else none

/-- The event that a packet from the server is. -/
def ofPacket (packet : Bytes) : Option Event :=
  (Server.structOf packet).bind fun struct =>
    if Packet.mType struct = PACKET_CALL_FUNCTION then
      (Events.In.decodeCall struct).toOption.bind ofCall
    else if Packet.mType struct = PACKET_SEND_MAP_DATA then some (.mapData struct)
    else if Packet.mType struct = PACKET_STATE then some (.state struct)
    else none

/-- The event that an input of the loops is. -/
def ofInput : Server.Input → Option Event
  | .server (.receive packet) => ofPacket packet
  | .server .disconnect => some (.disconnect true)
  | _ => none

theorem ends_world {client : Bool} {verdict : Server.Verdict} {state after : ProxyState}
    (hends : Server.Ends client verdict state after) :
    after.server.mWorld = state.server.mWorld := by
  cases hends <;> rfl

theorem judge_run {handler : Proxy Bool} {packet : Bytes} {verdict : Server.Verdict}
    {state after : ProxyState}
    (hrun : (Server.judge handler packet).run state = .ok verdict after) :
    ∃ result, handler.run state = .ok result after := by
  obtain ⟨result, middle, hresult, hrest⟩ := run_bind_eq_ok state hrun
  cases result <;> (cases hrest; exact ⟨_, hresult⟩)

/-- A call that is an event selects the handler of the event. -/
theorem callFunction_of_call {varlist : VariantList} {event : Event}
    (hevent : ofCall varlist = some event) :
    Events.In.isRedirect (varlist 0).getString = false ∧
      Events.In.callFunction (varlist 0).getString varlist = handle event := by
  unfold ofCall at hevent
  generalize (varlist 0).getString = func at hevent ⊢
  by_cases hspawn : func = ascii "OnSpawn"
  · subst hspawn
    rw [if_pos rfl] at hevent
    cases hevent
    refine ⟨by decide, ?_⟩
    unfold Events.In.callFunction
    rw [if_neg (by decide), if_neg (by decide), if_neg (by decide), if_neg (by decide),
      if_neg (by decide), if_neg (by decide), if_pos (by decide)]
    rfl
  rw [if_neg hspawn] at hevent
  by_cases hremove : func = ascii "OnRemove"
  · subst hremove
    rw [if_pos rfl] at hevent
    cases hevent
    refine ⟨by decide, ?_⟩
    unfold Events.In.callFunction
    rw [if_neg (by decide), if_neg (by decide), if_neg (by decide), if_neg (by decide),
      if_neg (by decide), if_pos (by decide)]
    rfl
  rw [if_neg hremove] at hevent
  by_cases hmenu : func = ascii "OnRequestWorldSelectMenu"
  · subst hmenu
    rw [if_pos rfl] at hevent
    cases hevent
    refine ⟨by decide, ?_⟩
    unfold Events.In.callFunction
    rw [if_neg (by decide), if_pos (by decide)]
    rfl
  · rw [if_neg hmenu] at hevent
    cases hevent

/-- A handler that ends is a step of the machine. -/
theorem handle_world {event : Event} {result : Bool} {state after : ProxyState}
    (hrun : (handle event).code.run state = .ok result after) :
    after.server.mWorld = worldAfter state.server.mWorld event := by
  have hstep : step state event = some after := by rw [step, hrun]
  exact step_world hstep

/-- A call that is an event does to the world what the event does. -/
theorem variantlist_world {struct : Bytes} {varlist : VariantList} {event : Event} {result : Bool}
    {state after : ProxyState} (hdecode : Events.In.decodeCall struct = .ok varlist)
    (hevent : ofCall varlist = some event)
    (hrun : (Events.In.variantlist struct).run state = .ok result after) :
    after.server.mWorld = worldAfter state.server.mWorld event := by
  obtain ⟨hplain, hhandler⟩ := callFunction_of_call hevent
  have hcode : Events.In.variantlist struct = (do
      (Events.In.noteLogon (varlist 0).getString).code
      (handle event).code) := by
    rw [← hhandler]
    simp only [Events.In.variantlist, hdecode, hplain, Bool.false_eq_true, if_false]
  rw [hcode] at hrun
  obtain ⟨gt, hnoted⟩ := Server.noteLogon_run (varlist 0).getString state
  rw [run_bind_ok state hnoted] at hrun
  have hworld := handle_world hrun
  exact hworld

/-- A game packet that is an event does to the world what the event does. -/
theorem incomingGameVerdict_world {struct : Bytes} {event : Event} {verdict : Server.Verdict}
    {state after : ProxyState}
    (hevent : (if Packet.mType struct = PACKET_CALL_FUNCTION then
        (Events.In.decodeCall struct).toOption.bind ofCall
      else if Packet.mType struct = PACKET_SEND_MAP_DATA then some (.mapData struct)
      else if Packet.mType struct = PACKET_STATE then some (.state struct)
      else none) = some event)
    (hrun : (Server.incomingGameVerdict struct).run state = .ok verdict after) :
    after.server.mWorld = worldAfter state.server.mWorld event := by
  unfold Server.incomingGameVerdict at hrun
  by_cases hcall : Packet.mType struct = PACKET_CALL_FUNCTION
  · rw [if_pos hcall] at hevent
    rw [hcall, if_neg (by decide), if_neg (by decide), if_pos rfl] at hrun
    obtain ⟨result, hresult⟩ := judge_run hrun
    cases hdecode : Events.In.decodeCall struct with
    | error failure => rw [hdecode] at hevent; cases hevent
    | ok varlist =>
        rw [hdecode] at hevent
        exact variantlist_world hdecode hevent hresult
  rw [if_neg hcall] at hevent
  by_cases hmap : Packet.mType struct = PACKET_SEND_MAP_DATA
  · rw [if_pos hmap] at hevent
    cases hevent
    rw [hmap, if_neg (by decide), if_neg (by decide), if_neg (by decide), if_pos rfl] at hrun
    obtain ⟨result, hresult⟩ := judge_run hrun
    exact @handle_world (.mapData struct) _ _ _ hresult
  rw [if_neg hmap] at hevent
  by_cases hstate : Packet.mType struct = PACKET_STATE
  · rw [if_pos hstate] at hevent
    cases hevent
    rw [hstate, if_neg (by decide), if_neg (by decide), if_neg (by decide), if_neg (by decide),
      if_pos rfl] at hrun
    obtain ⟨result, hresult⟩ := judge_run hrun
    exact @handle_world (.state struct) _ _ _ hresult
  · rw [if_neg hstate] at hevent
    cases hevent

/-- An input that is an event does to the world what the event does. -/
theorem input_world {state after : ProxyState} {input : Server.Input} {event : Event}
    (hevent : ofInput input = some event) (hstep : Server.step state input = some after) :
    after.server.mWorld = worldAfter state.server.mWorld event := by
  cases input with
  | client slot happening => cases hevent
  | server happening =>
      cases happening with
      | connect => cases hevent
      | disconnect =>
          cases hevent
          obtain ⟨flow, hrun⟩ := Server.step_eq_some.mp hstep
          unfold Server.body Server.incomingEvent at hrun
          rw [run_get_bind] at hrun
          cases hreal : state.server.mRealServer with
          | none => rw [hreal] at hrun; cases hrun
          | some host =>
              rw [hreal] at hrun
              cases hrun
              exact disconnect_world state true
      | receive packet =>
          obtain ⟨verdict, middle, hjudged, -, hends⟩ := Server.receive_cases rfl hstep
          rw [ends_world hends]
          obtain ⟨host, -, hrun⟩ := Option.map_eq_some_iff.mp hjudged
          obtain ⟨struct, hstruct, hkind⟩ := Option.bind_eq_some_iff.mp hevent
          obtain ⟨hgame, hget⟩ := Server.structOf_eq_some hstruct
          have hempty : packet ≠ [] := by
            rintro rfl
            exact absurd hgame (by decide)
          unfold Server.incomingVerdict at hrun
          rw [if_neg hempty, hgame, if_neg (by decide), if_neg (by decide), if_pos rfl,
            hget] at hrun
          exact incomingGameVerdict_world hkind hrun

/-! ## The local player -/

/-- A local player that has a number has an entry. -/
def LocalPresent (world : World) : Prop :=
  world.localPlayer.netid ≠ -1 → ∃ player ∈ world.players,
    player.netid = world.localPlayer.netid ∧ player.userid = world.localPlayer.userid

/-- Whoever disappears had the departing number or equals someone who stays. -/
theorem mem_leaving {netid : Int} {players : List Player} {player : Player}
    (hplayer : player ∈ players) : player.netid = netid ∨
      ∃ kept ∈ leaving netid players, player.netid = kept.netid ∧ player.userid = kept.userid := by
  rcases absent_or_split netid players with habsent | ⟨before, target, later, rfl, hbefore, htarget⟩
  · rw [leaving_absent habsent]
    exact .inr ⟨player, hplayer, rfl, rfl⟩
  · rw [leaving_split hbefore htarget]
    rcases List.mem_append.mp hplayer with hearlier | hrest
    · exact .inr ⟨player, List.mem_append_left _ hearlier, rfl, rfl⟩
    · rcases List.mem_cons.mp hrest with rfl | hlater
      · exact .inl htarget
      · rcases Remove.mem_survivors hlater with hkept | htaken | ⟨kept, hkept, hsame⟩
        · exact .inr ⟨player, List.mem_append_right _ hkept, rfl, rfl⟩
        · exact .inl ((same_iff.mp htaken).1.trans htarget)
        · exact .inr ⟨kept, List.mem_append_right _ hkept, same_iff.mp hsame⟩

theorem mem_movePlayer {netid : Int} {pos : UInt32 × UInt32} {players : List Player}
    {player : Player} (hplayer : player ∈ players) :
    ∃ moved ∈ Events.In.movePlayer netid pos players,
      player.netid = moved.netid ∧ player.userid = moved.userid := by
  induction players with
  | nil => cases hplayer
  | cons first later ih =>
      rw [Events.In.movePlayer]
      by_cases hfirst : first.netid = netid
      · rw [if_pos hfirst]
        rcases List.mem_cons.mp hplayer with rfl | hlater
        · exact ⟨_, List.mem_cons_self, rfl, rfl⟩
        · exact ⟨player, List.mem_cons_of_mem _ hlater, rfl, rfl⟩
      · rw [if_neg hfirst]
        rcases List.mem_cons.mp hplayer with rfl | hlater
        · exact ⟨_, List.mem_cons_self, rfl, rfl⟩
        · obtain ⟨moved, hmoved, hsame⟩ := ih hlater
          exact ⟨moved, List.mem_cons_of_mem _ hmoved, hsame⟩

theorem localPresent_worldAfter {world : World} (hpresent : LocalPresent world) (event : Event) :
    LocalPresent (worldAfter world event) := by
  have hnobody (name : Bytes) (connected : Bool) (players : List Player) :
      LocalPresent { name := name, connected := connected, players := players } :=
    fun hlocal => absurd rfl hlocal
  cases event with
  | spawn varlist =>
      rw [worldAfter]
      by_cases hcomplete : ((Rtvar.parse (varlist 1).getString).find (ascii "netID")).isSome ∧
          ((Rtvar.parse (varlist 1).getString).find (ascii "onlineID")).isSome
      · simp only [if_pos hcomplete]
        by_cases hlocal : contains (varlist 1).getString (ascii "type|local") = true
        · rw [if_pos hlocal]
          exact fun _ => ⟨_, List.mem_append_right _ (List.mem_singleton_self _), rfl, rfl⟩
        · rw [if_neg hlocal]
          intro hnetid
          obtain ⟨player, hplayer, hsame⟩ := hpresent hnetid
          exact ⟨player, List.mem_append_left _ hplayer, hsame⟩
      · simp only [if_neg hcomplete]
        exact hpresent
  | remove varlist =>
      rw [worldAfter]
      cases hdeparting : departing (varlist 1).getString with
      | none => exact hpresent
      | some netid =>
          by_cases hlocal : netid = world.localPlayer.netid
          · simp only [if_pos hlocal]
            exact hnobody _ _ _
          · simp only [if_neg hlocal]
            intro hnetid
            obtain ⟨player, hplayer, hsame⟩ := hpresent hnetid
            rcases mem_leaving hplayer with htaken | ⟨kept, hkept, hequal⟩
            · exact absurd (htaken.symm.trans hsame.1) hlocal
            · exact ⟨kept, hkept, hequal.1.symm.trans hsame.1, hequal.2.symm.trans hsame.2⟩
  | worldMenu => exact hnobody _ _ _
  | mapData packet => exact hnobody _ _ _
  | state packet =>
      rw [worldAfter]
      by_cases hstill : world.connected = false ∨ Packet.mPlayerFlags packet = -1
      · rw [if_pos hstill]
        exact hpresent
      · rw [if_neg hstill]
        intro hnetid
        obtain ⟨player, hplayer, hsame⟩ := hpresent hnetid
        obtain ⟨moved, hmoved, hequal⟩ := mem_movePlayer hplayer
        exact ⟨moved, hmoved, hequal.1.symm.trans hsame.1, hequal.2.symm.trans hsame.2⟩
  | disconnect reset => exact hnobody _ _ _

/-- Along every run of roster events the local player has an entry. -/
theorem local_in_roster (events : List Event) {start last : ProxyState}
    (hstart : start.server.mWorld = {}) (hrun : runSteps step start events = some last) :
    last.server.mWorld.localPlayer.netid ≠ -1 → ∃ player ∈ last.server.mWorld.players,
      player.netid = last.server.mWorld.localPlayer.netid ∧
      player.userid = last.server.mWorld.localPlayer.userid := by
  have hfirst : LocalPresent start.server.mWorld := by
    rw [hstart]
    exact fun hlocal => absurd rfl hlocal
  have hstep (state : ProxyState) (event : Event) (next : ProxyState)
      (hpresent : LocalPresent state.server.mWorld) (hnext : step state event = some next) :
      LocalPresent next.server.mWorld := by
    rw [step_world hnext]
    exact localPresent_worldAfter hpresent event
  exact Runs.runSteps_invariant hstep events hfirst hrun

/-- A spawn call and a remove call with a text. -/
def spawnCall (text : String) : VariantList :=
  (VariantList.ofString (ascii "OnSpawn")).modify 1 (Variant.setString (ascii text))

def removeCall (text : String) : VariantList :=
  (VariantList.ofString (ascii "OnRemove")).modify 1 (Variant.setString (ascii text))

/-- The local player spawns, another one comes and goes. -/
theorem local_in_roster_after_departure :
    ∃ last, runSteps step {}
        [.spawn (spawnCall "name|ab\nnetID|1\nuserID|7\nonlineID|\ninvis|0\nmstate|0\ntype|local"),
          .spawn (spawnCall "name|cd\nnetID|2\nuserID|8\nonlineID|\ninvis|0"),
          .remove (removeCall "netID|2")] = some last ∧
      ∃ player ∈ last.server.mWorld.players,
        player.netid = last.server.mWorld.localPlayer.netid ∧
        player.userid = last.server.mWorld.localPlayer.userid := by
  have hany : ((runSteps step {}
      [.spawn (spawnCall "name|ab\nnetID|1\nuserID|7\nonlineID|\ninvis|0\nmstate|0\ntype|local"),
        .spawn (spawnCall "name|cd\nnetID|2\nuserID|8\nonlineID|\ninvis|0"),
        .remove (removeCall "netID|2")]).any fun last =>
      decide (last.server.mWorld.localPlayer.netid ≠ -1)) = true := by decide +kernel
  obtain ⟨last, hrun, hlocal⟩ := (Option.any_eq_true _ _).mp hany
  exact ⟨last, hrun, local_in_roster _ rfl hrun (of_decide_eq_true hlocal)⟩

end Roster

end SrmotionProxy
