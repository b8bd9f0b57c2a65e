/-
# Orders for everybody

`worldoptions` is meant to pull, kick or ban everybody in the world but the local player.
This module says which commands its loop sends, and whom it leaves out.
-/

import SrmotionProxy.Consumers

namespace SrmotionProxy.Roster

open SrmotionProxy.Lib SrmotionProxy.ENet SrmotionProxy.Events

/-! ## Names -/

/-- A name without the two bytes in front and the two bytes at the end. -/
def core (name : Bytes) : Bytes := (name.drop 2).take (name.length - 4)

/-- A name that has a core, and fits into a string. -/
def HasCore (player : Player) : Prop := 5 ≤ player.name.length ∧ player.name.length < 2 ^ 64

instance (player : Player) : Decidable (HasCore player) := inferInstanceAs (Decidable (_ ∧ _))

/-- The command for a player, as it is sent. -/
def order (verb : String) (player : Player) : Bytes :=
  textPacket (ascii "action|input\n|text|/" ++ ascii verb ++ ascii " " ++ core player.name)
    NET_MESSAGE_GENERIC_TEXT.toNat

/-- The loop gives the player an order. -/
def Heeded (bruh player : Player) : Prop :=
  ¬ CalledAll player ∧ ¬ core player.name <+: bruh.name.drop 2

instance (bruh player : Player) : Decidable (Heeded bruh player) :=
  inferInstanceAs (Decidable (_ ∧ _))

/-- The packets that were handed over, with their peers, the latest first. -/
def handedOver (trace : List Call) : List (Option Peer × Bytes) :=
  trace.filterMap fun call =>
    match call with
    | .peerSend peer _ data _ => some (some peer, data)
    | _ => none

section Ordering

variable {verb : String} {bruh player : Player} {state : ProxyState}

theorem coreName_eq {name : Bytes} {length : Nat} (hname : 2 ≤ name.length) (hcore : 4 ≤ length)
    (hsize : length < 2 ^ 64) : coreName name length = .ok ((name.drop 2).take (length - 4)) := by
  have hminus : subSize length 4 = length - 4 := by
    unfold subSize
    omega
  rw [coreName, substrFrom_of_le hname, except_ok_bind, substr_zero, hminus]

theorem length_core {name : Bytes} (hname : 4 ≤ name.length) :
    (core name).length = name.length - 4 := by
  rw [core, List.length_take, List.length_drop]
  omega

/-- One of the three options, if it is the one that was chosen. -/
theorem orderPlayer_run (hplayer : HasCore player) (hbruh : 2 ≤ bruh.name.length)
    (verb : String) (state : ProxyState) :
    (orderPlayer (ascii verb) verb player bruh).code.run state =
      (if core player.name <+: bruh.name.drop 2 then return ()
        else Handler.sendServer (ascii "action|input\n|text|/" ++ ascii verb ++ ascii " " ++
          core player.name) : Handler Unit).code.run state := by
  obtain ⟨hlong, hsize⟩ := hplayer
  have hplyr : coreName player.name player.name.length = .ok (core player.name) :=
    coreName_eq (by omega) (by omega) hsize
  have hown : coreName bruh.name player.name.length =
      .ok ((bruh.name.drop 2).take (core player.name).length) := by
    rw [length_core (by omega)]
    exact coreName_eq hbruh (by omega) hsize
  unfold orderPlayer
  rw [if_pos rfl, hplyr, hown]
  change (if core player.name ≠ (bruh.name.drop 2).take (core player.name).length then _
    else _ : Handler Unit).code.run state = _
  by_cases hstart : core player.name <+: bruh.name.drop 2
  · rw [if_pos hstart, if_neg (not_not_intro (List.prefix_iff_eq_take.mp hstart))]
  · rw [if_neg hstart, if_pos fun hsame => hstart (List.prefix_iff_eq_take.mpr hsame)]

theorem run_bind_unit (m : Handler Unit) (state : ProxyState) :
    (m >>= fun _ => return ()).code.run state = m.code.run state :=
  congrArg (fun code => code.run state) (bind_pure_unit : (m.code >>= fun _ => pure ()) = m.code)

theorem orderPlayer_other {option : Bytes} (hother : option ≠ ascii verb) (player bruh : Player) :
    orderPlayer option verb player bruh = return () := by
  unfold orderPlayer
  exact if_neg hother

/-- The body of the loop sends at most one command. -/
theorem worldoptionsPlayer_run (hverb : verb ∈ ["pull", "kick", "ban"])
    (hplayer : HasCore player) (hbruh : 2 ≤ bruh.name.length) (state : ProxyState) :
    (worldoptionsPlayer (ascii verb) bruh player).code.run state =
      (if Heeded bruh player then
        Handler.sendServer (ascii "action|input\n|text|/" ++ ascii verb ++ ascii " " ++
          core player.name)
      else return () : Handler Unit).code.run state := by
  have hname : 2 ≤ player.name.length := by
    have hlong := hplayer.1
    omega
  unfold worldoptionsPlayer
  rw [substrFrom_of_le hname]
  change (if ¬ CalledAll player then _ else _ : Handler Unit).code.run state = _
  by_cases hall : CalledAll player
  · rw [if_neg (not_not_intro hall), if_neg fun hheeded => hheeded.1 hall]
  have horder := orderPlayer_run hplayer hbruh verb state
  have hheeded : (if Heeded bruh player then
        Handler.sendServer (ascii "action|input\n|text|/" ++ ascii verb ++ ascii " " ++
          core player.name)
      else return () : Handler Unit) = if core player.name <+: bruh.name.drop 2 then return ()
        else Handler.sendServer (ascii "action|input\n|text|/" ++ ascii verb ++ ascii " " ++
          core player.name) := by
    by_cases hstart : core player.name <+: bruh.name.drop 2
    · rw [if_neg fun hheeded => hheeded.2 hstart, if_pos hstart]
    · rw [if_pos ⟨hall, hstart⟩, if_neg hstart]
  rw [if_pos hall, hheeded, ← horder]
  simp only [List.mem_cons, List.not_mem_nil, or_false] at hverb
  rcases hverb with rfl | rfl | rfl
  · rw [orderPlayer_other (by decide : ascii "pull" ≠ ascii "kick"),
      orderPlayer_other (by decide : ascii "pull" ≠ ascii "ban")]
    exact run_bind_unit _ state
  · rw [orderPlayer_other (by decide : ascii "kick" ≠ ascii "pull"),
      orderPlayer_other (by decide : ascii "kick" ≠ ascii "ban")]
    exact run_bind_unit _ state
  · rw [orderPlayer_other (by decide : ascii "ban" ≠ ascii "pull"),
      orderPlayer_other (by decide : ascii "ban" ≠ ascii "kick")]
    rfl

/-! ## The loop -/

theorem worldoptionsLoop_silent (htarget : state.target false = none)
    (hverb : verb ∈ ["pull", "kick", "ban"]) (hbruh : 2 ≤ bruh.name.length)
    (players : List Player) (hplayers : ∀ player ∈ players, HasCore player) :
    (worldoptionsLoop (ascii verb) bruh players).code.run state = .ok () state := by
  induction players with
  | nil => rfl
  | cons player players ih =>
      obtain ⟨hplayer, hrest⟩ := List.forall_mem_cons.mp hplayers
      have hbody : (worldoptionsPlayer (ascii verb) bruh player).code.run state =
          .ok () state := by
        rw [worldoptionsPlayer_run hverb hplayer hbruh]
        by_cases hheeded : Heeded bruh player
        · rw [if_pos hheeded]
          exact Handler.deliver_run_none htarget _
        · rw [if_neg hheeded]
          rfl
      have hloop : (worldoptionsLoop (ascii verb) bruh (player :: players)).code.run state =
          (worldoptionsLoop (ascii verb) bruh players).code.run state :=
        run_bind_ok state hbody
      rw [hloop, ih hrest]

/-- The loop sends the orders for the players it heeds, one each, in the order of the roster. -/
theorem worldoptionsLoop_orders {peer : Peer} {host : Host}
    (htarget : state.target false = some (peer, host))
    (hverb : verb ∈ ["pull", "kick", "ban"]) (hbruh : 2 ≤ bruh.name.length)
    (players : List Player) (hplayers : ∀ player ∈ players, HasCore player) :
    ∃ after, (worldoptionsLoop (ascii verb) bruh players).code.run state = .ok () after ∧
      handedOver after.trace =
        ((players.filter (Heeded bruh ·)).map fun player =>
          (some peer, order verb player)).reverse ++ handedOver state.trace := by
  induction players generalizing state with
  | nil => exact ⟨state, rfl, rfl⟩
  | cons player players ih =>
      obtain ⟨hplayer, hrest⟩ := List.forall_mem_cons.mp hplayers
      have hbody := worldoptionsPlayer_run hverb hplayer hbruh state
      by_cases hheeded : Heeded bruh player
      · rw [if_pos hheeded] at hbody
        have hsent := hbody.trans (Handler.deliver_run htarget _)
        -- A send leaves the members of `server` as they are.
        obtain ⟨after, hrun, htrace⟩ := @ih
          (state.sendAndFlush .built peer host (order verb player)) htarget hrest
        refine ⟨after, (run_bind_ok state hsent).trans hrun, ?_⟩
        rw [htrace, List.filter_cons, if_pos (decide_eq_true hheeded), List.map_cons,
          List.reverse_cons, List.append_assoc]
        rfl
      · rw [if_neg hheeded] at hbody
        obtain ⟨after, hrun, htrace⟩ := ih htarget hrest
        refine ⟨after, (run_bind_ok state hbody).trans hrun, ?_⟩
        rw [htrace, List.filter_cons, if_neg fun hdecided => hheeded (of_decide_eq_true hdecided)]

/-! ## Everybody else -/

/-- Each name has a core, the cores are distinct, and the local player is in the roster. -/
structure WellNamed (world : World) : Prop where
  named : ∀ player ∈ world.players, HasCore player
  distinct : (world.players.map (core ·.name)).Nodup
  present : ∃ player ∈ world.players, player.name = world.localPlayer.name

/-- The roster without the local player. -/
def others (world : World) : List Player :=
  world.players.filter (·.name ≠ world.localPlayer.name)

/-- `worldoptions` sends the order for everybody but the local player, and nothing else. -/
def OrdersOthers (verb : String) (state : ProxyState) : Prop :=
  ∃ after, (worldoptions (ascii verb)).code.run state = .ok true after ∧
    handedOver after.trace =
      ((others state.server.mWorld).map fun player =>
        (state.server.mServerPeer, order verb player)).reverse ++ handedOver state.trace

theorem WellNamed.length_local {world : World} (hworld : WellNamed world) :
    2 ≤ world.localPlayer.name.length := by
  obtain ⟨own, hown, hname⟩ := hworld.present
  have hlong := (hworld.named own hown).1
  rw [← hname]
  omega

/-- The loop does not heed the local player: its own core is cut from its own name. -/
theorem Heeded.ne_local (hheeded : Heeded bruh player) : player.name ≠ bruh.name := by
  intro hsame
  apply hheeded.2
  rw [hsame]
  exact List.take_prefix _ _

theorem heeded_others (world : World) :
    (others world).filter (Heeded world.localPlayer ·) =
      world.players.filter (Heeded world.localPlayer ·) := by
  rw [others, List.filter_filter]
  refine List.filter_congr fun player _ => ?_
  rw [← Bool.decide_and, decide_eq_decide]
  exact and_iff_left_of_imp Heeded.ne_local

theorem worldoptions_run (after : ProxyState)
    (hloop : (worldoptionsLoop (ascii verb) state.server.mWorld.localPlayer
      state.server.mWorld.players).code.run state = .ok () after) :
    (worldoptions (ascii verb)).code.run state = .ok true after :=
  run_bind_ok state hloop

/-- As many orders were sent as there are others, so none of them was left out. -/
theorem OrdersOthers.heeded (horders : OrdersOthers verb state)
    (hverb : verb ∈ ["pull", "kick", "ban"]) (hworld : WellNamed state.server.mWorld)
    {peer : Peer} {host : Host} (htarget : state.target false = some (peer, host)) :
    ∀ player ∈ others state.server.mWorld, Heeded state.server.mWorld.localPlayer player := by
  obtain ⟨last, hlast, htrace⟩ := horders
  obtain ⟨after, hloop, hsent⟩ :=
    worldoptionsLoop_orders htarget hverb hworld.length_local _ hworld.named
  rw [worldoptions_run after hloop] at hlast
  cases hlast
  rw [← heeded_others] at hsent
  have hall := congrArg List.length (List.append_cancel_right (hsent.symm.trans htrace))
  simp only [List.length_reverse, List.length_map] at hall
  have heeded := List.filter_eq_self.mp (List.filter_sublist.eq_of_length hall)
  exact fun player hplayer => of_decide_eq_true (heeded player hplayer)

/-- Everybody else gets the order exactly when the server is connected and the loop heeds them. -/
theorem ordersOthers_iff (hverb : verb ∈ ["pull", "kick", "ban"])
    (hworld : WellNamed state.server.mWorld) :
    OrdersOthers verb state ↔
      (others state.server.mWorld ≠ [] → (state.target false).isSome) ∧
        ∀ player ∈ others state.server.mWorld, Heeded state.server.mWorld.localPlayer player := by
  cases htarget : state.target false with
  | none =>
      have hrun := worldoptions_run state
        (worldoptionsLoop_silent htarget hverb hworld.length_local _ hworld.named)
      constructor
      · rintro ⟨after, hafter, htrace⟩
        rw [hrun] at hafter
        cases hafter
        -- Nothing was sent, so nobody else is there.
        have hnone : others state.server.mWorld = [] := by
          simpa using List.self_eq_append_left.mp htrace
        rw [hnone]
        exact ⟨fun hsome => absurd rfl hsome, List.forall_mem_nil _⟩
      · rintro ⟨hconnected, -⟩
        have hnone : others state.server.mWorld = [] := by
          by_contra hsome
          cases hconnected hsome
        refine ⟨state, hrun, ?_⟩
        rw [hnone]
        rfl
  | some pair =>
      obtain ⟨peer, host⟩ := pair
      obtain ⟨after, hloop, hsent⟩ :=
        worldoptionsLoop_orders htarget hverb hworld.length_local _ hworld.named
      have hrun := worldoptions_run after hloop
      constructor
      · exact fun horders => ⟨fun _ => rfl, horders.heeded hverb hworld htarget⟩
      · rintro ⟨-, hall⟩
        have hpeer : state.server.mServerPeer = some peer := (ProxyState.target_eq_some htarget).1
        refine ⟨after, hrun, ?_⟩
        rw [hsent, hpeer, ← heeded_others,
          List.filter_eq_self.mpr fun player hplayer => decide_eq_true (hall player hplayer)]

end Ordering

/-- A connected proxy, with the local player first in the roster. -/
def crowd (own : String) (names : List String) : ProxyState where
  server :=
    { mRealServer := some 1
      mServerPeer := some ⟨1, 0⟩
      mWorld :=
        { localPlayer := { name := ascii own }
          players := (own :: names).map fun name => { name := ascii name } } }

/-- Names of two players that are as different as names mostly are. -/
theorem ordersOthers_crowd : OrdersOthers "kick" (crowd "`0Bob``" ["`0Eve``", "`6Small``"]) :=
  (ordersOthers_iff (by decide) ⟨by decide, by decide, by decide⟩).mpr
    ⟨fun _ => by decide, by decide⟩

/-- A name that starts with "all", and one that the local player's name starts with. -/
theorem crowd_leaves_out :
    WellNamed (crowd "`0Bobby``" ["`0Ally``", "`0Bob``"]).server.mWorld ∧
      ¬ OrdersOthers "kick" (crowd "`0Bobby``" ["`0Ally``", "`0Bob``"]) := by
  have hworld : WellNamed (crowd "`0Bobby``" ["`0Ally``", "`0Bob``"]).server.mWorld :=
    ⟨by decide, by decide, by decide⟩
  refine ⟨hworld, fun horders => ?_⟩
  have htarget : (crowd "`0Bobby``" ["`0Ally``", "`0Bob``"]).target false =
      some (⟨1, 0⟩, 1) := rfl
  exact absurd (horders.heeded (by decide) hworld htarget) (by decide)

end SrmotionProxy.Roster
