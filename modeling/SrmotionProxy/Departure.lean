/-
# What a departure removes

`OnRemove` hands `std::remove` a reference into the vector, so what it erases depends
on where the entries stand. This module says exactly when it erases the entries with the
departing number and no others.
-/

import SrmotionProxy.Roster

namespace SrmotionProxy.Roster

open SrmotionProxy.Lib SrmotionProxy.Proton

/-- The entries with the departing number stand together and belong to one user, and
the entry behind them has no second copy. -/
def RemovesCleanly (netid : Int) (players : List Player) : Prop :=
  ∃ before gone after, players = before ++ (gone ++ after) ∧
    (∀ player ∈ before, player.netid ≠ netid) ∧
    (∀ player ∈ gone, player.netid = netid ∧
      ∀ other ∈ gone, player.userid = other.userid) ∧
    (∀ player ∈ after, player.netid ≠ netid) ∧
    ∀ next rest, after = next :: rest → ∀ player ∈ rest, player.same next = false

/-- Two filters that agree select the same elements. -/
theorem filter_eq_filter_iff {first second : Player → Bool} {players : List Player} :
    players.filter first = players.filter second ↔
      ∀ player ∈ players, first player = second player := by
  refine ⟨fun heq player hplayer => ?_, fun hagree => List.filter_congr hagree⟩
  have hmem : player ∈ players.filter first ↔ player ∈ players.filter second := by rw [heq]
  rw [List.mem_filter, List.mem_filter, and_iff_right hplayer, and_iff_right hplayer] at hmem
  exact Bool.eq_iff_iff.mpr hmem

/-- The same for what follows the first entry with the number. -/
theorem survivors_eq_filter_iff {netid : Int} {target : Player} (htarget : target.netid = netid)
    (later : List Player) :
    Remove.survivors Player.same target later =
        later.filter (fun player => player.netid ≠ netid) ↔
      ∃ gone after, later = gone ++ after ∧
        (∀ player ∈ gone, player.netid = netid ∧ player.userid = target.userid) ∧
        (∀ player ∈ after, player.netid ≠ netid) ∧
        ∀ next rest, after = next :: rest → ∀ player ∈ rest, player.same next = false := by
  induction later with
  | nil => exact iff_of_true rfl ⟨[], [], rfl, nofun, nofun, nofun⟩
  | cons item rest ih =>
      rw [Remove.survivors_cons]
      by_cases hsame : item.same target = true
      · obtain ⟨hnetid, huserid⟩ := same_iff.mp hsame
        rw [if_pos hsame, List.filter_cons_of_neg (by simp [hnetid, htarget]), ih]
        constructor
        · rintro ⟨gone, after, rfl, hgone, hafter, hnext⟩
          refine ⟨item :: gone, after, rfl, ?_, hafter, hnext⟩
          intro player hplayer
          rcases List.mem_cons.mp hplayer with rfl | hin
          · exact ⟨hnetid.trans htarget, huserid⟩
          · exact hgone player hin
        · rintro ⟨gone, after, hsplit, hgone, hafter, hnext⟩
          cases gone with
          | nil =>
              rw [List.nil_append] at hsplit
              exact absurd (hnetid.trans htarget) (hafter item (hsplit ▸ List.mem_cons_self))
          | cons first gone =>
              rw [List.cons_append, List.cons.injEq] at hsplit
              exact ⟨gone, after, hsplit.2,
                fun player hplayer => hgone player (List.mem_cons_of_mem _ hplayer), hafter, hnext⟩
      · rw [if_neg hsame]
        by_cases hnetid : item.netid = netid
        · refine iff_of_false (fun heq => ?_) ?_
          · have hmem : item ∈ (item :: rest).filter (fun player => player.netid ≠ netid) :=
              heq ▸ List.mem_cons_self
            simpa [hnetid] using List.of_mem_filter hmem
          · rintro ⟨gone, after, hsplit, hgone, hafter, -⟩
            cases gone with
            | nil =>
                rw [List.nil_append] at hsplit
                exact hafter item (hsplit ▸ List.mem_cons_self) hnetid
            | cons first gone =>
                rw [List.cons_append, List.cons.injEq] at hsplit
                obtain ⟨hfirst, huserid⟩ := hgone first List.mem_cons_self
                rw [← hsplit.1] at hfirst huserid
                exact hsame (same_iff.mpr ⟨hfirst.trans htarget.symm, huserid⟩)
        · rw [List.filter_cons_of_pos (by simpa using hnetid), List.cons.injEq,
            and_iff_right rfl, filter_eq_filter_iff]
          constructor
          · intro hagree
            have hrest (player : Player) (hplayer : player ∈ rest) :
                player.netid ≠ netid ∧ player.same item = false := by
              have hboth := hagree player hplayer
              cases hequal : player.same item with
              | true =>
                  rw [hequal] at hboth
                  have hdeparting : player.netid = netid := by simpa using hboth
                  exact absurd ((same_iff.mp hequal).1.symm.trans hdeparting) hnetid
              | false =>
                  rw [hequal] at hboth
                  exact ⟨by simpa using hboth, rfl⟩
            refine ⟨[], item :: rest, rfl, nofun, fun player hplayer => ?_, ?_⟩
            · rcases List.mem_cons.mp hplayer with rfl | hin
              · exact hnetid
              · exact (hrest player hin).1
            · intro next later hsplit player hplayer
              rw [List.cons.injEq] at hsplit
              obtain ⟨rfl, rfl⟩ := hsplit
              exact (hrest player hplayer).2
          · rintro ⟨gone, after, hsplit, hgone, hafter, hnext⟩ player hplayer
            cases gone with
            | nil =>
                rw [List.nil_append] at hsplit
                have hdiffers := hnext item rest hsplit.symm player hplayer
                have hstays := hafter player (hsplit ▸ List.mem_cons_of_mem item hplayer)
                simp [hdiffers, hstays]
            | cons first gone =>
                rw [List.cons_append, List.cons.injEq] at hsplit
                exact absurd (hsplit.1 ▸ (hgone first List.mem_cons_self).1) hnetid

/-- The first entry with the number is in one place. -/
theorem first_split_unique {netid : Int} {before front later rest : List Player}
    {target first : Player} (hbefore : ∀ player ∈ before, player.netid ≠ netid)
    (htarget : target.netid = netid) (hfront : ∀ player ∈ front, player.netid ≠ netid)
    (hfirst : first.netid = netid) (hsplit : before ++ target :: later = front ++ first :: rest) :
    before = front ∧ target :: later = first :: rest := by
  have hpart {start later : List Player} {stop : Player}
      (hstart : ∀ player ∈ start, player.netid ≠ netid) (hstop : stop.netid = netid) :
      (start ++ stop :: later).takeWhile (fun player => player.netid ≠ netid) = start := by
    rw [List.takeWhile_append_of_pos fun player hplayer => by simpa using hstart player hplayer,
      List.takeWhile_cons_of_neg (by simp [hstop]), List.append_nil]
  have hsame : before = front :=
    calc before = (before ++ target :: later).takeWhile (fun player => player.netid ≠ netid) :=
          (hpart hbefore htarget).symm
      _ = (front ++ first :: rest).takeWhile (fun player => player.netid ≠ netid) := by rw [hsplit]
      _ = front := hpart hfront hfirst
  subst hsame
  exact ⟨rfl, List.append_cancel_left hsplit⟩

theorem leaving_eq_filter_iff (netid : Int) (players : List Player) :
    leaving netid players = players.filter (fun player => player.netid ≠ netid) ↔
      RemovesCleanly netid players := by
  have hstays {before : List Player} (hbefore : ∀ player ∈ before, player.netid ≠ netid) :
      before.filter (fun player => player.netid ≠ netid) = before :=
    List.filter_eq_self.mpr fun player hplayer => by simpa using hbefore player hplayer
  rcases absent_or_split netid players with habsent | ⟨before, target, later, rfl, hbefore, htarget⟩
  · apply iff_of_true (by rw [leaving_absent habsent, hstays habsent])
    exact ⟨players, [], [], by rw [List.append_nil, List.append_nil], habsent, nofun, nofun, nofun⟩
  · rw [leaving_split hbefore htarget, List.filter_append, hstays hbefore,
      List.filter_cons_of_neg (by simp [htarget]), List.append_cancel_left_eq,
      survivors_eq_filter_iff htarget]
    constructor
    · rintro ⟨gone, after, rfl, hgone, hafter, hnext⟩
      refine ⟨before, target :: gone, after, rfl, hbefore, fun player hplayer => ?_, hafter, hnext⟩
      have huser (other : Player) (hother : other ∈ target :: gone) :
          other.netid = netid ∧ other.userid = target.userid := by
        rcases List.mem_cons.mp hother with rfl | hin
        · exact ⟨htarget, rfl⟩
        · exact hgone other hin
      exact ⟨(huser player hplayer).1,
        fun other hother => (huser player hplayer).2.trans (huser other hother).2.symm⟩
    · rintro ⟨front, gone, after, hsplit, hfront, hgone, hafter, hnext⟩
      have htargetMem : target ∈ front ++ (gone ++ after) := hsplit ▸ by simp
      cases gone with
      | nil =>
          rcases List.mem_append.mp htargetMem with hin | hin
          · exact absurd htarget (hfront target hin)
          · exact absurd htarget (hafter target hin)
      | cons first gone =>
          have hfirst := hgone first List.mem_cons_self
          obtain ⟨rfl, hrest⟩ := first_split_unique hbefore htarget hfront hfirst.1 hsplit
          rw [List.cons.injEq] at hrest
          obtain ⟨rfl, rfl⟩ := hrest
          refine ⟨gone, after, rfl, fun player hplayer => ?_, hafter, hnext⟩
          have hplayerGone := hgone player (List.mem_cons_of_mem target hplayer)
          exact ⟨hplayerGone.1, hplayerGone.2 target List.mem_cons_self⟩

/-- Handling `OnRemove` leaves exactly the players with other numbers when, and only
when, the departing ones stand together and the entry behind them is unique. -/
theorem onRemove_exact_iff {varlist : VariantList} {rest : Bytes} {netid : Int}
    (htext : (varlist 1).getString = ascii "netID|" ++ rest) (hnetid : atoi rest = netid)
    (state : ProxyState) :
    ∃ after, step state (.remove varlist) = some after ∧
      ((after.server.mWorld.players =
          state.server.mWorld.players.filter (fun player => player.netid ≠ netid) ∧
        (after.server.mWorld.localPlayer ≠ state.server.mWorld.localPlayer →
          state.server.mWorld.localPlayer.netid = netid)) ↔
      RemovesCleanly netid state.server.mWorld.players) := by
  have hdeparting : departing (varlist 1).getString = some netid := by
    rw [departing, htext, if_pos ((Seq.find_eq_zero_iff).mpr (List.prefix_append _ _)), ← hnetid]
    rfl
  have hworld : worldAfter state.server.mWorld (.remove varlist) =
      { state.server.mWorld with
        localPlayer := if netid = state.server.mWorld.localPlayer.netid then {}
          else state.server.mWorld.localPlayer
        players := leaving netid state.server.mWorld.players } := by
    rw [worldAfter, hdeparting]
  refine ⟨withWorld state (worldAfter state.server.mWorld (.remove varlist)), ?_, ?_⟩
  · rw [step, handle, onRemove_run]
  · rw [hworld, ← leaving_eq_filter_iff, withWorld, and_iff_left_iff_imp]
    rintro - hchanged
    by_contra hother
    exact hchanged (if_neg fun hsame => hother hsame.symm)

/-- A roster in which player 1 stands twice, behind player 3 and in front of player 2. -/
def twiceListed : List Player := [{ netid := 3 }, { netid := 1 }, { netid := 1 }, { netid := 2 }]

/-- Copies next to each other go together. -/
theorem onRemove_exact_adjacent :
    ∃ after, step (withWorld {} { players := twiceListed }) (.remove (removeCall "netID|1")) =
        some after ∧
      after.server.mWorld.players.map Player.netid = [3, 2] := by
  obtain ⟨after, hstep, hexact⟩ := @onRemove_exact_iff (removeCall "netID|1") [49] 1 rfl (by decide)
    (withWorld {} { players := twiceListed })
  have hclean : RemovesCleanly 1 twiceListed :=
    ⟨[{ netid := 3 }], [{ netid := 1 }, { netid := 1 }], [{ netid := 2 }], rfl, by simp, by simp,
      by simp, by simp⟩
  refine ⟨after, hstep, ?_⟩
  rw [(hexact.mpr hclean).1]
  rfl

/-- A player who has spawned twice, with another one in between, is not removed. -/
theorem onRemove_keeps_departed :
    ∃ middle last, runSteps step {}
        [.spawn (spawnCall "name|ab\nnetID|1\nuserID|7\nonlineID|\ninvis|0"),
          .spawn (spawnCall "name|cd\nnetID|2\nuserID|8\nonlineID|\ninvis|0"),
          .spawn (spawnCall "name|ab\nnetID|1\nuserID|7\nonlineID|\ninvis|0")] = some middle ∧
      step middle (.remove (removeCall "netID|1")) = some last ∧
      ∃ player ∈ last.server.mWorld.players, player.netid = 1 := by
  have hany : ((runSteps step {}
      [.spawn (spawnCall "name|ab\nnetID|1\nuserID|7\nonlineID|\ninvis|0"),
        .spawn (spawnCall "name|cd\nnetID|2\nuserID|8\nonlineID|\ninvis|0"),
        .spawn (spawnCall "name|ab\nnetID|1\nuserID|7\nonlineID|\ninvis|0")]).any fun middle =>
      (step middle (.remove (removeCall "netID|1"))).any fun last =>
        decide (∃ player ∈ last.server.mWorld.players, player.netid = 1)) = true := by
    decide +kernel
  obtain ⟨middle, hrun, hlast⟩ := (Option.any_eq_true _ _).mp hany
  obtain ⟨last, hremove, hleft⟩ := (Option.any_eq_true _ _).mp hlast
  exact ⟨middle, last, hrun, hremove, of_decide_eq_true hleft⟩

end SrmotionProxy.Roster
