/-
# The map of present players

What the roster is for: a map from numbers to the players present, in order of appearance.
As long as the server spawns nobody who is present, the vector is this map, although the
removal loop compares with a cell that it overwrites.
-/

import SrmotionProxy.Departure

namespace SrmotionProxy.Roster

open SrmotionProxy.Lib SrmotionProxy.Proton

/-! ## Where players appear -/

/-- The position that a spawn text gives: the two numbers of `posXY`, as floats. -/
def givenPosition (text : Bytes) : Option (UInt32 × UInt32) := do
  let pair ← (Rtvar.parse text).find (ascii "posXY")
  let x ← pair.mValues[0]?
  let y ← pair.mValues[1]?
  return (Binary32.ofInt (atoi x), Binary32.ofInt (atoi y))

/-- Where a player appears. The position of an invisible moderator is not read, even if the
text gives one. -/
def spawnPosition (text : Bytes) : UInt32 × UInt32 :=
  if (Rtvar.parse text).get (ascii "invis") = ascii "1" then (0, 0)
  else (givenPosition text).getD (0, 0)

theorem spawnPos_parse (text : Bytes) :
    Events.In.spawnPos (Rtvar.parse text) = (givenPosition text).getD (0, 0) := by
  unfold Events.In.spawnPos givenPosition
  cases (Rtvar.parse text).find (ascii "posXY") with
  | none => rfl
  | some pair =>
      rcases hvalues : pair.mValues with _ | ⟨x, _ | ⟨y, rest⟩⟩
      · simp [hvalues]
      · simp [hvalues]
      · simp [hvalues]

/-- The record of a spawn has the position at which the player appears. -/
theorem pos_describe (text : Bytes) :
    (Events.In.describe (Rtvar.parse text)).pos = spawnPosition text := by
  rw [spawnPosition, ← spawnPos_parse]
  rfl

/-! ## The map -/

/-- A present player: the record of the spawn, the position of the spawn, and the position last
reported since. -/
structure Entry where
  spawned : Player
  position : UInt32 × UInt32
  moved : Option (UInt32 × UInt32) := none
  deriving DecidableEq, Repr

namespace Entry

def netid (entry : Entry) : Int := entry.spawned.netid

/-- What the roster holds of an entry. -/
def player (entry : Entry) : Player :=
  { entry.spawned with pos := entry.moved.getD entry.position }

/-- A report moves the entry with its number. -/
def report (netid : Int) (pos : UInt32 × UInt32) (entry : Entry) : Entry :=
  if entry.netid = netid then { entry with moved := some pos } else entry

theorem netid_report (netid : Int) (pos : UInt32 × UInt32) (entry : Entry) :
    (entry.report netid pos).netid = entry.netid := by
  unfold report
  by_cases hentry : entry.netid = netid
  · rw [if_pos hentry]
    rfl
  · rw [if_neg hentry]

theorem player_report (netid : Int) (pos : UInt32 × UInt32) (entry : Entry) :
    (entry.report netid pos).player =
      if entry.player.netid = netid then { entry.player with pos := pos } else entry.player := by
  have hnetid : entry.player.netid = entry.netid := rfl
  rw [hnetid]
  unfold report
  by_cases hentry : entry.netid = netid
  · rw [if_pos hentry, if_pos hentry]
    rfl
  · rw [if_neg hentry, if_neg hentry]

end Entry

/-- The map, in order of appearance, and whether a world has been joined. -/
structure Reference where
  present : List Entry := []
  connected : Bool := false
  deriving DecidableEq, Repr

namespace Reference

def netids (reference : Reference) : List Int := reference.present.map Entry.netid

/-- What an event means for the map. -/
def follow (reference : Reference) : Event → Reference
  | .spawn varlist =>
      { reference with
        present := reference.present ++
          [{ spawned := Events.In.describe (Rtvar.parse (varlist 1).getString)
             position := spawnPosition (varlist 1).getString }] }
  | .remove varlist =>
      match departing (varlist 1).getString with
      | none => reference
      | some netid =>
          { reference with
            present := reference.present.filter fun entry => entry.netid ≠ netid }
  | .worldMenu => {}
  | .mapData _ => { connected := true }
  | .state packet =>
      if reference.connected = false ∨ Packet.mPlayerFlags packet = -1 then reference
      else
        { reference with
          present := reference.present.map
            (Entry.report (Packet.mPlayerFlags packet) (Packet.mVecX packet, Packet.mVecY packet)) }
  | .disconnect _ => {}

end Reference

/-- The text has a pair with that key and a value. -/
def Carries (var : Rtvar) (key : String) : Prop :=
  ∃ pair, var.find (ascii key) = some pair ∧ pair.mValues ≠ []

instance (var : Rtvar) (key : String) : Decidable (Carries var key) :=
  decidable_of_iff ((var.find (ascii key)).any fun pair => pair.mValues ≠ []) <| by
    rw [Option.any_eq_true]
    simp only [decide_eq_true_eq]
    rfl

/-- A spawn text with everything in it. -/
structure Complete (text : Bytes) : Prop where
  name : Carries (Rtvar.parse text) "name"
  netid : Carries (Rtvar.parse text) "netID"
  userid : Carries (Rtvar.parse text) "userID"
  invis : Carries (Rtvar.parse text) "invis"
  online : ((Rtvar.parse text).find (ascii "onlineID")).isSome = true
  mstate : contains text (ascii "type|local") = true → Carries (Rtvar.parse text) "mstate"

instance (text : Bytes) : Decidable (Complete text) :=
  decidable_of_iff
    (Carries (Rtvar.parse text) "name" ∧ Carries (Rtvar.parse text) "netID" ∧
      Carries (Rtvar.parse text) "userID" ∧ Carries (Rtvar.parse text) "invis" ∧
      ((Rtvar.parse text).find (ascii "onlineID")).isSome = true ∧
      (contains text (ascii "type|local") = true → Carries (Rtvar.parse text) "mstate"))
    ⟨fun ⟨name, netid, userid, invis, online, mstate⟩ =>
        ⟨name, netid, userid, invis, online, mstate⟩,
      fun h => ⟨h.name, h.netid, h.userid, h.invis, h.online, h.mstate⟩⟩

/-- A well-behaved server: complete texts, and nobody spawns who is present. -/
def Proper (reference : Reference) : Event → Prop
  | .spawn varlist =>
      Complete (varlist 1).getString ∧
        (Events.In.describe (Rtvar.parse (varlist 1).getString)).netid ∉ reference.netids
  | _ => True

instance (reference : Reference) : (event : Event) → Decidable (Proper reference event)
  | .spawn varlist =>
      inferInstanceAs (Decidable (Complete (varlist 1).getString ∧
        (Events.In.describe (Rtvar.parse (varlist 1).getString)).netid ∉ reference.netids))
  | .remove _ => .isTrue trivial
  | .worldMenu => .isTrue trivial
  | .mapData _ => .isTrue trivial
  | .state _ => .isTrue trivial
  | .disconnect _ => .isTrue trivial

/-- The roster holds the entries of the map, each number once. -/
structure Represents (world : World) (reference : Reference) : Prop where
  players : world.players = reference.present.map Entry.player
  connected : world.connected = reference.connected
  nodup : reference.netids.Nodup

theorem removesCleanly_of_nodup {netid : Int} {players : List Player}
    (hnodup : (players.map Player.netid).Nodup) : RemovesCleanly netid players := by
  rcases absent_or_split netid players with habsent | ⟨before, target, later, rfl, hbefore, htarget⟩
  · exact ⟨players, [], [], by rw [List.append_nil, List.append_nil], habsent, nofun, nofun, nofun⟩
  · rw [List.map_append, List.map_cons, List.nodup_append] at hnodup
    obtain ⟨-, hrest, -⟩ := hnodup
    obtain ⟨htargetOnce, hlater⟩ := List.nodup_cons.mp hrest
    refine ⟨before, [target], later, rfl, hbefore, ?_, fun player hplayer hnetid => ?_, ?_⟩
    · intro player hplayer
      rw [List.mem_singleton] at hplayer
      subst hplayer
      exact ⟨htarget, fun other hother => by rw [List.mem_singleton.mp hother]⟩
    · exact htargetOnce (List.mem_map.mpr ⟨player, hplayer, hnetid.trans htarget.symm⟩)
    · rintro next rest rfl player hplayer
      rw [List.map_cons, List.nodup_cons] at hlater
      refine same_eq_false fun hsame => hlater.1 ?_
      exact hsame ▸ List.mem_map_of_mem hplayer

theorem movePlayer_eq_map {netid : Int} {pos : UInt32 × UInt32} {players : List Player}
    (hnodup : (players.map Player.netid).Nodup) :
    Events.In.movePlayer netid pos players =
      players.map fun player =>
        if player.netid = netid then { player with pos := pos } else player := by
  induction players with
  | nil => rfl
  | cons player players ih =>
      rw [List.map_cons, List.nodup_cons] at hnodup
      rw [Events.In.movePlayer, List.map_cons]
      by_cases hplayer : player.netid = netid
      · have hothers : ∀ other ∈ players, other.netid ≠ netid := by
          intro other hother hsame
          exact hnodup.1 (List.mem_map.mpr ⟨other, hother, hsame.trans hplayer.symm⟩)
        have hsame : players.map (fun player =>
            if player.netid = netid then { player with pos := pos } else player) = players := by
          rw [List.map_congr_left fun other hother => if_neg (hothers other hother), List.map_id']
        rw [if_pos hplayer, if_pos hplayer, hsame]
      · rw [if_neg hplayer, if_neg hplayer, ih hnodup.2]

theorem represents_worldAfter {world : World} {reference : Reference} {event : Event}
    (hrel : Represents world reference) (hproper : Proper reference event) :
    Represents (worldAfter world event) (reference.follow event) := by
  have hnetids : world.players.map Player.netid = reference.netids := by
    rw [hrel.players, List.map_map]
    rfl
  cases event with
  | spawn varlist =>
      obtain ⟨hcomplete, hnew⟩ := hproper
      obtain ⟨netid, hnetid, -⟩ := hcomplete.netid
      have hboth : ((Rtvar.parse (varlist 1).getString).find (ascii "netID")).isSome ∧
          ((Rtvar.parse (varlist 1).getString).find (ascii "onlineID")).isSome :=
        ⟨by rw [hnetid]; rfl, hcomplete.online⟩
      rw [worldAfter]
      simp only [if_pos hboth]
      refine ⟨?_, hrel.connected, ?_⟩
      · have hplayer : Entry.player {
            spawned := Events.In.describe (Rtvar.parse (varlist 1).getString)
            position := spawnPosition (varlist 1).getString } =
              Events.In.describe (Rtvar.parse (varlist 1).getString) := by
          rw [← pos_describe]
          rfl
        rw [Reference.follow, List.map_append, hrel.players, List.map_singleton, hplayer]
      · rw [Reference.follow, Reference.netids, List.map_append, List.nodup_append]
        refine ⟨hrel.nodup, List.nodup_singleton _, fun netid hold other hother hsame => ?_⟩
        rw [List.map_singleton, List.mem_singleton] at hother
        rw [hsame, hother] at hold
        exact hnew hold
  | remove varlist =>
      rw [worldAfter, Reference.follow]
      cases departing (varlist 1).getString with
      | none => exact hrel
      | some netid =>
          have hleaving : leaving netid world.players =
              world.players.filter (fun player => player.netid ≠ netid) :=
            (leaving_eq_filter_iff netid world.players).mpr
              (removesCleanly_of_nodup (hnetids ▸ hrel.nodup))
          refine ⟨?_, hrel.connected, hrel.nodup.sublist
            (List.Sublist.map _ List.filter_sublist)⟩
          change leaving netid world.players = _
          rw [hleaving, hrel.players, List.filter_map]
          rfl
  | worldMenu => exact ⟨rfl, rfl, List.nodup_nil⟩
  | mapData packet => exact ⟨rfl, rfl, List.nodup_nil⟩
  | state packet =>
      rw [worldAfter, Reference.follow, hrel.connected]
      by_cases hstill : reference.connected = false ∨ Packet.mPlayerFlags packet = -1
      · rw [if_pos hstill, if_pos hstill]
        exact hrel
      · rw [if_neg hstill, if_neg hstill]
        refine ⟨?_, rfl, ?_⟩
        · change Events.In.movePlayer _ _ world.players = _
          rw [movePlayer_eq_map (hnetids ▸ hrel.nodup), hrel.players, List.map_map, List.map_map]
          exact List.map_congr_left fun entry _ => (Entry.player_report _ _ entry).symm
        · have hsame : Entry.netid ∘ Entry.report (Packet.mPlayerFlags packet)
              (Packet.mVecX packet, Packet.mVecY packet) = Entry.netid :=
            funext fun entry => Entry.netid_report _ _ entry
          rw [Reference.netids, List.map_map, hsame]
          exact hrel.nodup
  | disconnect reset => exact ⟨rfl, rfl, List.nodup_nil⟩

/-- The roster refines the map: along every run of a well-behaved server the vector holds
the present players in order, each once, as they spawned but for the last position. Who has not
been reported since is where it appeared. -/
theorem roster_refines (events : List Event) {start last : ProxyState}
    (hstart : start.server.mWorld = {})
    (hproper : Runs.Accepts Reference.follow Proper {} events)
    (hrun : runSteps step start events = some last) :
    last.server.mWorld.players.map Player.netid = (events.foldl Reference.follow {}).netids ∧
      (last.server.mWorld.players.map Player.netid).Nodup ∧
      last.server.mWorld.players =
        (events.foldl Reference.follow {}).present.map Entry.player := by
  have hfirst : Represents start.server.mWorld {} := by
    rw [hstart]
    exact ⟨rfl, rfl, List.nodup_nil⟩
  have hstep (state : ProxyState) (reference : Reference) (event : Event) (next : ProxyState)
      (hrel : Represents state.server.mWorld reference) (hok : Proper reference event)
      (hnext : step state event = some next) :
      Represents next.server.mWorld (reference.follow event) := by
    rw [step_world hnext]
    exact represents_worldAfter hrel hok
  have hlast := Runs.runSteps_simulates hstep events hfirst hproper hrun
  have hnetids : last.server.mWorld.players.map Player.netid =
      (events.foldl Reference.follow {}).netids := by
    rw [hlast.players, List.map_map]
    rfl
  exact ⟨hnetids, hnetids ▸ hlast.nodup, hlast.players⟩

/-- A report of player 2. -/
def sampleReport : Bytes :=
  Packet.setVecX (Packet.setPlayerFlags (zeros 60) 2) 0x42000000

/-- A run with spawns, map data, reports and a departure. -/
def sampleEvents : List Event :=
  [.spawn (spawnCall "name|ab\nnetID|1\nuserID|7\nonlineID|\ninvis|0"),
    .mapData (zeros 80),
    .spawn (spawnCall "name|ab\nnetID|1\nuserID|7\nonlineID|\ninvis|0\nmstate|0\ntype|local"),
    .spawn (spawnCall "name|cd\nnetID|2\nuserID|8\nonlineID|\ninvis|1"),
    .spawn (spawnCall "name|ef\nnetID|3\nuserID|9\nonlineID|\ninvis|0\nposXY|320|64"),
    .state sampleReport, .remove (removeCall "netID|1")]

/-- The moderator is left at the reported position, the other one where it appeared. -/
theorem roster_refines_sample :
    ∃ last, runSteps step {} sampleEvents = some last ∧
      last.server.mWorld.players.map Player.netid = [2, 3] ∧
      last.server.mWorld.players.map Player.pos =
        [(0x42000000, 0), (Binary32.ofInt 320, Binary32.ofInt 64)] := by
  have hsome : (runSteps step {} sampleEvents).isSome = true := by decide +kernel
  obtain ⟨last, hrun⟩ := Option.isSome_iff_exists.mp hsome
  obtain ⟨hnetids, -, hplayers⟩ := roster_refines sampleEvents rfl (by decide +kernel) hrun
  refine ⟨last, hrun, ?_, ?_⟩
  · rw [hnetids]
    decide +kernel
  · rw [hplayers]
    decide +kernel

/-- A moderator whose text gives a position. -/
def hiddenText : String :=
  "name|cd\nnetID|2\nuserID|8\nonlineID|\ninvis|1\nposXY|320|64"

/-- An invisible moderator is not where its text says, although nothing has moved it. -/
theorem hidden_not_at_given :
    ∃ last, runSteps step {} [.spawn (spawnCall hiddenText)] = some last ∧
      Runs.Accepts Reference.follow Proper {} [.spawn (spawnCall hiddenText)] ∧
      givenPosition (ascii hiddenText) = some (Binary32.ofInt 320, Binary32.ofInt 64) ∧
      last.server.mWorld.players.map Player.netid = [2] ∧
      last.server.mWorld.players.map Player.pos ≠ [(Binary32.ofInt 320, Binary32.ofInt 64)] := by
  have hall : (runSteps step {} [.spawn (spawnCall hiddenText)]).any (fun last =>
      decide (last.server.mWorld.players.map Player.netid = [2] ∧
        last.server.mWorld.players.map Player.pos ≠
          [(Binary32.ofInt 320, Binary32.ofInt 64)])) = true := by decide +kernel
  obtain ⟨last, hrun, hplaced⟩ := (Option.any_eq_true _ _).mp hall
  exact ⟨last, hrun, by decide +kernel, by decide +kernel, of_decide_eq_true hplaced⟩

end SrmotionProxy.Roster
