/-
# Handlers that strip the colour of every name

`/tp` and `events::out::worldoptions` cut the first two bytes off the name of every
player they meet, `worldoptions` off the name of the local player as well. A name that
is too short ends them with an exception. This module says in which reachable states
that cannot happen: a moderator announced as invisible has an empty name, and so has
the local player before it spawns.
-/

import SrmotionProxy.Presence
import SrmotionProxy.Resend

namespace SrmotionProxy.Roster

open SrmotionProxy.Lib SrmotionProxy.Proton SrmotionProxy.Events

/-! ## When the consumers return -/

theorem substrFrom_eq_ok_iff {text : Bytes} {position : Nat} :
    (∃ rest, substrFrom text position = .ok rest) ↔ position ≤ text.length := by
  constructor
  · rintro ⟨rest, hrest⟩
    by_contra hlong
    rw [substrFrom_of_lt (by omega)] at hrest
    cases hrest
  · exact fun hle => ⟨_, substrFrom_of_le hle⟩

theorem deliver_returns (client : Bool) (data : Bytes) (state : ProxyState) :
    (Handler.deliver client data).Returns state := by
  cases htarget : state.target client with
  | none => exact ⟨(), state, Handler.deliver_run_none htarget data⟩
  | some pair => exact ⟨(), _, Handler.deliver_run htarget data⟩

theorem sendVariant_returns {list : VariantList} (hfits : list.encoding.length < 2 ^ 31)
    (client : Bool) (netid delay : Int) (state : ProxyState) :
    (Handler.sendVariant client list netid delay).Returns state := by
  cases htarget : state.target client with
  | none => exact ⟨(), state, Handler.sendVariant_run_none htarget list netid delay⟩
  | some pair =>
      exact ⟨(), _, Handler.sendVariant_run htarget (callFunctionPacket_eq list netid delay hfits)⟩

/-- The two strips of a name return if it has a colour. -/
theorem coreName_eq_ok_iff {name : Bytes} {length : Nat} :
    (∃ core, coreName name length = .ok core) ↔ 2 ≤ name.length := by
  rw [← substrFrom_eq_ok_iff]
  constructor
  · rintro ⟨core, hcore⟩
    obtain ⟨stripped, hstripped, -⟩ := except_bind_eq_ok hcore
    exact ⟨stripped, hstripped⟩
  · rintro ⟨stripped, hstripped⟩
    exact ⟨_, by rw [coreName, hstripped, except_ok_bind, substr_zero]⟩

/-- A lifted value in front of a part that does not depend on it. -/
theorem returns_lift_bind_iff {α β : Type} {value : Except Abort α} {next : α → Handler β}
    {state : ProxyState} {P Q : Prop} (hvalue : (∃ result, value = .ok result) ↔ P)
    (hnext : ∀ result, (next result).Returns state ↔ Q) :
    (Handler.lift value >>= next).Returns state ↔ P ∧ Q := by
  rw [← hvalue, ← exists_and_right]
  refine Confined.returns_ofExcept_bind.trans (exists_congr fun result => ?_)
  rw [hnext result]

/-- One of the three options, as far as it applies. -/
theorem orderPlayer_returns_iff (option : Bytes) (verb : String) (player bruh : Player)
    (state : ProxyState) : (orderPlayer option verb player bruh).Returns state ↔
      (option = ascii verb → 2 ≤ player.name.length ∧ 2 ≤ bruh.name.length) := by
  unfold orderPlayer
  by_cases hoption : option = ascii verb
  · rw [if_pos hoption, forall_prop_of_true hoption]
    refine returns_lift_bind_iff coreName_eq_ok_iff fun plyr => ?_
    rw [← and_true (2 ≤ bruh.name.length)]
    refine returns_lift_bind_iff coreName_eq_ok_iff fun own => iff_true_intro ?_
    by_cases hother : plyr ≠ own
    · rw [if_pos hother]
      exact deliver_returns _ _ state
    · rw [if_neg hother]
      exact Confined.returns_pure _ state
  · rw [if_neg hoption]
    exact iff_of_true (Confined.returns_pure _ state) fun h => absurd h hoption

/-- The name behind the colour begins with `all`, in whatever case. -/
def CalledAll (player : Player) : Prop :=
  Seq.find (ascii "all") (lower (player.name.drop 2)) = some 0

instance (player : Player) : Decidable (CalledAll player) :=
  inferInstanceAs (Decidable (_ = _))

/-- The three options of `worldoptions`. -/
def verbs : List Bytes := [ascii "pull", ascii "kick", ascii "ban"]

theorem worldoptionsPlayer_returns_iff {option : Bytes} (hoption : option ∈ verbs)
    (bruh player : Player) (state : ProxyState) :
    (worldoptionsPlayer option bruh player).Returns state ↔
      2 ≤ player.name.length ∧ (CalledAll player ∨ 2 ≤ bruh.name.length) := by
  unfold worldoptionsPlayer
  apply Confined.returns_ofExcept_bind.trans
  by_cases hname : 2 ≤ player.name.length
  · have hcalled : CalledAll player ↔
        Seq.find (ascii "all") (lower (player.name.drop 2)) = some 0 := Iff.rfl
    rw [substrFrom_of_le hname, hcalled]
    simp only [Except.ok.injEq, exists_eq_left', hname, true_and]
    by_cases hall : Seq.find (ascii "all") (lower (player.name.drop 2)) = some 0
    · rw [if_neg (not_not_intro hall)]
      exact iff_of_true (Confined.returns_pure _ state) (.inl hall)
    · rw [if_pos hall, or_iff_right hall]
      have horder (verb : String) (state : ProxyState) :
          (orderPlayer option verb player bruh).Returns state ↔
            (option = ascii verb → 2 ≤ bruh.name.length) := by
        rw [orderPlayer_returns_iff, and_iff_right hname]
      refine (Confined.returns_bind_iff (horder "pull") (fun _ => Confined.returns_bind_iff
        (horder "kick") fun _ => horder "ban") state).trans ?_
      constructor
      · rintro ⟨hpull, hkick, hban⟩
        simp only [verbs, List.mem_cons, List.not_mem_nil, or_false] at hoption
        rcases hoption with rfl | rfl | rfl
        · exact hpull rfl
        · exact hkick rfl
        · exact hban rfl
      · exact fun hown => ⟨fun _ => hown, fun _ => hown, fun _ => hown⟩
  · refine iff_of_false ?_ fun h => hname h.1
    rintro ⟨name2, hname2, -⟩
    exact hname (substrFrom_eq_ok_iff.mp ⟨name2, hname2⟩)

theorem worldoptionsLoop_returns_iff {option : Bytes} (hoption : option ∈ verbs) (bruh : Player)
    (players : List Player) (state : ProxyState) :
    (worldoptionsLoop option bruh players).Returns state ↔
      ∀ player ∈ players, 2 ≤ player.name.length ∧ (CalledAll player ∨ 2 ≤ bruh.name.length) := by
  induction players generalizing state with
  | nil => exact iff_of_true (Confined.returns_pure _ state) nofun
  | cons player players ih =>
      rw [worldoptionsLoop, List.forall_mem_cons]
      exact Confined.returns_bind_iff (worldoptionsPlayer_returns_iff hoption bruh player)
        (fun _ => ih) state

theorem worldoptions_returns_iff {option : Bytes} (hoption : option ∈ verbs)
    (state : ProxyState) : (worldoptions option).Returns state ↔
      ∀ player ∈ state.server.mWorld.players, 2 ≤ player.name.length ∧
        (CalledAll player ∨ 2 ≤ state.server.mWorld.localPlayer.name.length) := by
  have hloop := worldoptionsLoop_returns_iff hoption state.server.mWorld.localPlayer
    state.server.mWorld.players
  have hrest := Confined.returns_bind_iff hloop
    (fun _ state => iff_true_intro (Confined.returns_pure true state)) state
  rw [and_true] at hrest
  exact hrest

/-- A list with a short name and a vector is short. -/
theorem length_encoding_position (name : Bytes) (hname : name.length ≤ 100) (x y : UInt32) :
    ((VariantList.ofString name).modify 1 (Variant.setVector2 x y)).encoding.length < 2 ^ 31 := by
  have hbound : ∀ slot, (((VariantList.ofString name).modify 1 (Variant.setVector2 x y)) slot
      ).mString.length ≤ 100 := by
    intro slot
    by_cases hone : slot = 1
    · subst hone
      rw [VariantList.modify_same]
      exact Nat.zero_le _
    · rw [VariantList.modify_of_ne _ _ hone, VariantList.ofString]
      by_cases hzero : slot = 0
      · subst hzero
        rw [VariantList.modify_same]
        exact hname
      · rw [VariantList.modify_of_ne _ _ hzero]
        exact Nat.zero_le _
  have hlength := length_encoding_le hbound
  omega

theorem teleportTo_returns (player : Player) (state : ProxyState) :
    (teleportTo player).Returns state := by
  have hsent (world : World) (state : ProxyState) : (Handler.sendVariant true
      ((VariantList.ofString (ascii "OnSetPos")).modify 1
        (Variant.setVector2 player.pos.1 player.pos.2))
      world.localPlayer.netid (-1)).Returns state :=
    sendVariant_returns (length_encoding_position _ (by decide) _ _) _ _ _ state
  obtain ⟨_, logged, hlog⟩ := deliver_returns true _ state
  refine Confined.returns_bind.mpr ⟨_, logged, hlog, ?_⟩
  refine Confined.returns_bind.mpr ⟨_, _, rfl, ?_⟩
  refine Confined.returns_bind.mpr ⟨_, _, rfl, ?_⟩
  exact hsent _ _

theorem tpLoop_returns {name : Bytes} {players : List Player}
    (hnames : ∀ player ∈ players, 2 ≤ player.name.length) (state : ProxyState) :
    (tpLoop name players).Returns state := by
  induction players generalizing state with
  | nil => exact Confined.returns_pure _ state
  | cons player players ih =>
      rw [List.forall_mem_cons] at hnames
      rw [tpLoop, substrFrom_of_le hnames.1]
      refine Confined.returns_ofExcept_bind.mpr ⟨_, rfl, ?_⟩
      by_cases hfound : Seq.find name (lower (player.name.drop 2)) = some 0
      · rw [if_pos hfound]
        exact teleportTo_returns player state
      · rw [if_neg hfound]
        exact ih hnames.2 state

/-- A name that is longer than every name in the roster is looked for to its end. -/
theorem names_of_tpLoop_returns {name : Bytes} {players : List Player}
    (hlong : ∀ player ∈ players, player.name.length < name.length) {state : ProxyState}
    (hreturns : (tpLoop name players).Returns state) :
    ∀ player ∈ players, 2 ≤ player.name.length := by
  induction players with
  | nil => exact nofun
  | cons player players ih =>
      rw [List.forall_mem_cons] at hlong ⊢
      rw [tpLoop] at hreturns
      obtain ⟨name2, hname2, hrest⟩ := Confined.returns_ofExcept_bind.mp hreturns
      have hcolour := substrFrom_eq_ok_iff.mp ⟨name2, hname2⟩
      refine ⟨hcolour, ih hlong.2 ?_⟩
      rw [substrFrom_of_le hcolour] at hname2
      cases hname2
      rwa [if_neg] at hrest
      intro hfound
      have hprefix := (Seq.find_eq_zero_iff.mp hfound).length_le
      rw [lower, List.length_map, List.length_drop] at hprefix
      omega

theorem tpCommand_returns (argument : Bytes) (state : ProxyState) :
    (tpCommand (ascii "/tp " ++ argument)).Returns state ↔
      (tpLoop (lower argument) state.server.mWorld.players).Returns state := by
  have hargument : substrFrom (ascii "/tp " ++ argument) 4 = .ok argument :=
    substrFrom_of_le (by rw [List.length_append]; exact Nat.le_add_right 4 _)
  unfold tpCommand
  rw [hargument]
  constructor
  · intro hreturns
    obtain ⟨name, hname, hrest⟩ := Confined.returns_ofExcept_bind.mp hreturns
    cases hname
    obtain ⟨world, same, hworld, hrest⟩ := Confined.returns_bind.mp hrest
    cases hworld
    obtain ⟨_, after, hloop, -⟩ := Confined.returns_bind.mp hrest
    exact ⟨_, after, hloop⟩
  · rintro ⟨_, after, hloop⟩
    refine Confined.returns_ofExcept_bind.mpr ⟨_, rfl, ?_⟩
    refine Confined.returns_bind.mpr ⟨_, _, rfl, ?_⟩
    exact Confined.returns_bind.mpr ⟨_, after, hloop, Confined.returns_pure true after⟩

/-- `/tp` returns for every argument exactly if every player has a colour. -/
theorem tpCommand_returns_iff (state : ProxyState) :
    (∀ argument, (tpCommand (ascii "/tp " ++ argument)).Returns state) ↔
      ∀ player ∈ state.server.mWorld.players, 2 ≤ player.name.length := by
  constructor
  · intro hreturns
    have hbound : ∀ players : List Player, ∃ bound, ∀ player ∈ players,
        player.name.length < bound := by
      intro players
      induction players with
      | nil => exact ⟨0, nofun⟩
      | cons player players ih =>
          obtain ⟨bound, hbound⟩ := ih
          refine ⟨player.name.length + bound + 1, fun other hother => ?_⟩
          rcases List.mem_cons.mp hother with rfl | hin
          · omega
          · have := hbound other hin
            omega
    obtain ⟨bound, hbound⟩ := hbound state.server.mWorld.players
    have hloop := (tpCommand_returns (List.replicate bound 97) state).mp (hreturns _)
    refine names_of_tpLoop_returns (fun player hplayer => ?_) hloop
    rw [lower, List.length_map, List.length_replicate]
    exact hbound player hplayer
  · intro hnames argument
    exact (tpCommand_returns argument state).mpr (tpLoop_returns hnames state)

/-! ## Names along a run -/

/-- The server announces visible players with a colour in front of the name. -/
def WellFormed : Event → Prop
  | .spawn varlist =>
      let var := Rtvar.parse (varlist 1).getString
      Complete (varlist 1).getString ∧
        (var.get (ascii "invis") ≠ ascii "1" → 2 ≤ (var.get (ascii "name")).length)
  | _ => True

/-- A visible player has a colour, an invisible one no name. -/
def Named (player : Player) : Prop :=
  (player.invis = false → 2 ≤ player.name.length) ∧ (player.invis = true → player.name = [])

/-- What well-formed events keep. -/
structure NamesKept (world : World) : Prop where
  players : ∀ player ∈ world.players, Named player
  localPlayer : world.localPlayer.name = [] ∨ 2 ≤ world.localPlayer.name.length

theorem named_describe {varlist : VariantList} (hwell : WellFormed (.spawn varlist)) :
    Named (Events.In.describe (Rtvar.parse (varlist 1).getString)) := by
  unfold Events.In.describe
  by_cases hinvis : (Rtvar.parse (varlist 1).getString).get (ascii "invis") = ascii "1"
  · exact ⟨fun hvisible => absurd hvisible (by simp [hinvis]), fun _ => by simp [hinvis]⟩
  · refine ⟨fun _ => ?_, fun hinvisible => absurd hinvisible (by simp [hinvis])⟩
    simp only [if_neg hinvis]
    exact hwell.2 hinvis

theorem leaving_sublist (netid : Int) (players : List Player) :
    (leaving netid players).Sublist players := by
  induction players with
  | nil => exact List.Sublist.slnil
  | cons player later ih =>
      rw [leaving]
      by_cases hplayer : player.netid = netid
      · rw [if_pos hplayer]
        exact (Remove.survivors_sublist _ _ later).cons player
      · rw [if_neg hplayer]
        exact ih.cons_cons player

theorem movePlayer_names {netid : Int} {pos : UInt32 × UInt32} {players : List Player}
    {moved : Player} (hmoved : moved ∈ Events.In.movePlayer netid pos players) :
    ∃ player ∈ players, moved.name = player.name ∧ moved.invis = player.invis := by
  induction players with
  | nil => cases hmoved
  | cons player later ih =>
      rw [Events.In.movePlayer] at hmoved
      by_cases hplayer : player.netid = netid
      · rw [if_pos hplayer] at hmoved
        rcases List.mem_cons.mp hmoved with rfl | hin
        · exact ⟨player, List.mem_cons_self, rfl, rfl⟩
        · exact ⟨moved, List.mem_cons_of_mem _ hin, rfl, rfl⟩
      · rw [if_neg hplayer] at hmoved
        rcases List.mem_cons.mp hmoved with rfl | hin
        · exact ⟨_, List.mem_cons_self, rfl, rfl⟩
        · obtain ⟨found, hfound, hsame⟩ := ih hin
          exact ⟨found, List.mem_cons_of_mem _ hfound, hsame⟩

theorem namesKept_worldAfter {world : World} (hkept : NamesKept world) {event : Event}
    (hwell : WellFormed event) : NamesKept (worldAfter world event) := by
  have hempty (name : Bytes) (connected : Bool) :
      NamesKept { name := name, connected := connected } := ⟨nofun, .inl rfl⟩
  cases event with
  | spawn varlist =>
      have hnamed := named_describe hwell
      have hboth : ((Rtvar.parse (varlist 1).getString).find (ascii "netID")).isSome ∧
          ((Rtvar.parse (varlist 1).getString).find (ascii "onlineID")).isSome := by
        obtain ⟨netid, hnetid, -⟩ := hwell.1.netid
        exact ⟨by rw [hnetid]; rfl, hwell.1.online⟩
      rw [worldAfter]
      simp only [if_pos hboth]
      generalize Events.In.describe (Rtvar.parse (varlist 1).getString) = ply at hnamed ⊢
      refine ⟨fun player hplayer => ?_, ?_⟩
      · rcases List.mem_append.mp hplayer with hold | hnew
        · exact hkept.players player hold
        · rw [List.mem_singleton.mp hnew]
          exact hnamed
      · by_cases hlocal : contains (varlist 1).getString (ascii "type|local") = true
        · simp only [if_pos hlocal]
          cases hinvis : ply.invis with
          | true => exact .inl (hnamed.2 hinvis)
          | false => exact .inr (hnamed.1 hinvis)
        · simp only [if_neg hlocal]
          exact hkept.localPlayer
  | remove varlist =>
      rw [worldAfter]
      cases departing (varlist 1).getString with
      | none => exact hkept
      | some netid =>
          refine ⟨fun player hplayer => hkept.players player
            ((leaving_sublist netid world.players).subset hplayer), ?_⟩
          by_cases hlocal : netid = world.localPlayer.netid
          · simp only [if_pos hlocal]
            exact .inl trivial
          · simp only [if_neg hlocal]
            exact hkept.localPlayer
  | worldMenu => exact hempty _ _
  | mapData packet => exact hempty _ _
  | state packet =>
      rw [worldAfter]
      by_cases hstill : world.connected = false ∨ Packet.mPlayerFlags packet = -1
      · rw [if_pos hstill]
        exact hkept
      · rw [if_neg hstill]
        refine ⟨fun moved hmoved => ?_, hkept.localPlayer⟩
        obtain ⟨player, hplayer, hname, hinvis⟩ := movePlayer_names hmoved
        rw [Named, hname, hinvis]
        exact hkept.players player hplayer
  | disconnect reset => exact hempty _ _

/-! ## The states without a crash -/

/-- `/tp` and `worldoptions` return, whatever they are asked for. -/
def ConsumersReturn (state : ProxyState) : Prop :=
  (∀ argument, (tpCommand (ascii "/tp " ++ argument)).Returns state) ∧
    ∀ option ∈ verbs, (worldoptions option).Returns state

/-- No invisible moderator is in the roster, and unless everybody is called `all`, the
local player has a name. -/
def Strippable (world : World) : Prop :=
  (∀ player ∈ world.players, player.invis = false) ∧
    ((∃ player ∈ world.players, ¬ CalledAll player) → world.localPlayer.name ≠ [])

theorem consumersReturn_iff {state : ProxyState} (hkept : NamesKept state.server.mWorld) :
    ConsumersReturn state ↔ Strippable state.server.mWorld := by
  have hcolour (player : Player) (hplayer : player ∈ state.server.mWorld.players) :
      2 ≤ player.name.length ↔ player.invis = false := by
    obtain ⟨hvisible, hinvisible⟩ := hkept.players player hplayer
    refine ⟨fun hlong => ?_, hvisible⟩
    by_contra hhidden
    rw [hinvisible (by simpa using hhidden)] at hlong
    exact absurd hlong (by decide)
  have hown : 2 ≤ state.server.mWorld.localPlayer.name.length ↔
      state.server.mWorld.localPlayer.name ≠ [] := by
    refine ⟨fun hlong hempty => ?_, fun hname => hkept.localPlayer.resolve_left hname⟩
    rw [hempty] at hlong
    exact absurd hlong (by decide)
  constructor
  · rintro ⟨htp, hoptions⟩
    have hnames := (tpCommand_returns_iff state).mp htp
    refine ⟨fun player hplayer => (hcolour player hplayer).mp (hnames player hplayer), ?_⟩
    rintro ⟨player, hplayer, hcalled⟩
    have hpull := (worldoptions_returns_iff List.mem_cons_self state).mp
      (hoptions (ascii "pull") List.mem_cons_self) player hplayer
    exact hown.mp (hpull.2.resolve_left hcalled)
  · rintro ⟨hvisible, hlocal⟩
    have hnames (player : Player) (hplayer : player ∈ state.server.mWorld.players) :
        2 ≤ player.name.length := (hcolour player hplayer).mpr (hvisible player hplayer)
    refine ⟨(tpCommand_returns_iff state).mpr hnames, fun option hoption => ?_⟩
    refine (worldoptions_returns_iff hoption state).mpr fun player hplayer => ?_
    refine ⟨hnames player hplayer, ?_⟩
    by_cases hcalled : CalledAll player
    · exact .inl hcalled
    · exact .inr (hown.mpr (hlocal ⟨player, hplayer, hcalled⟩))

/-- Along a run of well-formed events, the consumers return in every state exactly if
every state is strippable. -/
theorem consumers_return_iff {events : List Event} (hwell : ∀ event ∈ events, WellFormed event)
    {start : ProxyState} (hstart : start.server.mWorld = {}) :
    EveryState step ConsumersReturn start events ↔
      EveryState step (fun state => Strippable state.server.mWorld) start events := by
  have hfirst : NamesKept start.server.mWorld := by
    rw [hstart]
    exact ⟨nofun, .inl rfl⟩
  have hstep (state : ProxyState) (event : Event) (next : ProxyState)
      (hkept : NamesKept state.server.mWorld) (hok : WellFormed event)
      (hnext : step state event = some next) : NamesKept next.server.mWorld := by
    rw [step_world hnext]
    exact namesKept_worldAfter hkept hok
  exact Runs.everyState_congr hstep (fun _ => consumersReturn_iff) events start hwell hfirst

instance (world : World) : Decidable (Strippable world) := by
  unfold Strippable
  infer_instance

/-- Two players with colours, of whom one is reported and the other leaves. -/
def colouredEvents : List Event :=
  [.mapData (zeros 80),
    .spawn (spawnCall "name|`wab``\nnetID|1\nuserID|7\nonlineID|\ninvis|0\nmstate|0\ntype|local"),
    .spawn (spawnCall "name|`6cd``\nnetID|2\nuserID|8\nonlineID|\ninvis|0"),
    .spawn (spawnCall "name|`wef``\nnetID|3\nuserID|9\nonlineID|\ninvis|0"),
    .state (Packet.setPlayerFlags (zeros 60) 2), .remove (removeCall "netID|3")]

/-- The consumers return in every state of this run. -/
theorem consumers_return_coloured :
    (∃ last, runSteps step {} colouredEvents = some last ∧
      last.server.mWorld.players.map Player.netid = [1, 2]) ∧
    EveryState step ConsumersReturn {} colouredEvents := by
  have hwell : ∀ event ∈ colouredEvents, WellFormed event := by
    unfold colouredEvents
    simp only [List.forall_mem_cons]
    exact ⟨trivial, ⟨by decide +kernel, by decide +kernel⟩, ⟨by decide +kernel, by decide +kernel⟩,
      ⟨by decide +kernel, by decide +kernel⟩, trivial, trivial, by simp⟩
  have hany : (runSteps step {} colouredEvents).any (fun last =>
      decide (last.server.mWorld.players.map Player.netid = [1, 2])) = true := by decide +kernel
  obtain ⟨last, hrun, hleft⟩ := (Option.any_eq_true _ _).mp hany
  exact ⟨⟨last, hrun, of_decide_eq_true hleft⟩,
    (consumers_return_iff hwell rfl).mpr (by decide +kernel)⟩

/-- After a moderator was announced as invisible, `/tp` throws. -/
theorem tp_throws_after_moderator :
    ∃ last, runSteps step {}
        [.spawn (spawnCall "name|`wab\nnetID|2\nuserID|8\nonlineID|\ninvis|1")] = some last ∧
      failureOf ((tpCommand (ascii "/tp x")).code.run last) = some .outOfRange := by
  have hany : ((runSteps step {}
      [.spawn (spawnCall "name|`wab\nnetID|2\nuserID|8\nonlineID|\ninvis|1")]).any fun last =>
      decide (failureOf ((tpCommand (ascii "/tp x")).code.run last) =
        some .outOfRange)) = true := by
    decide +kernel
  obtain ⟨last, hrun, hthrows⟩ := (Option.any_eq_true _ _).mp hany
  exact ⟨last, hrun, of_decide_eq_true hthrows⟩

end SrmotionProxy.Roster
