/-
# Spawn texts

`OnSpawn` follows the pointers that `rtvar::find` returns, checks some of them, and edits
the text before it is sent on. This module says which texts it turns away without harm,
and which ones come out as they should.
-/

import SrmotionProxy.Proton.RtvarPatch
import SrmotionProxy.Resend
import SrmotionProxy.Roster

namespace SrmotionProxy.Events.In

open SrmotionProxy.Lib SrmotionProxy.Proton SrmotionProxy.Handler SrmotionProxy.ENet

/-! ## Incomplete texts -/

/-- The field is missing or has no value. -/
def Lacks (var : Rtvar) (key : String) : Prop :=
  ∀ pair, var.find (ascii key) = some pair → pair.mValues = []

/-- One of the fields that the handler uses is lacking. -/
def Incomplete (text : Bytes) : Prop :=
  Lacks (Rtvar.parse text) "name" ∨ Lacks (Rtvar.parse text) "netID" ∨
    Lacks (Rtvar.parse text) "onlineID" ∨ Lacks (Rtvar.parse text) "userID" ∨
    Lacks (Rtvar.parse text) "invis" ∨
    (contains text (ascii "type|local") = true ∧ Lacks (Rtvar.parse text) "mstate")

/-- The handler returns and leaves the roster and the unlock list as they were. -/
def TurnsAway (varlist : VariantList) (state : ProxyState) : Prop :=
  ∃ verdict after, (onSpawn varlist).code.run state = .ok verdict after ∧
    after.server.mWorld.players = state.server.mWorld.players ∧
    after.server.mWorld.localPlayer = state.server.mWorld.localPlayer ∧
    after.out.unaccesspaketi = state.out.unaccesspaketi

/-- The line that a player is entered in the unlock list with. -/
def unaccessLine (userid : Pair) : Bytes := ascii "\ncheckbox_" ++ userid.mValue ++ ascii "|0"

/-- The unlock list has no use for the player: the name does not ask for it, or the player
is listed already. -/
def Noted (unaccesspaketi : Bytes) (name : Pair) (userid : Option Pair) : Prop :=
  contains name.mValue (ascii "`^") = true →
    ∃ pair, userid = some pair ∧ contains unaccesspaketi (unaccessLine pair) = true

/-- There is a name, the unlock list has no use for it, and one of the two fields that are
checked is missing. -/
def Rejectable (var : Rtvar) (unaccesspaketi : Bytes) : Prop :=
  (∃ name, var.find (ascii "name") = some name ∧
    Noted unaccesspaketi name (var.find (ascii "userID"))) ∧
    (var.find (ascii "netID") = none ∨ var.find (ascii "onlineID") = none)

section TurningAway

variable {state after : ProxyState} {name : Pair} {userid : Option Pair}

theorem deref_eq_ok {pair : Option Pair} {found : Pair} (hderef : deref pair = .ok found) :
    pair = some found := by
  cases pair with
  | none => cases hderef
  | some pair => cases hderef; rfl

/-- Nothing is noted. -/
theorem noteUnaccess_noted (hnoted : Noted state.out.unaccesspaketi name userid) :
    (noteUnaccess name userid).code.run state = .ok () state := by
  unfold noteUnaccess
  by_cases hlocked : contains name.mValue (ascii "`^") = true
  · obtain ⟨pair, rfl, hknown⟩ := hnoted hlocked
    have hline : contains state.out.unaccesspaketi
      (ascii "\ncheckbox_" ++ pair.mValue ++ ascii "|0") = true := hknown
    rw [if_pos hlocked]
    change (if contains state.out.unaccesspaketi
      (ascii "\ncheckbox_" ++ pair.mValue ++ ascii "|0") = true then _ else _ :
        Handler Unit).code.run state = _
    rw [if_pos hline]
    rfl
  · rw [if_neg hlocked]
    rfl

/-- An unlock list that is as before had no use for the player. -/
theorem noted_of_unchanged (hrun : (noteUnaccess name userid).code.run state = .ok () after)
    (hsame : after.out.unaccesspaketi = state.out.unaccesspaketi) :
    Noted state.out.unaccesspaketi name userid := by
  intro hlocked
  unfold noteUnaccess at hrun
  rw [if_pos hlocked] at hrun
  obtain ⟨pair, same, hlift, hrest⟩ := Confined.bind_eq_ok hrun
  obtain ⟨hderef, rfl⟩ := Confined.ofExcept_eq_ok hlift
  refine ⟨pair, deref_eq_ok hderef, ?_⟩
  obtain ⟨out, again, hout, hrest⟩ := Confined.bind_eq_ok hrest
  cases hout
  by_contra hknown
  have hline : ¬ contains same.out.unaccesspaketi
    (ascii "\ncheckbox_" ++ pair.mValue ++ ascii "|0") = true := hknown
  simp only [if_neg hline] at hrest
  cases hrest
  -- the line has been appended
  have hlength := congrArg List.length hsame
  simp only [List.length_append] at hlength
  have hcheckbox : (ascii "\ncheckbox_").length = 10 := by decide
  omega

/-- What is turned away without harm is rejectable. -/
theorem rejectable_of_turnsAway {varlist : VariantList} {state : ProxyState}
    (haway : TurnsAway varlist state) :
    Rejectable (Rtvar.parse (varlist 1).getString) state.out.unaccesspaketi := by
  obtain ⟨verdict, after, hrun, hplayers, -, hnotes⟩ := haway
  have hworld := Roster.onSpawn_world hrun
  unfold onSpawn at hrun
  obtain ⟨name, same, hlift, hrest⟩ := Confined.bind_eq_ok hrun
  obtain ⟨hderef, rfl⟩ := Confined.ofExcept_eq_ok hlift
  obtain ⟨_, noted, hnote, hrest⟩ := Confined.bind_eq_ok hrest
  have hmissing : (Rtvar.parse (varlist 1).getString).find (ascii "netID") = none ∨
      (Rtvar.parse (varlist 1).getString).find (ascii "onlineID") = none := by
    by_contra hpresent
    obtain ⟨hnetid, honline⟩ := not_or.mp hpresent
    -- the player has been appended to the roster
    rw [hworld, Roster.worldAfter, if_pos ⟨Option.ne_none_iff_isSome.mp hnetid,
      Option.ne_none_iff_isSome.mp honline⟩] at hplayers
    have hlength := congrArg List.length hplayers
    rw [List.length_append, List.length_singleton] at hlength
    omega
  have hnoted : after = noted := by
    rcases hmissing with hnone | hnone
    · rw [hnone] at hrest
      cases hrest
      rfl
    · cases hnetid : (Rtvar.parse (varlist 1).getString).find (ascii "netID") <;>
        rw [hnetid, hnone] at hrest <;> cases hrest <;> rfl
  subst hnoted
  exact ⟨⟨name, deref_eq_ok hderef, noted_of_unchanged hnote hnotes⟩, hmissing⟩

/-- A spawn text is turned away without harm exactly if it is rejectable. -/
theorem turnsAway_iff (varlist : VariantList) (state : ProxyState) :
    TurnsAway varlist state ↔
      Rejectable (Rtvar.parse (varlist 1).getString) state.out.unaccesspaketi := by
  refine ⟨rejectable_of_turnsAway, ?_⟩
  rintro ⟨⟨name, hname, hnoted⟩, hmissing⟩
  refine ⟨false, state, ?_, rfl, rfl, rfl⟩
  have hlift : (lift (deref ((Rtvar.parse (varlist 1).getString).find (ascii "name")))).code.run
      state = .ok name state := by
    rw [hname]
    rfl
  unfold onSpawn
  refine (run_bind_ok state hlift).trans ((run_bind_ok state (noteUnaccess_noted hnoted)).trans ?_)
  rcases hmissing with hnone | hnone
  · rw [hnone]
    rfl
  · rw [hnone]
    cases (Rtvar.parse (varlist 1).getString).find (ascii "netID") <;> rfl

end TurningAway

/-- A spawn text without a name. -/
def nameless : VariantList :=
  (VariantList.ofString (ascii "OnSpawn")).modify 1
    (Variant.setString (ascii "netID|1\nuserID|2\nonlineID|3\ninvis|0"))

/-- It is incomplete, and the absent name is looked at. -/
theorem nameless_not_turned_away :
    Incomplete (nameless 1).getString ∧ ¬ TurnsAway nameless {} := by
  have hnone : (Rtvar.parse (nameless 1).getString).find (ascii "name") = none := by decide
  refine ⟨.inl fun pair hpair => ?_, ?_⟩
  · rw [hnone] at hpair
    cases hpair
  · intro haway
    obtain ⟨⟨name, hname, -⟩, -⟩ := rejectable_of_turnsAway haway
    rw [hnone] at hname
    cases hname

/-! ## Rebuilt texts -/

/-- The name is extended: the option is on and the player does not hide. -/
def Renames (autohosts : Bool) (var : Rtvar) : Prop :=
  autohosts = true ∧ var.get (ascii "invis") ≠ ascii "1"

instance (autohosts : Bool) (var : Rtvar) : Decidable (Renames autohosts var) :=
  inferInstanceAs (Decidable (_ ∧ _))

/-- The suffix of an extended name. -/
def idText (var : Rtvar) : Bytes :=
  ascii " `4[" ++ var.get (ascii "netID") ++ ascii "]``" ++ ascii " `#[" ++
    var.get (ascii "userID") ++ ascii "]``"

/-- The text variables after the name is extended. -/
def named (autohosts : Bool) (var : Rtvar) : Rtvar :=
  if Renames autohosts var then var.updateValue (ascii "name") (· ++ idText var) else var

/-- The text variables as they are written back. -/
def respawn (autohosts : Bool) (text : Bytes) : Rtvar :=
  let var := Rtvar.parse text
  if contains text (ascii "type|local") then
    (named autohosts var).updateValue (ascii "mstate") fun _ => ascii "1"
  else named autohosts var

/-- The values that are edited exist. -/
def Editable (autohosts : Bool) (text : Bytes) : Prop :=
  (Renames autohosts (Rtvar.parse text) → ¬ Lacks (Rtvar.parse text) "name") ∧
    (contains text (ascii "type|local") = true → ¬ Lacks (Rtvar.parse text) "mstate")

/-- All the fields are there. -/
def Carries (var : Rtvar) : Prop :=
  ∀ key ∈ ["name", "netID", "userID", "onlineID", "invis", "mstate"],
    (var.find (ascii key)).isSome = true

section Rebuilding

variable {var : Rtvar} {key : Bytes} {update : Bytes → Bytes} {pair : Pair}

theorem updateFirst_of_find (hfind : var.find key = some pair) :
    updateFirst var key update =
      if pair.mValues = [] then .error .undefinedBehaviour
      else .ok (var.updateValue key update) := by
  obtain ⟨before, after, hpairs, hkey, hbefore⟩ := Rtvar.find_eq_some hfind
  unfold updateFirst
  rw [hfind]
  simp only [deref, except_ok_bind, Pair.setFirst]
  cases hvalues : pair.mValues with
  | nil => rfl
  | cons first rest =>
      rw [if_neg (List.cons_ne_nil first rest), Rtvar.updateValue, hpairs,
        Rtvar.modifyFirst_split hkey hbefore, except_ok_bind, Rtvar.modifyFirst_split hkey hbefore,
        Pair.updateHead, hvalues]
      rfl

/-- What is looked up after an update. -/
theorem find_updateValue (other : Bytes) :
    (var.updateValue key update).find other =
      if other = key then (var.find other).map (Pair.updateHead update) else var.find other := by
  obtain ⟨pairs⟩ := var
  unfold Rtvar.find Rtvar.updateValue
  induction pairs with
  | nil => simp [Rtvar.modifyFirst]
  | cons first pairs ih =>
      rw [Rtvar.modifyFirst]
      by_cases hkey : first.mKey = key
      · rw [if_pos hkey]
        by_cases hother : first.mKey = other
        · have hsame : other = key := hother.symm.trans hkey
          rw [List.find?_cons_of_pos (by simp [Pair.updateHead, hother]),
            List.find?_cons_of_pos (by simp [hother]), if_pos hsame]
          rfl
        · have hne : other ≠ key := fun hsame => hother (hkey.trans hsame.symm)
          rw [List.find?_cons_of_neg (by simp [Pair.updateHead, hother]),
            List.find?_cons_of_neg (by simp [hother]), if_neg hne]
      · rw [if_neg hkey]
        by_cases hother : first.mKey = other
        · have hne : other ≠ key := fun hsame => hkey (hother.trans hsame)
          rw [List.find?_cons_of_pos (by simp [hother]),
            List.find?_cons_of_pos (by simp [hother]), if_neg hne]
        · rw [List.find?_cons_of_neg (by simp [hother]),
            List.find?_cons_of_neg (by simp [hother])]
          exact ih

theorem sameValues_updateValue : (var.updateValue key update).SameValues var := by
  intro other
  rw [find_updateValue]
  by_cases hother : other = key
  · rw [if_pos hother, Option.map_map]
    rfl
  · rw [if_neg hother]

theorem getInt_of_find {edited : Rtvar} (hsame : edited.SameValues var)
    (hfind : var.find key = some pair) : edited.getInt key = .ok (atoi pair.mValue) := by
  rw [hsame.getInt, Rtvar.getInt, hfind]

/-- The player of a spawn text with all its fields, and the text with the name extended. -/
theorem spawnPlayer_eq {autohosts : Bool} {name netid userid invis : Pair}
    (hname : var.find (ascii "name") = some name) (hnetid : var.find (ascii "netID") = some netid)
    (huserid : var.find (ascii "userID") = some userid)
    (hinvis : var.find (ascii "invis") = some invis) :
    spawnPlayer autohosts var name netid (some userid) =
      if Renames autohosts var ∧ name.mValues = [] then .error .undefinedBehaviour
      else .ok (describe var, named autohosts var) := by
  have hinvisText : var.get (ascii "invis") = invis.mValue := by rw [Rtvar.get, hinvis]
  have hsuffix : idText var = idSuffix netid userid := by
    rw [idText, idSuffix, Rtvar.get, Rtvar.get, hnetid, huserid]
  have hdescribed {edited : Rtvar} (hex : ∃ ply, spawnPlayer autohosts var name netid
      (some userid) = .ok (ply, edited)) :
      spawnPlayer autohosts var name netid (some userid) = .ok (describe var, edited) := by
    obtain ⟨ply, hrun⟩ := hex
    rw [hrun, (spawnPlayer_eq_ok hname hrun).1]
  by_cases hrenames : Renames autohosts var
  · rw [named, if_pos hrenames]
    obtain ⟨rfl, hvisible⟩ := id hrenames
    rw [hinvisText] at hvisible
    by_cases hvalues : name.mValues = []
    · rw [if_pos ⟨hrenames, hvalues⟩]
      unfold spawnPlayer
      rw [hinvis]
      simp only [deref, except_ok_bind, if_pos hvisible, if_true]
      rw [updateFirst_of_find hname, if_pos hvalues]
      rfl
    · rw [if_neg fun hboth => hvalues hboth.2, hsuffix]
      have hsame := @sameValues_updateValue var (ascii "name") (· ++ idSuffix netid userid)
      apply hdescribed
      unfold spawnPlayer
      rw [hinvis]
      simp only [deref, except_ok_bind, if_pos hvisible, if_true]
      rw [updateFirst_of_find hname, if_neg hvalues]
      simp only [except_ok_bind, pure_bind, getInt_of_find hsame huserid,
        getInt_of_find hsame hnetid]
      exact ⟨_, rfl⟩
  · rw [named, if_neg hrenames, if_neg fun hboth => hrenames hboth.1]
    have hsame : var.SameValues var := fun _ => rfl
    apply hdescribed
    unfold spawnPlayer
    rw [hinvis]
    simp only [deref, except_ok_bind]
    by_cases hvisible : invis.mValue ≠ ascii "1"
    · have hoff : autohosts = false := by
        rw [Renames, hinvisText] at hrenames
        simpa [hvisible] using hrenames
      subst hoff
      simp only [if_pos hvisible, Bool.false_eq_true, if_false, pure_bind,
        getInt_of_find hsame huserid, getInt_of_find hsame hnetid, except_ok_bind]
      exact ⟨_, rfl⟩
    · simp only [if_neg hvisible, pure_bind, getInt_of_find hsame huserid,
        getInt_of_find hsame hnetid, except_ok_bind]
      exact ⟨_, rfl⟩

/-- The unlock list may grow. -/
theorem noteUnaccess_run (name userid : Pair) (state : ProxyState) :
    ∃ notes, (noteUnaccess name (some userid)).code.run state =
      .ok () { state with out := { state.out with unaccesspaketi := notes } } := by
  by_cases hnoted : Noted state.out.unaccesspaketi name (some userid)
  · exact ⟨_, noteUnaccess_noted hnoted⟩
  · rw [Noted, Classical.not_imp] at hnoted
    obtain ⟨hlocked, hunknown⟩ := hnoted
    have hline : ¬ contains state.out.unaccesspaketi
        (ascii "\ncheckbox_" ++ userid.mValue ++ ascii "|0") = true :=
      fun hknown => hunknown ⟨userid, rfl, hknown⟩
    refine ⟨state.out.unaccesspaketi ++ (ascii "\ncheckbox_" ++ userid.mValue ++ ascii "|0"), ?_⟩
    unfold noteUnaccess
    rw [if_pos hlocked]
    change (if contains state.out.unaccesspaketi
      (ascii "\ncheckbox_" ++ userid.mValue ++ ascii "|0") = true then _ else _ :
        Handler Unit).code.run state = _
    rw [if_neg hline]
    rfl

/-- The text with a bar put behind the first `onlineID`. -/
def sentText (dropsLast : Bool) (var : Rtvar) : Bytes :=
  replace (var.serialize dropsLast) (ascii "onlineID") (ascii "onlineID|")

/-- The end of the handler: the text is sent. -/
def sendRebuilt (varlist : VariantList) (text : Bytes) : Handler Bool := do
  sendVariant true (varlist.modify 1 (Variant.setString text)) (-1) (-1)
  return true

end Rebuilding

section Running

variable {varlist : VariantList} {state : ProxyState} {peer : Peer} {host : Host}

theorem Carries.find {var : Rtvar} (hcarries : Carries var) {key : String}
    (hkey : key ∈ ["name", "netID", "userID", "onlineID", "invis", "mstate"]) :
    ∃ pair, var.find (ascii key) = some pair :=
  Option.isSome_iff_exists.mp (hcarries key hkey)

theorem not_lacks_iff {var : Rtvar} {key : String} {pair : Pair}
    (hfind : var.find (ascii key) = some pair) : ¬ Lacks var key ↔ pair.mValues ≠ [] := by
  rw [Lacks, hfind]
  simp

/-- `OnSpawn` from the choice of the local player on. -/
def enter (varlist : VariantList) (ply : Player) (edited : Rtvar) : Handler Bool := do
  let isLocal := contains (varlist 1).getString (ascii "type|local")
  let var ← lift (if isLocal then updateFirst edited (ascii "mstate") (fun _ => ascii "1")
    else .ok edited)
  if isLocal then
    modifyWorld fun world => { world with localPlayer := ply }
  modifyWorld fun world => { world with players := world.players ++ [ply] }
  let env := (← getState).env
  sendRebuilt varlist (sentText env.eraseDropsLast var)

theorem enter_run {ply : Player} {edited var : Rtvar}
    (hupdate : (if contains (varlist 1).getString (ascii "type|local") then
      updateFirst edited (ascii "mstate") (fun _ => ascii "1") else .ok edited) = .ok var) :
    ∃ middle : ProxyState, middle.target true = state.target true ∧
      (enter varlist ply edited).code.run state =
        (sendRebuilt varlist (sentText state.env.eraseDropsLast var)).code.run middle := by
  have hlift : (lift (if contains (varlist 1).getString (ascii "type|local") then
      updateFirst edited (ascii "mstate") (fun _ => ascii "1") else .ok edited)).code.run state =
      .ok var state := by
    rw [hupdate]
    rfl
  unfold enter
  refine ⟨{ state with server := { state.server with mWorld := { state.server.mWorld with
    localPlayer := if contains (varlist 1).getString (ascii "type|local") then ply
      else state.server.mWorld.localPlayer
    players := state.server.mWorld.players ++ [ply] } } }, rfl, (run_bind_ok state hlift).trans ?_⟩
  by_cases hlocal : contains (varlist 1).getString (ascii "type|local") = true
  · simp only [if_pos hlocal]
    rfl
  · simp only [if_neg hlocal]
    rfl

theorem find_named {autohosts : Bool} {var : Rtvar} {key : Bytes} (hkey : key ≠ ascii "name") :
    (named autohosts var).find key = var.find key := by
  unfold named
  by_cases hrenames : Renames autohosts var
  · rw [if_pos hrenames, find_updateValue, if_neg hkey]
  · rw [if_neg hrenames]

/-- The two edits succeed on editable texts, and only there. -/
theorem edits_eq {text : Bytes} {autohosts : Bool} {mstate : Pair}
    (hmstate : (Rtvar.parse text).find (ascii "mstate") = some mstate) :
    (if contains text (ascii "type|local") then
      updateFirst (named autohosts (Rtvar.parse text)) (ascii "mstate") (fun _ => ascii "1")
      else .ok (named autohosts (Rtvar.parse text))) =
      if contains text (ascii "type|local") = true ∧ mstate.mValues = [] then
        .error .undefinedBehaviour
      else .ok (respawn autohosts text) := by
  have hfind := (@find_named autohosts (Rtvar.parse text) (ascii "mstate")
    (by decide)).trans hmstate
  rw [updateFirst_of_find hfind, respawn]
  by_cases hlocal : contains text (ascii "type|local") = true
  · simp only [hlocal, true_and]
    rfl
  · simp [hlocal]

/-- `OnSpawn` once the player is described. -/
def announce (varlist : VariantList) (ply : Player) (edited : Rtvar) : Handler Bool := do
  if ply.invis then
    sendLog (ascii "Moderator entered the world. 1/2")
  enter varlist ply edited

theorem announce_run (htarget : state.target true = some (peer, host)) {ply : Player}
    {edited var : Rtvar}
    (hupdate : (if contains (varlist 1).getString (ascii "type|local") then
      updateFirst edited (ascii "mstate") (fun _ => ascii "1") else .ok edited) = .ok var) :
    ∃ middle : ProxyState, middle.target true = some (peer, host) ∧
      (announce varlist ply edited).code.run state =
        (sendRebuilt varlist (sentText state.env.eraseDropsLast var)).code.run middle := by
  unfold announce
  by_cases hhidden : ply.invis = true
  · obtain ⟨middle, hmiddle, henter⟩ := @enter_run varlist (state.sendAndFlush .built peer host
      (textPacket (ascii "action|log\nmsg|" ++ ascii "Moderator entered the world. 1/2")
        NET_MESSAGE_GAME_MESSAGE.toNat)) ply edited var hupdate
    refine ⟨middle, hmiddle.trans htarget, ?_⟩
    simp only [if_pos hhidden]
    exact (run_bind_ok state (Handler.sendText_run htarget _ _)).trans henter
  · obtain ⟨middle, hmiddle, henter⟩ := @enter_run varlist state ply edited var hupdate
    refine ⟨middle, hmiddle.trans htarget, ?_⟩
    simp only [if_neg hhidden]
    exact henter

theorem announce_stuck (htarget : state.target true = some (peer, host)) {ply : Player}
    {edited : Rtvar} {failure : Abort}
    (hupdate : (if contains (varlist 1).getString (ascii "type|local") then
      updateFirst edited (ascii "mstate") (fun _ => ascii "1") else .ok edited) = .error failure) :
    ∃ last, (announce varlist ply edited).code.run state = .error failure last := by
  have hstuck (start : ProxyState) : (enter varlist ply edited).code.run start =
      .error failure start := by
    apply run_bind_error start
    rw [hupdate]
    rfl
  unfold announce
  by_cases hhidden : ply.invis = true
  · simp only [if_pos hhidden]
    exact ⟨_, (run_bind_ok state (Handler.sendText_run htarget _ _)).trans (hstuck _)⟩
  · simp only [if_neg hhidden]
    exact ⟨state, hstuck state⟩

/-- What the handler does with a text that has all its fields. -/
theorem onSpawn_described {name netid userid online : Pair}
    (hname : (Rtvar.parse (varlist 1).getString).find (ascii "name") = some name)
    (hnetid : (Rtvar.parse (varlist 1).getString).find (ascii "netID") = some netid)
    (huserid : (Rtvar.parse (varlist 1).getString).find (ascii "userID") = some userid)
    (honline : (Rtvar.parse (varlist 1).getString).find (ascii "onlineID") = some online) :
    ∃ noted : ProxyState, noted.target true = state.target true ∧ noted.env = state.env ∧
      (onSpawn varlist).code.run state =
        (lift (spawnPlayer state.out.autohosts (Rtvar.parse (varlist 1).getString) name netid
          (some userid)) >>= fun described =>
            announce varlist described.1 described.2).code.run noted := by
  obtain ⟨notes, hnote⟩ := noteUnaccess_run name userid state
  have hfound : (lift (deref ((Rtvar.parse (varlist 1).getString).find (ascii "name")))).code.run
      state = .ok name state := by
    rw [hname]
    rfl
  unfold onSpawn
  refine ⟨{ state with out := { state.out with unaccesspaketi := notes } }, rfl, rfl,
    (run_bind_ok state hfound).trans ?_⟩
  rw [huserid]
  refine (run_bind_ok state hnote).trans ?_
  rw [hnetid, honline]
  rfl

/-- A spawn text whose edited values exist is sent on, and no other. -/
theorem onSpawn_run (htarget : state.target true = some (peer, host))
    (hcarries : Carries (Rtvar.parse (varlist 1).getString)) :
    (¬ Editable state.out.autohosts (varlist 1).getString →
      ∃ last, (onSpawn varlist).code.run state = .error .undefinedBehaviour last) ∧
    (Editable state.out.autohosts (varlist 1).getString →
      ∃ middle : ProxyState, middle.target true = some (peer, host) ∧
        (onSpawn varlist).code.run state =
          (sendRebuilt varlist (sentText state.env.eraseDropsLast
            (respawn state.out.autohosts (varlist 1).getString))).code.run middle) := by
  obtain ⟨name, hname⟩ := hcarries.find (by decide : "name" ∈ _)
  obtain ⟨netid, hnetid⟩ := hcarries.find (by decide : "netID" ∈ _)
  obtain ⟨userid, huserid⟩ := hcarries.find (by decide : "userID" ∈ _)
  obtain ⟨online, honline⟩ := hcarries.find (by decide : "onlineID" ∈ _)
  obtain ⟨invis, hinvis⟩ := hcarries.find (by decide : "invis" ∈ _)
  obtain ⟨mstate, hmstate⟩ := hcarries.find (by decide : "mstate" ∈ _)
  obtain ⟨noted, hnoted, henv, hrun⟩ := @onSpawn_described _ state _ _ _ _ hname hnetid huserid
    honline
  have hspawn := @spawnPlayer_eq _ state.out.autohosts _ _ _ _ hname hnetid huserid hinvis
  have hupdate := @edits_eq (varlist 1).getString state.out.autohosts _ hmstate
  rw [htarget] at hnoted
  rw [Editable, not_lacks_iff hname, not_lacks_iff hmstate, hrun]
  by_cases hrenames : Renames state.out.autohosts (Rtvar.parse (varlist 1).getString) ∧
      name.mValues = []
  · rw [if_pos hrenames] at hspawn
    rw [hspawn]
    exact ⟨fun _ => ⟨noted, run_bind_error noted rfl⟩, fun h => absurd hrenames.2 (h.1 hrenames.1)⟩
  · rw [if_neg hrenames] at hspawn
    rw [hspawn]
    by_cases hlocal : contains (varlist 1).getString (ascii "type|local") = true ∧
        mstate.mValues = []
    · rw [if_pos hlocal] at hupdate
      obtain ⟨last, hlast⟩ := announce_stuck hnoted hupdate
      exact ⟨fun _ => ⟨last, hlast⟩, fun h => absurd hlocal.2 (h.2 hlocal.1)⟩
    · rw [if_neg hlocal] at hupdate
      obtain ⟨middle, hmiddle, hannounce⟩ := announce_run hnoted hupdate
      rw [henv] at hannounce
      refine ⟨fun h => absurd ⟨?_, ?_⟩ h, fun _ => ⟨middle, hmiddle, hannounce⟩⟩
      · exact fun hname hvalues => hrenames ⟨hname, hvalues⟩
      · exact fun hfound hvalues => hlocal ⟨hfound, hvalues⟩

end Running

/-! ### The texts -/

/-- The lines as they should come out. -/
def respawned (autohosts : Bool) (text : Bytes) (lines : List Fields) : List Fields :=
  let var := Rtvar.parse text
  let renamed := if Renames autohosts var then
    Fields.updateValue (ascii "name") (· ++ idText var) lines else lines
  if contains text (ascii "type|local") then
    Fields.updateValue (ascii "mstate") (fun _ => ascii "1") renamed
  else renamed

section Texts

variable {lines : List Line} {ending autohosts : Bool}

theorem idText_ne_nil (var : Rtvar) : idText var ≠ [] := by
  rw [idText]
  simp only [List.append_assoc]
  exact List.append_ne_nil_of_left_ne_nil (by decide) _

/-- The text variables hold the lines as they should come out. -/
theorem respawn_holds (hlines : lines ≠ [])
    (heditable : Editable autohosts (linesText lines ending))
    (hcarries : Carries (Rtvar.parse (linesText lines ending))) :
    Proton.Holds ((respawned autohosts (linesText lines ending) (lines.map Line.fields)).map
        fun line => decide line.Trails)
      (respawned autohosts (linesText lines ending) (lines.map Line.fields))
      (respawn autohosts (linesText lines ending)).mPairs := by
  have hparsed := Proton.Holds.parse_fields hlines ending
  obtain ⟨hrenames, hlocal⟩ := heditable
  obtain ⟨name, hname⟩ := hcarries.find (by decide : "name" ∈ _)
  obtain ⟨mstate, hmstate⟩ := hcarries.find (by decide : "mstate" ∈ _)
  rw [not_lacks_iff hname] at hrenames
  rw [not_lacks_iff hmstate] at hlocal
  have hfind := (@find_named autohosts (Rtvar.parse (linesText lines ending)) (ascii "mstate")
    (by decide)).trans hmstate
  -- the name first, then the moderator state
  have hnamed : Proton.Holds ((if Renames autohosts (Rtvar.parse (linesText lines ending)) then
      Fields.updateValue (ascii "name") (· ++ idText (Rtvar.parse (linesText lines ending)))
        (lines.map Line.fields) else lines.map Line.fields).map fun line => decide line.Trails)
      (if Renames autohosts (Rtvar.parse (linesText lines ending)) then
        Fields.updateValue (ascii "name") (· ++ idText (Rtvar.parse (linesText lines ending)))
        (lines.map Line.fields) else lines.map Line.fields)
      (named autohosts (Rtvar.parse (linesText lines ending))).mPairs := by
    unfold named
    by_cases hrename : Renames autohosts (Rtvar.parse (linesText lines ending))
    · rw [if_pos hrename, if_pos hrename]
      refine hparsed.updateValue (fun value => ?_) fun pair hpair => ?_
      · exact List.append_ne_nil_of_right_ne_nil _ (idText_ne_nil _)
      · rw [hname] at hpair
        cases hpair
        exact hrenames hrename
    · rw [if_neg hrename, if_neg hrename]
      exact hparsed
  unfold respawned respawn
  by_cases htype : contains (linesText lines ending) (ascii "type|local") = true
  · simp only [if_pos htype]
    refine hnamed.updateValue (fun _ => by decide) fun pair hpair => ?_
    rw [hfind] at hpair
    cases hpair
    exact hlocal htype
  · simp only [if_neg htype]
    exact hnamed

/-- Serializing gives what is kept of the lines, with or without a final newline. -/
theorem serialize_of_holds {var : Rtvar} {fields : List Fields} (dropsLast : Bool)
    (hholds : Proton.Holds (fields.map fun line => decide line.Trails) fields var.mPairs) :
    ∃ last, (last = [] ∨ last = [newline]) ∧
      var.serialize dropsLast = [newline].intercalate (fields.map Fields.kept) ++ last := by
  rw [Rtvar.serialize_eq, hholds.map_serialize]
  by_cases hsome : fields.map Fields.kept = []
  · rw [hsome]
    exact ⟨[], .inl rfl, by cases dropsLast <;> rfl⟩
  · cases dropsLast with
    | true => exact ⟨[], .inl rfl, by rw [if_pos rfl, List.append_nil]⟩
    | false =>
        refine ⟨[newline], .inr rfl, ?_⟩
        rw [if_neg Bool.false_ne_true, ← Seq.intercalate_append_separator hsome]

/-- The text that is sent has the lines exactly if the bar restores them. -/
theorem sentText_iff {var : Rtvar} {fields : List Fields} (dropsLast : Bool)
    (hholds : Proton.Holds (fields.map fun line => decide line.Trails) fields var.mPairs)
    (hkey : ascii "onlineID" ∈ fields.map Prod.fst) :
    SameText (sentText dropsLast var) (Fields.texts fields) ↔
      Restores (ascii "onlineID") fields := by
  obtain ⟨last, hlast, hserialize⟩ := serialize_of_holds dropsLast hholds
  have hfound : (Seq.find (ascii "onlineID")
      ([newline].intercalate (fields.map Fields.kept) ++ last)).isSome = true := by
    rw [Seq.find_isSome_iff]
    obtain ⟨line, hline, hfst⟩ := List.mem_map.mp hkey
    obtain ⟨front, back, rfl⟩ := List.append_of_mem hline
    rw [List.map_append, List.map_cons, Seq.intercalate_split, Fields.kept, hfst, joined_cons]
    simp only [List.append_assoc]
    exact List.infix_append' _ _ _
  obtain ⟨position, hposition⟩ := Option.isSome_iff_exists.mp hfound
  have hmark : newline ∉ ascii "onlineID" := by decide
  have hbar : ascii "onlineID|" = ascii "onlineID" ++ [bar] := by decide
  rw [← patch_iff_restores hlast hmark hposition, sentText, replace, replaceFirst, hserialize,
    hposition]
  obtain ⟨lead, rest, hsplit, hlead⟩ := Seq.find_eq_some_split hposition
  have htake : ([newline].intercalate (fields.map Fields.kept) ++ last).take
      (position + (ascii "onlineID").length) =
        ([newline].intercalate (fields.map Fields.kept) ++ last).take position ++
          ascii "onlineID" := by
    rw [hsplit, List.take_left' hlead, ← List.append_assoc]
    exact List.take_left' (by rw [List.length_append, hlead])
  rw [htake]
  simp only [hbar, List.append_assoc, List.singleton_append]

theorem length_idText (var : Rtvar) :
    (idText var).length = 14 + (var.get (ascii "netID")).length +
      (var.get (ascii "userID")).length := by
  have hopen : (ascii " `4[").length = 4 := by decide
  have hclose : (ascii "]``").length = 3 := by decide
  have hnext : (ascii " `#[").length = 4 := by decide
  rw [idText]
  simp only [List.length_append, hopen, hclose, hnext]
  omega

theorem length_respawned_le (hlines : lines ≠ []) :
    (Fields.texts (respawned autohosts (linesText lines ending)
      (lines.map Line.fields))).length ≤
        3 * (Fields.texts (lines.map Line.fields)).length + 15 := by
  have hparsed := Proton.Holds.parse_fields hlines ending
  have hnetid := hparsed.length_get_le (Rtvar.parse_inStep _) (ascii "netID")
  have huserid := hparsed.length_get_le (Rtvar.parse_inStep _) (ascii "userID")
  have hsuffix := length_idText (Rtvar.parse (linesText lines ending))
  have hname := @Fields.length_texts_updateValue_le
    (· ++ idText (Rtvar.parse (linesText lines ending))) _
    (fun value => (List.length_append).le) (ascii "name") (lines.map Line.fields)
  have hone (fields : List Fields) := @Fields.length_texts_updateValue_le (fun _ => ascii "1") 1
    (fun value => (Nat.le_add_left _ _ : (ascii "1").length ≤ _)) (ascii "mstate") fields
  unfold respawned
  by_cases hrename : Renames autohosts (Rtvar.parse (linesText lines ending)) <;>
    by_cases hlocal : contains (linesText lines ending) (ascii "type|local") = true
  · simp only [if_pos hrename, if_pos hlocal]
    refine (hone _).trans ?_
    omega
  · simp only [if_pos hrename, if_neg hlocal]
    omega
  · simp only [if_neg hrename, if_pos hlocal]
    refine (hone _).trans ?_
    omega
  · simp only [if_neg hrename, if_neg hlocal]
    omega

/-- The rebuilt text is at most about three times as long as the text received. -/
theorem length_sentText_le (hlines : lines ≠ []) (dropsLast : Bool)
    (heditable : Editable autohosts (linesText lines ending))
    (hcarries : Carries (Rtvar.parse (linesText lines ending))) :
    (sentText dropsLast (respawn autohosts (linesText lines ending))).length ≤
      3 * (linesText lines ending).length + 17 := by
  have hholds := respawn_holds hlines heditable hcarries
  obtain ⟨last, hlast, hserialize⟩ := serialize_of_holds dropsLast hholds
  have hlastLength : last.length ≤ 1 := by rcases hlast with rfl | rfl <;> decide
  have htext : (Fields.texts (lines.map Line.fields)).length ≤ (linesText lines ending).length := by
    rw [linesText, List.length_append]
    exact Nat.le_add_right _ _
  have hkept := Fields.length_kept_texts_le
    (respawned autohosts (linesText lines ending) (lines.map Line.fields))
  have hrespawned := @length_respawned_le lines ending autohosts hlines
  have hmark : (ascii "onlineID").length = 8 := by decide
  have hbar : (ascii "onlineID|").length = 9 := by decide
  rw [sentText, replace, replaceFirst, hserialize]
  cases hfind : Seq.find (ascii "onlineID") ([newline].intercalate
      ((respawned autohosts (linesText lines ending) (lines.map Line.fields)).map Fields.kept) ++
        last) with
  | none =>
      simp only [List.length_append]
      omega
  | some position =>
      obtain ⟨lead, rest, hsplit, hlead⟩ := Seq.find_eq_some_split hfind
      have hlength := congrArg List.length hsplit
      simp only [List.length_append, List.length_take, List.length_drop, hmark, hbar] at hlength ⊢
      omega

end Texts

section Sending

variable {lines : List Line} {ending : Bool} {varlist : VariantList} {state : ProxyState}
  {peer : Peer} {host : Host}

/-- The last thing sent is the spawn text with the lines as they should come out. -/
def Rebuilt (varlist : VariantList) (state : ProxyState) (peer : Peer) (host : Host)
    (lines : List Fields) : Prop :=
  ∃ after packet code earlier received text,
    (onSpawn varlist).code.run state = .ok true after ∧
    after.trace = .hostFlush host :: .peerSend peer .built packet code :: earlier ∧
    decodeCall packet = .ok received ∧ (received 1).value = .string text ∧
    SameText text (Fields.texts lines)

/-- The six fields are among the lines. -/
def CarriedBy (lines : List Line) : Prop :=
  ∀ key ∈ ["name", "netID", "userID", "onlineID", "invis", "mstate"],
    ascii key ∈ (lines.map Line.fields).map Prod.fst

instance (lines : List Line) : Decidable (CarriedBy lines) := by
  unfold CarriedBy
  infer_instance

theorem CarriedBy.ne_nil (hcarried : CarriedBy lines) : lines ≠ [] := by
  rintro rfl
  cases hcarried "name" (by decide)

theorem CarriedBy.carries (hcarried : CarriedBy lines) (ending : Bool) :
    Carries (Rtvar.parse (linesText lines ending)) :=
  fun key hkey => (Proton.Holds.parse_fields hcarried.ne_nil ending).find_isSome (hcarried key hkey)

theorem map_key_respawned (autohosts : Bool) (text : Bytes) (fields : List Fields) :
    (respawned autohosts text fields).map Prod.fst = fields.map Prod.fst := by
  unfold respawned
  by_cases hrename : Renames autohosts (Rtvar.parse text) <;>
    by_cases hlocal : contains text (ascii "type|local") = true
  · simp only [if_pos hrename, if_pos hlocal, Fields.map_key_updateValue]
  · simp only [if_pos hrename, if_neg hlocal, Fields.map_key_updateValue]
  · simp only [if_neg hrename, if_pos hlocal, Fields.map_key_updateValue]
  · simp only [if_neg hrename, if_neg hlocal]

/-- What is sent of a text whose edited values exist. -/
theorem rebuilt_iff_sameText (htarget : state.target true = some (peer, host))
    (hsendable : varlist.Sendable)
    (hstrings : ∀ slot, (varlist slot).mString.length ≤ maximumPacketSize)
    (htext : (varlist 1).getString = linesText lines ending) (hcarried : CarriedBy lines)
    (heditable : Editable state.out.autohosts (linesText lines ending)) (fields : List Fields) :
    Rebuilt varlist state peer host fields ↔
      SameText (sentText state.env.eraseDropsLast
        (respawn state.out.autohosts (linesText lines ending))) (Fields.texts fields) := by
  have hcarries := hcarried.carries ending
  have hlength := length_sentText_le hcarried.ne_nil state.env.eraseDropsLast heditable hcarries
  have hline := hstrings 1
  rw [Variant.getString] at htext
  rw [htext] at hline
  obtain ⟨-, hrun⟩ := @onSpawn_run varlist state peer host htarget (by
    rw [Variant.getString, htext]
    exact hcarries)
  rw [Variant.getString, htext] at hrun
  obtain ⟨middle, hmiddle, hrun⟩ := hrun heditable
  generalize sentText state.env.eraseDropsLast
    (respawn state.out.autohosts (linesText lines ending)) = text at hlength hrun ⊢
  have hshort : text.length ≤ 32 * maximumPacketSize := by
    unfold maximumPacketSize at hline ⊢
    omega
  obtain ⟨packet, received, hpacket, -, -, -, -, -, hdecode, hvalues⟩ :=
    @withText_decodes _ hsendable hstrings _ hshort (-1) (-1) (by decide) (by decide)
  have hslot := (withText_values hvalues).1
  have hsent : (onSpawn varlist).code.run state =
      .ok true (middle.sendAndFlush .built peer host packet) :=
    hrun.trans (run_bind_ok middle (sendVariant_run hmiddle hpacket))
  constructor
  · rintro ⟨after, other, code, earlier, found, shown, hother, htrace, hfound, hshown, hsame⟩
    cases hsent.symm.trans hother
    rw [ProxyState.sendAndFlush] at htrace
    cases htrace
    cases hdecode.symm.trans hfound
    rw [hslot] at hshown
    cases hshown
    exact hsame
  · intro hsame
    exact ⟨_, packet, _, _, received, text, hsent, rfl, hdecode, hslot, hsame⟩

/-- Nothing is sent of a text in which an edited value is missing. -/
theorem editable_of_rebuilt (htarget : state.target true = some (peer, host))
    (htext : (varlist 1).getString = linesText lines ending) (hcarried : CarriedBy lines)
    {fields : List Fields} (hrebuilt : Rebuilt varlist state peer host fields) :
    Editable state.out.autohosts (linesText lines ending) := by
  obtain ⟨after, -, -, -, -, -, hrun, -⟩ := hrebuilt
  by_contra hstuck
  have hcarries := hcarried.carries ending
  rw [← htext] at hcarries hstuck
  obtain ⟨last, hlast⟩ := (onSpawn_run htarget hcarries).1 hstuck
  rw [hlast] at hrun
  cases hrun

/-- The spawn text comes out right exactly if the values to be edited exist and the bar put
behind the first `onlineID` restores the lines. -/
theorem rebuilt_iff_restores (htarget : state.target true = some (peer, host))
    (hsendable : varlist.Sendable)
    (hstrings : ∀ slot, (varlist slot).mString.length ≤ maximumPacketSize)
    (htext : (varlist 1).getString = linesText lines ending) (hcarried : CarriedBy lines) :
    Rebuilt varlist state peer host (respawned state.out.autohosts (linesText lines ending)
        (lines.map Line.fields)) ↔
      Editable state.out.autohosts (linesText lines ending) ∧
        Restores (ascii "onlineID") (respawned state.out.autohosts (linesText lines ending)
          (lines.map Line.fields)) := by
  have hcarries := hcarried.carries ending
  have hkey : ascii "onlineID" ∈ (respawned state.out.autohosts (linesText lines ending)
      (lines.map Line.fields)).map Prod.fst := by
    rw [map_key_respawned]
    exact hcarried "onlineID" (by decide)
  constructor
  · intro hrebuilt
    have heditable := editable_of_rebuilt htarget htext hcarried hrebuilt
    rw [rebuilt_iff_sameText htarget hsendable hstrings htext hcarried heditable,
      sentText_iff _ (respawn_holds hcarried.ne_nil heditable hcarries) hkey] at hrebuilt
    exact ⟨heditable, hrebuilt⟩
  · rintro ⟨heditable, hrestores⟩
    rw [rebuilt_iff_sameText htarget hsendable hstrings htext hcarried heditable,
      sentText_iff _ (respawn_holds hcarried.ne_nil heditable hcarries) hkey]
    exact hrestores

end Sending

/-- A line with one value. -/
def simpleLine (key value : String)
    (hfree : ∀ field ∈ [ascii key, ascii value], bar ∉ field ∧ newline ∉ field) : Line where
  key := ascii key
  values := [ascii value]
  some := List.cons_ne_nil _ _
  free := hfree

/-- The lines of a spawn text, with a country that may be empty. -/
def spawnLines (country : String)
    (hfree : ∀ field ∈ [ascii "country", ascii country], bar ∉ field ∧ newline ∉ field) :
    List Line :=
  [simpleLine "netID" "3" (by decide), simpleLine "userID" "7" (by decide),
    simpleLine "name" "Ann" (by decide), simpleLine "country" country hfree,
    simpleLine "invis" "0" (by decide), simpleLine "mstate" "0" (by decide),
    simpleLine "onlineID" "" (by decide)]

/-- An `OnSpawn` call with these lines. -/
def spawnList (lines : List Line) : VariantList :=
  (VariantList.ofString (ascii "OnSpawn")).modify 1 (Variant.setString (linesText lines true))

/-- A proxy with a client. -/
def clientState (autohosts : Bool) : ProxyState :=
  { server := { mGtPeer := some ⟨0, 3⟩, mProxyServer := some 0 }
    out := { autohosts := autohosts } }

/-- With a country the text comes out right, the id in the name. -/
theorem rebuilt_sample :
    Rebuilt (spawnList (spawnLines "us" (by decide))) (clientState true) ⟨0, 3⟩ 0
      (respawned true (linesText (spawnLines "us" (by decide)) true)
        ((spawnLines "us" (by decide)).map Line.fields)) := by
  have hname : ∃ pair, (Rtvar.parse (linesText (spawnLines "us" (by decide)) true)).find
      (ascii "name") = some pair ∧ pair.mValues ≠ [] := by
    refine ⟨{ mKey := ascii "name", mValues := [ascii "Ann"], mValue := ascii "Ann" }, ?_, ?_⟩
    · decide +kernel
    · decide
  obtain ⟨pair, hfind, hvalues⟩ := hname
  have hlocal : contains (linesText (spawnLines "us" (by decide)) true) (ascii "type|local") ≠
      true := by decide +kernel
  refine (@rebuilt_iff_restores (spawnLines "us" (by decide)) true
    (spawnList (spawnLines "us" (by decide))) (clientState true) ⟨0, 3⟩ 0 rfl (by decide)
    (by decide +kernel) rfl (by decide)).mpr ⟨⟨fun _ => (not_lacks_iff hfind).mpr hvalues,
      fun hfound => absurd hfound hlocal⟩, ?_⟩
  refine ⟨(respawned true (linesText (spawnLines "us" (by decide)) true)
    ((spawnLines "us" (by decide)).map Line.fields)).take 6, (ascii "onlineID", [[]]), [], [], [],
    ?_, ?_, ?_, ?_, ?_, ?_⟩ <;> decide +kernel

/-- An empty country loses its bar. -/
theorem emptyCountry_not_rebuilt :
    CarriedBy (spawnLines "" (by decide)) ∧
      ¬ Rebuilt (spawnList (spawnLines "" (by decide))) (clientState false) ⟨0, 3⟩ 0
        (respawned false (linesText (spawnLines "" (by decide)) true)
          ((spawnLines "" (by decide)).map Line.fields)) := by
  have hlocal : contains (linesText (spawnLines "" (by decide)) true) (ascii "type|local") ≠
      true := by decide +kernel
  have heditable : Editable false (linesText (spawnLines "" (by decide)) true) :=
    ⟨fun hrenames => absurd hrenames.1 (by decide), fun hfound => absurd hfound hlocal⟩
  refine ⟨by decide, ?_⟩
  rw [@rebuilt_iff_sameText (spawnLines "" (by decide)) true
    (spawnList (spawnLines "" (by decide))) (clientState false) ⟨0, 3⟩ 0 rfl (by decide)
    (by decide +kernel) rfl (by decide) heditable]
  unfold SameText
  decide +kernel

end SrmotionProxy.Events.In
