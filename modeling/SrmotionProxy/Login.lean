/-
# The login

A login text is taken apart, nine of its fields are given new values, and it is sent to
the server in place of the original. What is sent are the lines of the original with
these values, unless a line ends with a bar.
-/

import SrmotionProxy.Framing
import SrmotionProxy.Proton.RtvarLines
import SrmotionProxy.Sections

namespace SrmotionProxy.Events

open SrmotionProxy.Lib SrmotionProxy.ENet SrmotionProxy.Proton SrmotionProxy.Handler

/-! ## Drawing values -/

/-- The computation answers, and nothing but the number of questions asked changes. -/
def Draws {α : Type} (m : Handler α) : Prop :=
  ∀ state, ∃ value tick, m.code.run state = .ok value { state with tick := tick }

namespace Draws

variable {α β : Type}

theorem pure (value : α) : Draws (Pure.pure value : Handler α) :=
  fun state => ⟨value, state.tick, rfl⟩

theorem bind {first : Handler α} {next : α → Handler β} (hfirst : Draws first)
    (hnext : ∀ value, Draws (next value)) : Draws (first >>= next) := by
  intro state
  obtain ⟨value, tick, hrun⟩ := hfirst state
  obtain ⟨result, last, hrest⟩ := hnext value { state with tick := tick }
  exact ⟨result, last, (run_bind_ok state hrun).trans hrest⟩

theorem random (min max : Int) : Draws (Events.random min max) :=
  fun state => ⟨_, state.tick + 1, rfl⟩

theorem randomHex (count : Nat) : Draws (Events.randomHex count) := by
  induction count with
  | zero => exact pure _
  | succ count ih => exact bind (random 0 255) fun _ => bind ih fun _ => pure _

theorem generateRid : Draws Events.generateRid := bind (randomHex 16) fun _ => pure _

theorem generateMac : Draws Events.generateMac := bind (randomHex 5) fun _ => pure _

theorem randomInt : Draws Out.randomInt := bind (random _ _) fun _ => pure _

theorem getGt : Draws Handler.getGt := fun state => ⟨state.gt, state.tick, rfl⟩

end Draws

namespace Out

/-! ## The login section in two halves -/

/-- The fields that a login is given new values for, with these values. -/
def spoofed : Handler (List (Bytes × Bytes)) := do
  let mac ← generateMac
  let wk ← generateRid
  let rid ← generateRid
  let fz ← randomInt
  let zf ← randomInt
  let drawn ← randomInt
  let gt ← getGt
  let hash2 := hash (mac ++ ascii "RT") (mac ++ ascii "RT").length
  return [(ascii "mac", mac), (ascii "wk", wk), (ascii "rid", rid), (ascii "fz", fz),
    (ascii "zf", zf), (ascii "hash", drawn), (ascii "hash2", toDecimal hash2.toNat),
    (ascii "country", gt.flag), (ascii "player_age", ascii "20")]

/-- The end of the login section: the name is noted and the text sent. -/
def submit (var : Rtvar) : Handler Bool := do
  match var.find (ascii "tankIDName") with
  | none => pure ()
  | some pair =>
      let name ← lift (pair.valueAt 0)
      modifySettings fun out => { out with name := name }
  let env := (← getState).env
  modifyGt fun gt => { gt with inGame := false }
  sendServer (var.serialize env.eraseDropsLast)
  return true

theorem spoofed_draws : Draws spoofed :=
  .bind .generateMac fun _ => .bind .generateRid fun _ => .bind .generateRid fun _ =>
    .bind .randomInt fun _ => .bind .randomInt fun _ => .bind .randomInt fun _ =>
      .bind .getGt fun _ => .pure _

theorem loginText_code (packet : Bytes) :
    (loginText packet).code =
      (spoofed >>= fun values => submit ((Rtvar.parse packet).setAll values)).code := by
  unfold spoofed loginText
  simp only [Confined.code_bind, bind_assoc, Confined.code_pure, pure_bind]
  refine bind_congr fun mac => bind_congr fun wk => bind_congr fun rid => bind_congr fun fz => ?_
  refine bind_congr fun zf => bind_congr fun drawn => bind_congr fun gt => ?_
  simp only [Rtvar.setAll, List.foldl_cons, List.foldl_nil]
  generalize Rtvar.set _ (ascii "player_age") (ascii "20") = var
  unfold submit
  cases var.find (ascii "tankIDName") <;> rfl

/-! ### What is sent -/

section Submit

variable {state : ProxyState} {peer : Peer} {host : Host}

/-- A text goes to the server in a state whose trace and target are these. -/
def SentText (peer : Peer) (host : Host) (text : Bytes) (before after : ProxyState) : Prop :=
  ∃ code, after.trace = .hostFlush host ::
    .peerSend peer .built (textPacket text NET_MESSAGE_GENERIC_TEXT.toNat) code :: before.trace

/-- The name is there to be noted, unless its line has no value. -/
def Named (var : Rtvar) : Prop :=
  ∀ pair, var.find (ascii "tankIDName") = some pair → pair.mValues ≠ []

theorem submit_rest (htarget : state.target false = some (peer, host)) (var : Rtvar) :
    ∃ after, (show Handler Bool from do
      let env := (← getState).env
      modifyGt fun gt => { gt with inGame := false }
      sendServer (var.serialize env.eraseDropsLast)
      return true).code.run state = .ok true after ∧
        SentText peer host (var.serialize state.env.eraseDropsLast) state after := by
  have hleft : ({ state with gt := { state.gt with inGame := false } } : ProxyState).target false =
      some (peer, host) := htarget
  have hsent := sendText_run hleft (var.serialize state.env.eraseDropsLast)
    NET_MESSAGE_GENERIC_TEXT.toNat
  exact ⟨_, run_bind_ok _ hsent, _, rfl⟩

theorem submit_run (htarget : state.target false = some (peer, host)) {var : Rtvar}
    (hnamed : Named var) : ∃ after, (submit var).code.run state = .ok true after ∧
      SentText peer host (var.serialize state.env.eraseDropsLast) state after := by
  unfold submit
  cases hfind : var.find (ascii "tankIDName") with
  | none => exact submit_rest htarget var
  | some pair =>
      obtain ⟨name, rest, hvalues⟩ := List.exists_cons_of_ne_nil (hnamed pair hfind)
      have hname : pair.valueAt 0 = .ok name := by rw [Pair.valueAt, hvalues]; rfl
      have hnoted : ({ state with out := { state.out with name := name } } :
          ProxyState).target false = some (peer, host) := htarget
      simp only [hname]
      exact submit_rest hnoted var

theorem submit_named {var : Rtvar} {result : Bool} {after : ProxyState}
    (hrun : (submit var).code.run state = .ok result after) : Named var := by
  intro pair hfind hnone
  unfold submit at hrun
  rw [hfind] at hrun
  obtain ⟨name, middle, hname, -⟩ := Confined.bind_eq_ok hrun
  obtain ⟨hvalue, -⟩ := Confined.ofExcept_eq_ok hname
  rw [Pair.valueAt, hnone] at hvalue
  cases hvalue

/-- A trace says which text was sent last. -/
theorem SentText.text_unique {other : Peer} {owner : Host} {first second : Bytes}
    {before between after : ProxyState} (hfirst : SentText peer host first before after)
    (hsecond : SentText other owner second between after) : first = second := by
  obtain ⟨code, hcalls⟩ := hfirst
  obtain ⟨found, hothers⟩ := hsecond
  rw [hcalls, List.cons.injEq, List.cons.injEq, Call.peerSend.injEq, textPacket_eq,
    textPacket_eq] at hothers
  obtain ⟨-, ⟨-, -, hpacket, -⟩, -⟩ := hothers
  exact List.append_cancel_right (List.append_cancel_left hpacket)

end Submit

/-! ## Login texts -/

/-- A text with a game version that triggers nothing else. -/
structure IsLogin (state : ProxyState) (text : Bytes) : Prop where
  version : contains text (ascii "game_version|") = true
  loggedin : state.out.loggedin = 1
  sections : ∀ trigger ∈ formTriggers, contains text (ascii trigger) = false
  wrench : ¬ WrenchAction state.out text
  input : ¬ IsInput text

/-- The text is kept back, and the server gets its lines with the new values. -/
def OnlySpoofs (state : ProxyState) (lines : List Line) (ending : Bool) : Prop :=
  ∃ values drawn after peer host sent,
    spoofed.code.run state = .ok values drawn ∧
    (generictext (linesText lines ending)).code.run state = .ok true after ∧
    SentText peer host sent state after ∧
    SameText sent (Fields.texts (Fields.replaceAll (lines.map Line.fields) values))

section Lines

variable {lines : List Line} {ending : Bool}

theorem IsLogin.lines_ne_nil {state : ProxyState}
    (hlogin : IsLogin state (linesText lines ending)) : lines ≠ [] := by
  rintro rfl
  have hversion := hlogin.version
  cases ending <;> exact absurd hversion (by decide)

theorem IsLogin.generictext_run {state : ProxyState} {text : Bytes} (hlogin : IsLogin state text)
    (hvalid : (Rtvar.parse text).valid = true) :
    (generictext text).code.run state = (loginText text).code.run state := by
  rw [Out.generictext_run hvalid (runSections_idle sections_idle hlogin.sections state)
    hlogin.wrench hlogin.input, remainder, if_pos hlogin.version, if_pos hlogin.loggedin]

/-- Lines that do not end with a bar keep a value, whatever is set. -/
theorem values_ne_nil (hlines : lines ≠ []) (hwhole : ∀ line ∈ lines, ¬ line.Trails)
    (values : List (Bytes × Bytes)) :
    ∀ pair ∈ ((Rtvar.parse (linesText lines ending)).setAll values).mPairs, pair.mValues ≠ [] :=
  ((Holds.parse hlines ending).setAll values).values_ne_nil fun cut hcut => by
    obtain ⟨line, hline, rfl⟩ := List.mem_map.mp hcut
    exact decide_eq_false (hwhole line hline)

theorem valid_of_values {var : Rtvar} (hsome : var.mPairs ≠ [])
    (hvalues : ∀ pair ∈ var.mPairs, pair.mValues ≠ []) : var.valid = true := by
  obtain ⟨first, rest, hpairs⟩ := List.exists_cons_of_ne_nil hsome
  rw [Rtvar.valid, hpairs]
  exact decide_eq_true (List.length_pos_iff.mpr (hvalues first (by rw [hpairs]; simp)))

theorem IsLogin.submit_run {state : ProxyState} {values : List (Bytes × Bytes)} {tick : Nat}
    (hlogin : IsLogin state (linesText lines ending))
    (hdrawn : spoofed.code.run state = .ok values { state with tick := tick })
    (hvalid : (Rtvar.parse (linesText lines ending)).valid = true) :
    (generictext (linesText lines ending)).code.run state =
      (submit ((Rtvar.parse (linesText lines ending)).setAll values)).code.run
        { state with tick := tick } := by
  rw [hlogin.generictext_run hvalid, loginText_code]
  exact run_bind_ok state hdrawn

/-- What a login is replaced by says whether a line ended with a bar. -/
theorem whole_of_onlySpoofs {state : ProxyState} {peer : Peer} {host : Host}
    (htarget : state.target false = some (peer, host))
    (hlogin : IsLogin state (linesText lines ending)) (honly : OnlySpoofs state lines ending) :
    ∀ line ∈ lines, ¬ line.Trails := by
  obtain ⟨values, tick, hdrawn⟩ := spoofed_draws state
  obtain ⟨found, drawn, after, sentPeer, sentHost, sent, hfound, hrun, hsent, hsame⟩ := honly
  cases hdrawn.symm.trans hfound
  have hvalid : (Rtvar.parse (linesText lines ending)).valid = true := by
    by_contra hinvalid
    rw [generictext_invalid (by simpa using hinvalid)] at hrun
    cases hrun
  rw [hlogin.submit_run hdrawn hvalid] at hrun
  have hdrawnTarget : ({ state with tick := tick } : ProxyState).target false =
      some (peer, host) := htarget
  obtain ⟨last, hsubmit, hsubmitted⟩ := Out.submit_run hdrawnTarget (submit_named hrun)
  cases hrun.symm.trans hsubmit
  rw [hsent.text_unique hsubmitted] at hsame
  exact (setAll_sameText_iff hlogin.lines_ne_nil ending _ values).mp hsame

theorem onlySpoofs_of_whole {state : ProxyState} {peer : Peer} {host : Host}
    (htarget : state.target false = some (peer, host))
    (hlogin : IsLogin state (linesText lines ending)) (hwhole : ∀ line ∈ lines, ¬ line.Trails) :
    OnlySpoofs state lines ending := by
  have hlines := hlogin.lines_ne_nil
  obtain ⟨values, tick, hdrawn⟩ := spoofed_draws state
  have hvalues (changes : List (Bytes × Bytes)) :
      ∀ pair ∈ ((Rtvar.parse (linesText lines ending)).setAll changes).mPairs,
        pair.mValues ≠ [] := values_ne_nil hlines hwhole changes
  have hsome : (Rtvar.parse (linesText lines ending)).mPairs ≠ [] := by
    intro hnone
    have hlength := (Holds.parse hlines ending).length_eq
    rw [hnone, List.length_map, List.length_nil, eq_comm, List.length_eq_zero_iff] at hlength
    exact hlines hlength
  have hdrawnTarget : ({ state with tick := tick } : ProxyState).target false =
      some (peer, host) := htarget
  have hnamed : Named ((Rtvar.parse (linesText lines ending)).setAll values) :=
    fun pair hfind => hvalues values pair (List.mem_of_find?_eq_some hfind)
  obtain ⟨after, hsubmit, hsubmitted⟩ := Out.submit_run hdrawnTarget hnamed
  refine ⟨values, _, after, peer, host, _, hdrawn, ?_, hsubmitted,
    (setAll_sameText_iff hlines ending _ values).mpr hwhole⟩
  rw [hlogin.submit_run hdrawn (valid_of_values hsome (hvalues [])), hsubmit]

/-- A login is sent as it came but for the spoofed values exactly if none of its lines
ends with a bar. -/
theorem login_spoofed_iff {state : ProxyState} {peer : Peer} {host : Host}
    (htarget : state.target false = some (peer, host))
    (hlogin : IsLogin state (linesText lines ending)) :
    OnlySpoofs state lines ending ↔ ∀ line ∈ lines, ¬ line.Trails :=
  ⟨whole_of_onlySpoofs htarget hlogin, onlySpoofs_of_whole htarget hlogin⟩

end Lines

/-! ### Two logins -/

/-- A proxy that is connected to the server. -/
def towardsServer : ProxyState :=
  { server := { mRealServer := some 1, mServerPeer := some ⟨1, 0⟩ } }

def nameLine : Line where
  key := ascii "tankIDName"
  values := [ascii "a"]
  some := by decide
  free := by decide

def versionLine : Line where
  key := ascii "game_version"
  values := [ascii "4.61"]
  some := by decide
  free := by decide

/-- `requestedName|`, as clients send it. -/
def requestedLine : Line where
  key := ascii "requestedName"
  values := [[]]
  some := by decide
  free := by decide

/-- The hardware address of the client, which is spoofed. -/
def macLine : Line where
  key := ascii "mac"
  values := [ascii "02:00:00:00:00:00"]
  some := by decide
  free := by decide

theorem isLogin_sample {lines : List Line}
    (hlines : lines = [nameLine, macLine, versionLine] ∨
      lines = [nameLine, requestedLine, versionLine]) :
    IsLogin towardsServer (linesText lines false) := by
  have hwrench (text : Bytes) : ¬ WrenchAction towardsServer.out text := fun h => by cases h.1
  rcases hlines with rfl | rfl
  · exact ⟨by decide, rfl, by decide, hwrench _, not_isInput rfl (by decide)⟩
  · exact ⟨by decide, rfl, by decide, hwrench _, not_isInput rfl (by decide)⟩

/-- A login whose lines have values comes out whole, its address spoofed. -/
theorem login_spoofed_with_address :
    OnlySpoofs towardsServer [nameLine, macLine, versionLine] false := by
  refine (login_spoofed_iff rfl (isLogin_sample (.inl rfl))).mpr fun line hline => ?_
  simp only [List.mem_cons, List.not_mem_nil, or_false] at hline
  rcases hline with rfl | rfl | rfl <;> decide

/-- The bar of `requestedName|` is lost. -/
theorem login_loses_bar :
    ¬ OnlySpoofs towardsServer [nameLine, requestedLine, versionLine] false := by
  intro honly
  have hwhole := whole_of_onlySpoofs rfl (isLogin_sample (.inr rfl)) honly
  exact hwhole requestedLine (by simp) rfl

end Out

end SrmotionProxy.Events
