/-
# Calls that are sent on

A handler that swallows a function call sends the client another one in its place. This
module follows the calls that go out: at most one for each call that comes in, with one
slot rewritten, and under an addressing of the proxy's own.
-/

import SrmotionProxy.Calls
import SrmotionProxy.DialogRequest
import SrmotionProxy.Proton.RtvarSize
import SrmotionProxy.Spawn

namespace SrmotionProxy

open SrmotionProxy.Lib SrmotionProxy.ENet SrmotionProxy.Proton SrmotionProxy.Events.In

/-! ## At most one call -/

/-- All calls count. -/
def anyCall (_ : VariantList) : Bool := true

/-- No call has been sent, or one to the client. -/
def Once (sends : Bytes → Prop) (state after : ProxyState) : Prop :=
  callView anyCall after = callView anyCall state ∨
    ∃ peer host data, state.target true = some (peer, host) ∧
      sentCalls anyCall after.trace = (peer, data) :: sentCalls anyCall state.trace ∧ sends data

/-- The computation sends at most one call, and none if its value passes the packet on. -/
def Relays {α : Type} (sends : Bytes → Prop) (passes : α → Prop) (m : Handler α) : Prop :=
  ∀ state value after, m.code.run state = .ok value after → Once sends state after ∧
    (passes value → callView anyCall after = callView anyCall state)

theorem Once.after {sends : Bytes → Prop} {state middle after : ProxyState}
    (hquiet : callView anyCall middle = callView anyCall state) (honce : Once sends middle after) :
    Once sends state after := by
  obtain ⟨htarget, hcalls⟩ := Prod.mk.injEq .. ▸ hquiet
  rcases honce with hsame | ⟨peer, host, data, hclient, hsent, hsends⟩
  · exact .inl (hsame.trans hquiet)
  · exact .inr ⟨peer, host, data, htarget ▸ hclient, hcalls ▸ hsent, hsends⟩

namespace Relays

variable {α β : Type} {sends : Bytes → Prop} {passes : α → Prop}

theorem of_quiet {m : Handler α} (hquiet : Quiet anyCall m) : Relays sends passes m :=
  fun state value after hrun =>
    ⟨.inl (hquiet state value after hrun), fun _ => hquiet state value after hrun⟩

theorem after {first : Handler β} {next : β → Handler α} (hfirst : Quiet anyCall first)
    (hnext : ∀ value, Relays sends passes (next value)) :
    Relays sends passes (first >>= next) := by
  intro state result after hrun
  obtain ⟨value, middle, hvalue, hrest⟩ := Confined.bind_eq_ok hrun
  obtain ⟨honce, hpasses⟩ := hnext value _ _ _ hrest
  exact ⟨.after (hfirst _ _ _ hvalue) honce,
    fun hpass => (hpasses hpass).trans (hfirst _ _ _ hvalue)⟩

/-- What follows a lifted value may rely on it. -/
theorem lift_bind {computed : Except Abort β} {next : β → Handler α}
    (hnext : ∀ value, computed = .ok value → Relays sends passes (next value)) :
    Relays sends passes (Handler.lift computed >>= next) := by
  intro state result after hrun
  obtain ⟨value, middle, hvalue, hrest⟩ := Confined.bind_eq_ok hrun
  obtain ⟨hcomputed, rfl⟩ := Confined.ofExcept_eq_ok hvalue
  exact hnext value hcomputed _ _ _ hrest

theorem ite {condition : Prop} [Decidable condition] {first second : Handler α}
    (hfirst : Relays sends passes first) (hsecond : Relays sends passes second) :
    Relays sends passes (if condition then first else second) := by
  by_cases hcondition : condition
  · rwa [if_pos hcondition]
  · rwa [if_neg hcondition]

/-- A list that is sent in place of the packet. -/
theorem sendVariant {list : VariantList} {netid delay : Int} {packet : Bytes}
    (hpacket : callFunctionPacket list netid delay = .ok packet)
    (hcall : IsCall packet list netid delay) (hsends : sends packet) {value : α}
    (hdecides : ¬ passes value) : Relays sends passes (do
      Handler.sendVariant true list netid delay
      return value) := by
  intro state result after hrun
  obtain ⟨_, sent, hsend, hreturn⟩ := Confined.bind_eq_ok hrun
  cases hreturn
  refine ⟨?_, fun hpasses => absurd hpasses hdecides⟩
  rcases Handler.sendVariant_eq_ok hsend with ⟨-, rfl⟩ | ⟨peer, host, built, htarget, hbuilt, rfl⟩
  · exact .inl rfl
  · cases hpacket.symm.trans hbuilt
    obtain ⟨struct, decoded, hdecoded, -⟩ := hcall
    exact .inr ⟨peer, host, packet, htarget, sentCalls_of_some hdecoded rfl, hsends⟩

/-- Sections that each relay at most one call relay at most one between them. -/
theorem firstDecision {sections : List Section}
    (hsections : ∀ part ∈ sections, Relays sends (· = none) part) :
    Relays sends (fun _ => False) (Events.In.firstDecision sections) := by
  induction sections with
  | nil => exact .of_quiet (.pure false)
  | cons part sections ih =>
      intro state verdict after hrun
      obtain ⟨decision, middle, hpart, hrest⟩ := Confined.bind_eq_ok hrun
      obtain ⟨honce, hpasses⟩ := hsections part List.mem_cons_self _ _ _ hpart
      refine ⟨?_, False.elim⟩
      cases decision with
      | some decided =>
          cases hrest
          exact honce
      | none =>
          exact .after (hpasses rfl) (ih (fun later hlater =>
            hsections later (List.mem_cons_of_mem part hlater)) _ _ _ hrest).1

end Relays

/-! ## What is sent in place of a call -/

/-- The slot announces a wheel spin of the player, who wants to see another number. -/
def Spun (out : Settings) (list : VariantList) (slot : Fin 7) : Prop :=
  out.visualspin = true ∧
    (contains (list slot).getString (spunTheWheel "w" out.name) = true ∨
      contains (list slot).getString (spunTheWheel "2" out.name) = true)

/-- The wheel spins among the calls. -/
def Relayed.Spins (out : Settings) (list : VariantList) : Relayed → Prop
  | .onConsoleMessage => Spun out list 1
  | .onTalkBubble => Spun out list 2
  | .onDialogRequest => False
  | .onSpawn => False

/-- The lists that are sent in place of a list, wheel spins aside, and their delays. -/
inductive Rewrites (out : Settings) (list : VariantList) : Relayed → VariantList → Int → Prop
  | prefixed : Rewrites out list .onConsoleMessage
      (list.modify 1 (Variant.setString (out.packets ++ (list 1).getString))) 0
  | unchanged : Rewrites out list .onTalkBubble list 0
  | gazette : Rewrites out list .onDialogRequest (list.modify 1 (Variant.setString gazette)) 0
  | taxed (count : Int) : Rewrites out list .onDialogRequest
      (list.modify 1 (Variant.setString (lockPage count))) 0
  | extended (position : Nat) (buttons : Bytes) : Rewrites out list .onDialogRequest
      (list.modify 1 (Variant.setString ((list 1).getString.take position ++ buttons ++
        (list 1).getString.drop position))) (-1)
  | described (text : Bytes) : Rewrites out list .onSpawn
      (list.modify 1 (Variant.setString text)) (-1)

/-- Only slot 1 is rewritten. -/
theorem Rewrites.other_slots {out : Settings} {list rewritten : VariantList} {call : Relayed}
    {delay : Int} (hrewrites : Rewrites out list call rewritten delay) :
    ∀ slot, slot ≠ 1 → rewritten slot = list slot := by
  intro slot hslot
  cases hrewrites with
  | unchanged => rfl
  | prefixed | gazette | taxed | extended | described => exact VariantList.modify_of_ne _ _ hslot

/-- The packet is a call with one of these lists, under the addressing of the proxy. Outside
slot 1 it has the values of the list. -/
def Readdressed (call : Relayed) (out : Settings) (list : VariantList) (data : Bytes) : Prop :=
  ∃ rewritten delay, Rewrites out list call rewritten delay ∧
    IsCall data rewritten (-1) delay ∧ ∀ slot, slot ≠ 1 → rewritten slot = list slot

section Relaying

variable {list : VariantList} {out : Settings}

/-- A received list is sent with another text in slot 1. -/
theorem Relays.withText {α : Type} {passes : α → Prop} {call : Relayed}
    (hlist : Bounded maximumPacketSize list) {text : Bytes}
    (htext : text.length ≤ 32 * maximumPacketSize) {delay : Int}
    (hdelay : intMin ≤ delay ∧ delay ≤ intMax)
    (hrewrites : Rewrites out list call (list.modify 1 (Variant.setString text)) delay)
    {value : α} (hdecides : ¬ passes value) : Relays (Readdressed call out list) passes (do
      Handler.sendVariant true (list.modify 1 (Variant.setString text)) (-1) delay
      return value) := by
  obtain ⟨packet, hpacket, hcall⟩ := @withText_isCall list (-1) delay hlist text htext
    (by decide) hdelay
  exact .sendVariant hpacket hcall ⟨_, delay, hrewrites, hcall, hrewrites.other_slots⟩ hdecides

/-! ### Messages -/

/-- A console message goes on behind the prefix of the proxy. -/
theorem onConsoleMessage_once {state after : ProxyState} {verdict : Bool}
    (hlist : Bounded maximumPacketSize list)
    (hpackets : state.out.packets.length ≤ maximumPacketSize) (hspins : ¬ Spun state.out list 1)
    (hrun : (onConsoleMessage list).code.run state = .ok verdict after) :
    Once (Readdressed .onConsoleMessage state.out list) state after := by
  have htext : (state.out.packets ++ (list 1).getString).length ≤ 32 * maximumPacketSize := by
    have hslot := hlist.2 1
    rw [List.length_append, Variant.getString]
    omega
  -- the settings that the prefix is read from are those at the start
  have hshow (middle : ProxyState) (hout : middle.out = state.out) (value : Bool)
      (last : ProxyState) (hshown : (showPrefixed list).code.run middle = .ok value last) :
      Once (Readdressed .onConsoleMessage state.out list) middle last := by
    unfold showPrefixed at hshown
    rw [getSettings_bind, hout] at hshown
    exact (@Relays.withText list state.out Bool (fun _ => False) .onConsoleMessage hlist _ htext 0
      (by decide) .prefixed true id middle value last hshown).1
  have hrest (middle : ProxyState) (hout : middle.out = state.out)
      (hquiet : callView anyCall middle = callView anyCall state)
      (hend : (if state.out.visualspin = true then
        if contains (list 1).getString (spunTheWheel "w" state.out.name) = true then
          showSpin list 1 "w"
        else if contains (list 1).getString (spunTheWheel "2" state.out.name) = true then
          showSpin list 1 "2"
        else showPrefixed list
      else showPrefixed list : Handler Bool).code.run middle = .ok verdict after) :
      Once (Readdressed .onConsoleMessage state.out list) state after := by
    refine .after hquiet (hshow middle hout verdict after ?_)
    by_cases hvisual : state.out.visualspin = true
    · rwa [if_pos hvisual, if_neg fun hwhite => hspins ⟨hvisual, .inl hwhite⟩,
        if_neg fun hgreen => hspins ⟨hvisual, .inr hgreen⟩] at hend
    · rwa [if_neg hvisual] at hend
  unfold onConsoleMessage at hrun
  dsimp only at hrun
  rw [getSettings_bind] at hrun
  by_cases hleaves : (state.out.worldbanjoinmod &&
      contains (list 1).getString (ascii "Removed your access from all locks.")) = true
  · rw [if_pos hleaves] at hrun
    obtain ⟨_, logged, hlog, hnext⟩ := Confined.bind_eq_ok hrun
    obtain ⟨_, left, hjoin, hend⟩ := Confined.bind_eq_ok hnext
    have hlogged : callView anyCall logged = callView anyCall state :=
      Quiet.sendLog _ _ _ _ hlog
    have hleft : callView anyCall left = callView anyCall logged :=
      Quiet.sendText false _ (by decide : 3 ≤ 255) (by decide) _ _ _ hjoin
    exact hrest left ((Handler.sendText_out hjoin).trans (Handler.sendText_out hlog))
      (hleft.trans hlogged) hend
  · rw [if_neg hleaves] at hrun
    exact hrest state rfl rfl hrun

/-- A talk bubble goes on as it came. -/
theorem onTalkBubble_once {state after : ProxyState} (hlist : Bounded maximumPacketSize list)
    (hspins : ¬ Spun state.out list 2)
    (hrun : (onTalkBubble list).code.run state = .ok true after) :
    Once (Readdressed .onTalkBubble state.out list) state after := by
  have hfits := length_encoding_le hlist.2
  unfold maximumPacketSize at hfits
  obtain ⟨packet, hpacket, hcall⟩ := @callFunctionPacket_isCall list (-1) 0 hlist.1 (by omega)
    (by decide) (by decide)
  unfold onTalkBubble at hrun
  dsimp only at hrun
  rw [getSettings_bind] at hrun
  by_cases hvisual : state.out.visualspin = true
  · rw [if_pos hvisual, if_neg fun hwhite => hspins ⟨hvisual, .inl hwhite⟩,
      if_neg fun hgreen => hspins ⟨hvisual, .inr hgreen⟩] at hrun
    cases hrun
  · rw [if_neg hvisual] at hrun
    exact (@Relays.sendVariant Bool _ (fun _ => False) list (-1) 0 packet hpacket hcall
      ⟨list, 0, .unchanged, hcall, fun _ _ => rfl⟩ true id state true after hrun).1

/-! ### Dialogs -/

section Sections

variable {content : Bytes}

theorem quiet_resolveUid : Quiet anyCall (resolveUid content) := by
  refine .bind (.lift _) fun _ => .bind (.lift _) fun _ => .ite ?_ ?_
  · exact .bind (.modifyGt _) fun _ => .sendLog _
  · exact .bind (.sendLog _) fun _ => .bind (.sendLog _) fun _ => .bind (.lift _) fun _ =>
      .bind (.modifySettings _) fun _ => .bind (.sendServer _) fun _ => .sendServer _

theorem quiet_resolvingSection : Quiet anyCall (resolvingSection content) := by
  refine .bind .getGt fun _ => .bind .getSettings fun _ => .ite (.pure _) (.ite (.ite ?_ ?_) ?_)
  · exact .bind (.sendServer _) fun _ => .pure _
  · exact .pure _
  · refine .ite (.bind (.modifyGt _) fun _ => .pure _) (.ite ?_ (.pure _))
    exact .bind quiet_resolveUid fun _ => .pure _

theorem quiet_wltrollSection : Quiet anyCall (wltrollSection content) :=
  .bind .getSettings fun _ => .ite (.bind (.lift _) fun _ => .bind (.lift _) fun _ =>
    .bind (.sendServer _) fun _ => .pure _) (.pure _)

theorem quiet_worldLockSection : Quiet anyCall (worldLockSection content) :=
  .ite (.bind (.sendLog _) fun _ => .bind (.lift _) fun _ => .bind (.modifySettings _) fun _ =>
    .bind (.lift _) fun _ => .bind (.modifySettings _) fun _ => .pure _) (.pure _)

theorem quiet_dicemodSection : Quiet anyCall (dicemodSection content) := by
  have hreply (x y : Int) (label value : String) : Quiet anyCall (diceReply x y label value) :=
    .bind (.sendLog _) fun _ => .bind (.sendServer _) fun _ => .pure _
  exact .bind .getSettings fun _ => .ite (.bind (.lift _) fun _ => .bind (.lift _) fun _ =>
    .ite (hreply _ _ _ _) (hreply _ _ _ _)) (.pure _)

theorem quiet_captchaSection : Quiet anyCall (captchaSection content) :=
  .ite (.bind (.bind (.lift _) fun _ => .bind (.lift _) fun _ => .bind (.sendLog _) fun _ =>
    .sendServer _) fun _ => .pure _) (.pure _)

theorem quiet_fastdropSection : Quiet anyCall (fastdropSection content) :=
  .bind .getSettings fun _ => .ite (.bind (.lift _) fun _ => .bind (.lift _) fun _ =>
    .ite (.bind (.sendServer _) fun _ => .pure _) (.pure _)) (.pure _)

theorem quiet_fastmmodeSection : Quiet anyCall (fastmmodeSection content) :=
  .bind .getSettings fun _ => .ite (.bind (.lift _) fun _ => .bind (.lift _) fun _ =>
    .ite (.pure _) (.pure _)) (.pure _)

theorem quiet_fasttrashSection : Quiet anyCall (fasttrashSection content) :=
  .bind .getSettings fun _ => .ite (.bind (.lift _) fun _ => .bind (.lift _) fun _ =>
    .bind (.lift _) fun _ => .ite (.bind (.sendServer _) fun _ => .pure _) (.pure _)) (.pure _)

/-! The three sections that send dialogs. -/

variable (out)

theorem gazetteSection_relays (hlist : Bounded maximumPacketSize list) :
    Relays (Readdressed .onDialogRequest out list) (· = none) (gazetteSection list content) :=
  .ite (.withText hlist length_gazette_le (by decide) .gazette (by simp)) (.of_quiet (.pure _))

theorem taxSection_relays (hlist : Bounded maximumPacketSize list) :
    Relays (Readdressed .onDialogRequest out list) (· = none) (taxSection list content) := by
  have hpage (count yuzde : Int) := lockPage_length_le (taxedCount_range count yuzde)
  refine .after .getSettings fun settings => .ite (.after (.lift _) fun itemid => .ite ?_ ?_) ?_
  · refine .after (.lift _) fun text => .after (.lift _) fun count => .ite ?_ ?_
    · exact .of_quiet (.bind (.sendServer _) fun _ => .pure _)
    · exact .withText hlist (hpage count settings.yuzde) (by decide) (.taxed _) (by simp)
  · exact .of_quiet (.pure _)
  · exact .of_quiet (.pure _)

theorem insertButtons_relays (hlist : Bounded maximumPacketSize list) (mark : Bytes)
    {buttons : Bytes} (hbuttons : buttons.length ≤ maximumPacketSize) :
    Relays (Readdressed .onDialogRequest out list) (· = none)
      (insertButtons list (list 1).getString mark buttons) := by
  have htext : ((list 1).getString.take (findPos (list 1).getString mark) ++ buttons ++
      (list 1).getString.drop (findPos (list 1).getString mark)).length ≤
        32 * maximumPacketSize := by
    have hslot := hlist.2 1
    rw [← Variant.getString] at hslot
    simp only [List.length_append, List.length_take, List.length_drop]
    omega
  exact .withText hlist htext (by decide) (.extended _ _) (by simp)

theorem wrenchSection_relays (hlist : Bounded maximumPacketSize list) :
    Relays (Readdressed .onDialogRequest out list) (· = none)
      (wrenchSection list (list 1).getString) := by
  have hbuttons {literals : List String} (hshort : Short 200 literals)
      (hfew : literals.length ≤ 100) : (Events.texts literals).length ≤ maximumPacketSize :=
    hshort.length_texts_le.trans (by unfold maximumPacketSize; omega)
  refine .after .getSettings fun settings => .ite ?_ (.ite ?_ (.ite ?_ (.of_quiet (.pure _))))
  · exact .of_quiet (.bind (.lift _) fun _ => .ite (.pure _) (.pure _))
  · exact insertButtons_relays out hlist _
      (hbuttons (.cons (by decide) (.cons (by decide) .nil)) (by decide))
  · exact insertButtons_relays out hlist _
      (hbuttons (.cons (by decide) (.cons (by decide) (.cons (by decide) .nil))) (by decide))

/-- A dialog is replaced by at most one dialog. -/
theorem onDialogRequest_relays (hlist : Bounded maximumPacketSize list) :
    Relays (Readdressed .onDialogRequest out list) (fun _ => False) (onDialogRequest list) := by
  refine .firstDecision ?_
  simp only [List.forall_mem_cons, List.not_mem_nil, false_imp_iff, implies_true, and_true]
  exact ⟨.of_quiet quiet_resolvingSection, .of_quiet quiet_wltrollSection,
    .of_quiet quiet_worldLockSection, .of_quiet quiet_dicemodSection,
    .of_quiet quiet_captchaSection, gazetteSection_relays out hlist, taxSection_relays out hlist,
    .of_quiet quiet_fastdropSection, .of_quiet quiet_fastmmodeSection,
    .of_quiet quiet_fasttrashSection, wrenchSection_relays out hlist⟩

end Sections

/-! ### Spawns -/

/-- How an update of a first value makes the text longer. -/
theorem updateFirst_extent {var after : Rtvar} {key : Bytes} {update : Bytes → Bytes} {bound : Nat}
    (hgrows : ∀ value, (update value).length ≤ value.length + bound)
    (hupdate : updateFirst var key update = .ok after) : after.extent ≤ var.extent + bound := by
  cases hfind : var.find key with
  | none =>
      unfold updateFirst at hupdate
      rw [hfind] at hupdate
      cases hupdate
  | some pair =>
      rw [updateFirst_of_find hfind] at hupdate
      by_cases hvalues : pair.mValues = []
      · rw [if_pos hvalues] at hupdate
        cases hupdate
      · rw [if_neg hvalues] at hupdate
        cases hupdate
        exact Rtvar.extent_updateValue_le hgrows var key

/-- The text comes back as it was, or with the numbers behind the name. -/
theorem spawnPlayer_edited {autohosts : Bool} {var edited : Rtvar} {name netid : Pair}
    {userid : Option Pair} {ply : Player}
    (hrun : spawnPlayer autohosts var name netid userid = .ok (ply, edited)) :
    edited = var ∨ ∃ user, userid = some user ∧
      updateFirst var (ascii "name") (· ++ idSuffix netid user) = .ok edited := by
  unfold spawnPlayer at hrun
  obtain ⟨invis, -, hrest⟩ := except_bind_eq_ok hrun
  have hfinish (start : Player) (found : Rtvar) (hend : (do
      let moderator := found.get (ascii "mstate") = ascii "1" ∨
        found.get (ascii "smstate") = ascii "1"
      let start := if moderator then { start with mod := true } else start
      let userid ← found.getInt (ascii "userID")
      let netid ← found.getInt (ascii "netID")
      return ({ start with userid := userid, netid := netid }, found)) =
        (.ok (ply, edited) : Except Abort (Player × Rtvar))) : edited = found := by
    obtain ⟨_, -, hnext⟩ := except_bind_eq_ok hend
    obtain ⟨_, -, hlast⟩ := except_bind_eq_ok hnext
    cases hlast
    rfl
  by_cases hvisible : invis.mValue ≠ ascii "1"
  · rw [if_pos hvisible] at hrest
    cases autohosts with
    | false => exact .inl (hfinish (visiblePlayer var name) var hrest)
    | true =>
        obtain ⟨user, huser, hnamed⟩ := except_bind_eq_ok hrest
        obtain ⟨found, hfound, hend⟩ := except_bind_eq_ok hnamed
        rw [hfinish (visiblePlayer var name) found hend]
        cases userid with
        | none => cases huser
        | some pair =>
            cases huser
            exact .inr ⟨user, rfl, hfound⟩
  · rw [if_neg hvisible] at hrest
    exact .inl (hfinish _ var hrest)

theorem length_idSuffix_le {netid userid : Pair} {bound : Nat}
    (hnetid : netid.mValue.length ≤ bound) (huserid : userid.mValue.length ≤ bound) :
    (idSuffix netid userid).length ≤ 2 * bound + 20 := by
  have hopen : (ascii " `4[").length = 4 := by decide
  have hnext : (ascii " `#[").length = 4 := by decide
  have hclose : (ascii "]``").length = 3 := by decide
  rw [idSuffix]
  simp only [List.length_append, hopen, hclose, hnext]
  omega

/-- The text that a spawn is sent on with is hardly longer than its pairs. -/
theorem length_sentText_le_extent (dropsLast : Bool) (var : Rtvar) :
    (sentText dropsLast var).length ≤ var.extent + 9 := by
  have hlength := Rtvar.length_serialize_le dropsLast var
  have hmark : (ascii "onlineID|").length = 9 := by decide
  rw [sentText, Events.replace, replaceFirst]
  cases Seq.find (ascii "onlineID") (var.serialize dropsLast) with
  | none => exact hlength.trans (Nat.le_add_right _ _)
  | some position =>
      simp only [List.length_append, List.length_take, List.length_drop, hmark]
      omega

/-- The texts of a spawn stay far below the limit of a call. -/
theorem sentText_fits {autohosts : Bool} {text : Bytes} {edited var : Rtvar} {name netid : Pair}
    {ply : Player} (htext : text.length ≤ maximumPacketSize)
    (hnetid : (Rtvar.parse text).find (ascii "netID") = some netid)
    (hspawned : spawnPlayer autohosts (Rtvar.parse text) name netid
      ((Rtvar.parse text).find (ascii "userID")) = .ok (ply, edited))
    (hupdate : (if contains text (ascii "type|local") then
      updateFirst edited (ascii "mstate") (fun _ => ascii "1") else .ok edited) = .ok var)
    (dropsLast : Bool) : (sentText dropsLast var).length ≤ 32 * maximumPacketSize := by
  have hstep := Rtvar.parse_inStep text
  have hparsed := Rtvar.extent_parse_le text
  have hedited : edited.extent ≤ 27 * text.length + 47 := by
    rcases spawnPlayer_edited hspawned with rfl | ⟨user, huser, hname⟩
    · omega
    · have hsuffix := length_idSuffix_le (Rtvar.length_find_le hstep hnetid)
        (Rtvar.length_find_le hstep huser)
      have hgrown := updateFirst_extent (fun value => (List.length_append).le) hname
      omega
  have hvar : var.extent ≤ edited.extent + 1 := by
    by_cases hlocal : contains text (ascii "type|local") = true
    · rw [if_pos hlocal] at hupdate
      exact updateFirst_extent
        (fun value => @Nat.le_add_left (ascii "1").length value.length) hupdate
    · rw [if_neg hlocal] at hupdate
      cases hupdate
      exact Nat.le_succ _
  have hlength := length_sentText_le_extent dropsLast var
  unfold maximumPacketSize at htext ⊢
  omega

theorem quiet_noteUnaccess (name : Pair) (userid : Option Pair) :
    Quiet anyCall (noteUnaccess name userid) :=
  .ite (.bind (.lift _) fun _ => .bind .getSettings fun _ =>
    .ite (.pure _) (.modifySettings _)) (.pure _)

theorem enter_relays {sends : Bytes → Prop} {ply : Player} {edited : Rtvar}
    (hsends : ∀ var dropsLast, (if contains (list 1).getString (ascii "type|local") then
        updateFirst edited (ascii "mstate") (fun _ => ascii "1") else .ok edited) = .ok var →
      Relays sends (· = false) (sendRebuilt list (sentText dropsLast var))) :
    Relays sends (· = false) (enter list ply edited) := by
  unfold enter
  dsimp only
  refine .lift_bind fun var hupdate => ?_
  have hadds (update : World → World) : Relays sends (· = false)
      (Handler.modifyWorld update >>= fun _ => Handler.getState >>= fun state =>
        sendRebuilt list (sentText state.env.eraseDropsLast var)) :=
    .after (.modifyWorld _) fun _ => .after .getState fun state => hsends var _ hupdate
  exact .ite (.after (.modifyWorld _) fun _ => hadds _) (hadds _)

theorem announce_relays {sends : Bytes → Prop} {ply : Player} {edited : Rtvar}
    (henter : Relays sends (· = false) (enter list ply edited)) :
    Relays sends (· = false) (announce list ply edited) := by
  unfold announce
  exact .ite (.after (.sendLog _) fun _ => henter) henter

/-- A spawn is replaced by at most one spawn. -/
theorem onSpawn_relays (out : Settings) (hlist : Bounded maximumPacketSize list) :
    Relays (Readdressed .onSpawn out list) (· = false) (onSpawn list) := by
  unfold onSpawn
  dsimp only
  refine .after (.lift _) fun name => .after (quiet_noteUnaccess _ _) fun _ => ?_
  cases hnetid : (Rtvar.parse (list 1).getString).find (ascii "netID") with
  | none => exact .of_quiet (.pure _)
  | some netid =>
      cases (Rtvar.parse (list 1).getString).find (ascii "onlineID") with
      | none => exact .of_quiet (.pure _)
      | some online =>
          refine .after .getSettings fun settings => .lift_bind fun described hspawned => ?_
          obtain ⟨ply, edited⟩ := described
          refine announce_relays (enter_relays fun var dropsLast hupdate => ?_)
          exact .withText hlist (sentText_fits (hlist.2 1) hnetid hspawned hupdate dropsLast)
            (by decide) (.described _) (by simp)

/-! ## The calls of a step -/

/-- A call that is swallowed is replaced by at most one call, with another netid and delay than
it came with, and the same slots but for the one that is rewritten. The prefix of console
messages is a constant of the program. -/
theorem resent_readdressed {packet struct : Bytes} {state after : ProxyState} (call : Relayed)
    (hlength : packet.length ≤ maximumPacketSize)
    (hcall : callOf packet = some (struct, list))
    (hfunc : (list 0).getString = ascii call.func)
    (hpackets : state.out.packets.length ≤ maximumPacketSize)
    (hspins : ¬ call.Spins state.out list)
    (hrun : (Events.In.variantlist struct).run state = .ok true after) :
    Once (Readdressed call state.out list) state after := by
  obtain ⟨-, -, hdecode⟩ := callOf_eq_some.mp hcall
  have hlist := (callOf_bounded hcall).mono hlength
  rw [call.variantlist_run hdecode hfunc] at hrun
  cases call with
  | onConsoleMessage => exact onConsoleMessage_once hlist hpackets hspins hrun
  | onTalkBubble => exact onTalkBubble_once hlist hspins hrun
  | onDialogRequest => exact (onDialogRequest_relays state.out hlist state true after hrun).1
  | onSpawn => exact (onSpawn_relays state.out hlist state true after hrun).1

/-- A talk bubble is sent on. -/
theorem onTalkBubble_run {state : ProxyState} {peer : Peer} {host : Host}
    (htarget : state.target true = some (peer, host)) (hvisual : state.out.visualspin = false)
    {packet : Bytes} (hpacket : callFunctionPacket list (-1) 0 = .ok packet) :
    (onTalkBubble list).code.run state =
      .ok true (state.sendAndFlush .built peer host packet) := by
  unfold onTalkBubble
  dsimp only
  rw [getSettings_bind, if_neg (by rw [hvisual]; exact Bool.false_ne_true)]
  exact run_bind_ok state (Handler.sendVariant_run htarget hpacket)

end Relaying

/-- A talk bubble with a text. -/
def bubble : VariantList :=
  (VariantList.ofString (ascii "OnTalkBubble")).modify 2 (Variant.setString (ascii "hi"))

/-- A proxy with a client. -/
def relayingState : ProxyState where
  server := { mGtPeer := some ⟨0, 0⟩, mProxyServer := some 0 }

/-- The bubble of player 3 is received, and one of nobody is sent. -/
theorem bubble_relayed : ∃ packet struct list data,
    callFunctionPacket bubble 3 7 = .ok packet ∧ callOf packet = some (struct, list) ∧
      packet.length ≤ maximumPacketSize ∧ (list 0).getString = ascii "OnTalkBubble" ∧
      Packet.mPlayerFlags struct = 3 ∧ Packet.mIntData struct = 7 ∧
      (Events.In.variantlist struct).run relayingState =
        .ok true (relayingState.sendAndFlush .built ⟨0, 0⟩ 0 data) ∧
      IsCall data list (-1) 0 := by
  obtain ⟨packet, hpacket, hlength, struct, list, hcall, hvalues, hnetid, hdelay⟩ :=
    @callFunctionPacket_received bubble 3 7 (by decide) (by decide) (by decide) (by decide)
  have hfunc : (list 0).getString = ascii "OnTalkBubble" := by
    have hslot : (list 0).value = .string (ascii "OnTalkBubble") :=
      (congrFun hvalues 0).trans rfl
    exact getString_of_value hslot
  obtain ⟨-, -, hdecode⟩ := callOf_eq_some.mp hcall
  have hlist := (callOf_bounded hcall).mono hlength
  have hfits := length_encoding_le hlist.2
  unfold maximumPacketSize at hfits
  obtain ⟨data, hdata, hsent⟩ := @callFunctionPacket_isCall list (-1) 0 hlist.1 (by omega)
    (by decide) (by decide)
  refine ⟨packet, struct, list, data, hpacket, hcall, hlength, hfunc, hnetid, hdelay, ?_, hsent⟩
  rw [Relayed.onTalkBubble.variantlist_run hdecode hfunc]
  exact onTalkBubble_run rfl rfl hdata

/-- The theorem on that bubble. -/
theorem resent_readdressed_bubble : ∃ struct list after,
    (list 0).getString = ascii "OnTalkBubble" ∧
      (Events.In.variantlist struct).run relayingState = .ok true after ∧
      Once (Readdressed .onTalkBubble relayingState.out list) relayingState after := by
  obtain ⟨packet, struct, list, data, -, hcall, hlength, hfunc, -, -, hrun, -⟩ := bubble_relayed
  exact ⟨struct, list, _, hfunc, hrun, resent_readdressed .onTalkBubble hlength hcall hfunc
    (by decide) (fun hspins => Bool.false_ne_true hspins.1) hrun⟩

/-- The packet is a call under the addressing of the one that was received. -/
def KeepsAddressing (received data : Bytes) : Prop :=
  ∃ struct sent, callOf data = some (struct, sent) ∧
    Packet.mPlayerFlags struct = Packet.mPlayerFlags received ∧
    Packet.mIntData struct = Packet.mIntData received

/-- The bubble loses its addressing. -/
theorem bubble_loses_addressing : ∃ packet struct list after data,
    callOf packet = some (struct, list) ∧ (list 0).getString = ascii "OnTalkBubble" ∧
      (Events.In.variantlist struct).run relayingState = .ok true after ∧
      sentCalls anyCall after.trace = [(⟨0, 0⟩, data)] ∧ ¬ KeepsAddressing struct data := by
  obtain ⟨packet, struct, list, data, -, hcall, -, hfunc, hnetid, -, hrun, hsent⟩ := bubble_relayed
  obtain ⟨built, sent, hbuilt, -, hflags, -⟩ := hsent
  refine ⟨packet, struct, list, _, data, hcall, hfunc, hrun, sentCalls_of_some hbuilt rfl, ?_⟩
  rintro ⟨found, decoded, hfound, hkeeps, -⟩
  cases hbuilt.symm.trans hfound
  rw [hflags, hnetid] at hkeeps
  exact absurd hkeeps (by decide)

end SrmotionProxy
