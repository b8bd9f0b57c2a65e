/-
# What the sections leave behind

The sections in front of the commands convert numbers from the packet, and three buttons
go through the roster. This module says what the sections do to the things that the
commands rely on, and when an exception gets out of them.
-/

import SrmotionProxy.Chat
import SrmotionProxy.Consumers
import SrmotionProxy.Lib.Decimal

namespace SrmotionProxy.Events

open SrmotionProxy.Lib SrmotionProxy.Proton SrmotionProxy.Handler
open SrmotionProxy.Lib.Confined (Leads)

/-! ## What the packet asks for -/

/-- The number that a numeric section reads. -/
def fieldNumber (trigger mark : String) (trim : Bool) (packet : Bytes) : Option Int :=
  if contains packet (ascii trigger) then
    match substr packet (behind packet (ascii mark) 4) packet.length with
    | .error _ => none
    | .ok aaa => (stoi (if trim then trimRight (cStr aaa) else cStr aaa)).toOption
  else none

/-- A flag behind its section. -/
def flagAfter (trigger mark : String) (trim : Bool) (packet : Bytes) (on : Bool) : Bool :=
  match fieldNumber trigger mark trim packet with
  | none => on
  | some value => value ≠ 0

def autopullAfter (packet : Bytes) (out : Settings) : Bool :=
  flagAfter "roulette2|" "te2|" false packet out.autopull

def wrenchpullAfter (packet : Bytes) (out : Settings) : Bool :=
  flagAfter "wrenchpull|" "ull|" true packet out.wrenchpull

/-- The packet asks for a new country, which costs the connection. -/
def NewCountry (packet : Bytes) : Prop :=
  contains packet (ascii "countryzz|") = true ∧
    ¬ contains packet (ascii "buttonClicked|countrylist") = true

instance (packet : Bytes) : Decidable (NewCountry packet) := inferInstanceAs (Decidable (_ ∧ _))

/-- The world behind the sections. -/
def worldAfterSections (packet : Bytes) (world : World) : World :=
  if NewCountry packet then { world with connected := false, localPlayer := {}, players := [] }
  else world

/-- `worldoptions` can take the colour off every name it compares. -/
def Coloured (world : World) : Prop :=
  ∀ player ∈ world.players, 2 ≤ player.name.length ∧
    (Roster.CalledAll player ∨ 2 ≤ world.localPlayer.name.length)

/-- The buttons that go through the roster, with their options. -/
def worldButtons : List (String × String) :=
  [("buttonClicked|killall", "kick"), ("buttonClicked|banall", "ban"),
    ("buttonClicked|pullall", "pull")]

def HasWorldButton (packet : Bytes) : Prop :=
  ∃ button ∈ worldButtons, contains packet (ascii button.1) = true

/-! ## What stays as it is -/

/-- The settings that commands store numbers in, and the uids they read. -/
def kept (out : Settings) : Int × Int × Int × Int × Int × Bytes × Bytes :=
  (out.uidz, out.setx, out.sety, out.id, out.sayi, out.owneruid, out.currentuid)

/-- The texts of the options page are short enough for a variant. -/
def ShortPage (out : Settings) : Prop :=
  out.mode.length + out.saveworld.length < 2 ^ 30 ∧ intMin ≤ out.ruletsayi ∧
    out.ruletsayi ≤ intMax

/-- A state whose settings are `I` and whose world is this one. -/
def Steady (I : Settings → Prop) (world : World) (state : ProxyState) : Prop :=
  I state.out ∧ state.server.mWorld = world

theorem callFunctionPacket_failure {list : VariantList} {netid delay : Int} {failure : Abort}
    (hfailure : callFunctionPacket list netid delay = .error failure) :
    failure = .undefinedBehaviour := by
  unfold callFunctionPacket serializeToMem at hfailure
  by_cases htotal : (memCount list).total = (storedBytes list).length
  · simp only [if_pos htotal] at hfailure
    cases hfailure
  · simp only [if_neg htotal] at hfailure
    cases hfailure
    rfl

section Reading

variable {α : Type} {bad : Abort → Bool} {E Q : ProxyState → Prop} {state : ProxyState}

theorem ends_getSettings {next : Settings → Handler α} :
    Ends bad E Q (getSettings >>= next).code state ↔ Ends bad E Q (next state.out).code state :=
  ends_congr rfl

theorem ends_getWorld {next : World → Handler α} : Ends bad E Q (getWorld >>= next).code state ↔
    Ends bad E Q (next state.server.mWorld).code state :=
  ends_congr rfl

end Reading

namespace Steady

variable {bad : Abort → Bool} {E : ProxyState → Prop} {I J : Settings → Prop}
  {world : World}

theorem deliver (client : Bool) (data : Bytes) :
    Leads bad E (Steady I world) (Steady I world) (Handler.deliver client data) := by
  apply Leads.of_run
  rintro state ⟨hout, hworld⟩
  obtain ⟨after, hrun, hsame, hserver⟩ := deliver_run_unchanged client data state
  refine ⟨(), after, hrun, ?_, ?_⟩
  · rwa [hsame]
  · rwa [hserver]

theorem modifySettings {update : Settings → Settings} (hupdate : ∀ out, I out → J (update out)) :
    Leads bad E (Steady I world) (Steady J world) (Handler.modifySettings update) :=
  .move fun state hsteady => ⟨hupdate state.out hsteady.1, hsteady.2⟩

theorem modifyGt (update : Gt → Gt) :
    Leads bad E (Steady I world) (Steady I world) (Handler.modifyGt update) :=
  .move fun _ hsteady => hsteady

theorem disconnectsr (reset : Bool) :
    Leads bad E (Steady I world)
      (Steady I { world with connected := false, localPlayer := {}, players := [] })
      (Handler.disconnectsr reset) := by
  refine .move fun state hsteady => ⟨?_, ?_⟩
  · change I (state.disconnect reset).out
    rw [disconnect_out]
    exact hsteady.1
  · change (state.disconnect reset).server.mWorld = _
    rw [Roster.disconnect_world, hsteady.2]

theorem sendVariant_of_fits {list : VariantList} (hfits : list.encoding.length < 2 ^ 31)
    (client : Bool) (netid delay : Int) :
    Leads bad E (Steady I world) (Steady I world)
      (Handler.sendVariant client list netid delay) := by
  refine .bind .read fun state => .ite (fun _ => .pure ()) fun _ => ?_
  rw [callFunctionPacket_eq list netid delay hfits]
  exact .ok_bind (deliver client _)

/-- A variant that is too long is no exception, but no result either. -/
theorem sendVariant {list : VariantList}
    (hfits : bad .undefinedBehaviour = true → list.encoding.length < 2 ^ 31)
    (hfailed : ∀ state, Steady I world state → E state) (client : Bool) (netid delay : Int) :
    Leads bad E (Steady I world) (Steady I world)
      (Handler.sendVariant client list netid delay) := by
  refine .bind .read fun state => .ite (fun _ => .pure ()) fun _ => ?_
  refine .ofExcept_bind (fun failure hfailure => ?_) hfailed fun packet _ => deliver client packet
  rw [callFunctionPacket_failure hfailure, ← Bool.not_eq_true]
  intro hbad
  rw [callFunctionPacket_eq list netid delay (hfits hbad)] at hfailure
  cases hfailure

end Steady

/-- A dialog whose text is short enough fits in a variant. -/
theorem length_encoding_dialog (name paket : Bytes) :
    ((VariantList.ofString name).modify 1 (Variant.setString paket)).encoding.length ≤
      127 + 6 * name.length + paket.length := by
  refine length_encoding_le_text (fun slot hslot => ?_) ?_
  · rw [VariantList.modify_of_ne _ _ hslot, VariantList.ofString]
    by_cases hzero : slot = 0
    · subst hzero
      rw [VariantList.modify_same]
      exact le_rfl
    · rw [VariantList.modify_of_ne _ _ hzero]
      exact Nat.zero_le _
  · rw [VariantList.modify_same]
    exact le_rfl

theorem length_addCheckbox (dialog : Dialog) (name text : Bytes) (checked : Bool) :
    (dialog.addCheckbox name text checked).dialogstr.length =
      dialog.dialogstr.length + (18 + name.length + text.length) := by
  have hopen : (ascii "add_checkbox|").length = 13 := by decide
  have hbar : (ascii "|").length = 1 := by decide
  have hoff : (ascii "|0|\n").length = 4 := by decide
  have hon : (ascii "|1|\n").length = 4 := by decide
  cases checked with
  | false =>
      simp only [Dialog.addCheckbox, Dialog.append, List.length_append, Bool.false_eq_true, if_false]
      omega
  | true =>
      simp only [Dialog.addCheckbox, Dialog.append, List.length_append, if_true]
      omega

/-- The length of the page depends on three settings only. -/
theorem length_optionsPage (out other : Settings) :
    (optionsPage out).length + (other.mode.length + other.saveworld.length +
        (toDecimal other.ruletsayi).length) =
      (optionsPage other).length + (out.mode.length + out.saveworld.length +
        (toDecimal out.ruletsayi).length) := by
  simp only [optionsPage, Dialog.finishDialog, Dialog.endDialog, Dialog.addInputBox, Dialog.append,
    List.length_append, length_addCheckbox]
  omega

theorem length_optionsPage_le {out : Settings} (hmin : intMin ≤ out.ruletsayi)
    (hmax : out.ruletsayi ≤ intMax) :
    (optionsPage out).length ≤ 2000 + (out.mode.length + out.saveworld.length) := by
  have hsame := length_optionsPage out {}
  have hempty : (optionsPage {}).length ≤ 1989 := by decide +kernel
  have hnumber := length_toDecimal_le hmin hmax
  omega

/-! ## Sections -/

section Sections

variable {bad : Abort → Bool} {E : ProxyState → Prop} {I J : Settings → Prop} {world : World}
  {packet : Bytes}

/-- A handler without failures. -/
def Succeeds (I J : Settings → Prop) (world : World) (m : Handler Unit) : Prop :=
  Leads (fun _ => true) (fun _ => False) (Steady I world) (Steady J world) m

section FieldNumber

variable {trigger mark : String} {trim : Bool} {aaa : Bytes} {failure : Abort}
  (htrigger : contains packet (ascii trigger) = true)

include htrigger

theorem fieldNumber_of_cut
    (hcut : substr packet (behind packet (ascii mark) 4) packet.length = .ok aaa) :
    fieldNumber trigger mark trim packet =
      (stoi (if trim then trimRight (cStr aaa) else cStr aaa)).toOption := by
  rw [fieldNumber, if_pos htrigger, hcut]

theorem fieldNumber_of_uncut
    (hcut : substr packet (behind packet (ascii mark) 4) packet.length = .error failure) :
    fieldNumber trigger mark trim packet = none := by
  rw [fieldNumber, if_pos htrigger, hcut]

end FieldNumber

/-- What a numeric section does, by what it reads. -/
theorem numberField_leads {trigger mark : String} {trim : Bool} {store : Int → Handler Unit}
    (hfailed : ∀ state, Steady I world state → E state)
    (hstore : ∀ value, fieldNumber trigger mark trim packet = some value →
      Succeeds I J world (store value))
    (hnone : fieldNumber trigger mark trim packet = none → ∀ out, I out → J out) :
    Leads bad E (Steady I world) (Steady J world)
      (numberField trigger mark trim store packet) := by
  have hnothing (hfield : fieldNumber trigger mark trim packet = none) {m : Handler Unit}
      (hm : Leads bad E (Steady I world) (Steady I world) m) :
      Leads bad E (Steady I world) (Steady J world) m :=
    hm.mono (fun _ => id) fun after hafter => ⟨hnone hfield after.out hafter.1, hafter.2⟩
  refine .ite (fun htrigger => ?_) fun habsent => hnothing (if_neg habsent) (.pure ())
  cases hfield : fieldNumber trigger mark trim packet with
  | none =>
      refine hnothing hfield (.tryCatchIf ?_ (fun _ => Steady.deliver _ _) hfailed)
      refine .ofExcept_bind (fun failure hcut => ?_) (fun _ => id) fun aaa hcut => ?_
      · rw [substr_failure hcut]
        exact Bool.and_false _
      · rw [fieldNumber_of_cut htrigger hcut] at hfield
        refine .ofExcept_bind (fun failure hread => ?_) (fun _ => id) fun value hread => ?_
        · rw [stoi_failure hread]
          exact Bool.and_false _
        · rw [hread] at hfield
          cases hfield
  | some value =>
      apply Leads.of_run
      intro state hsteady
      obtain ⟨_, after, hrun, hafter⟩ := (hstore value hfield state hsteady).exists_ok
      refine ⟨(), after, catchException_run_ok ?_, hafter⟩
      cases hcut : substr packet (behind packet (ascii mark) 4) packet.length with
      | error failure =>
          rw [fieldNumber_of_uncut htrigger hcut] at hfield
          cases hfield
      | ok aaa =>
          rw [fieldNumber_of_cut htrigger hcut] at hfield
          cases hread : stoi (if trim then trimRight (cStr aaa) else cStr aaa) with
          | error failure =>
              rw [hread] at hfield
              cases hfield
          | ok number =>
              rw [hread] at hfield
              cases hfield
              exact (lift_bind_run_ok rfl _).trans ((lift_bind_run_ok hread _).trans hrun)

theorem flagField_leads {trigger mark : String} {trim : Bool} {set : Bool → Settings → Settings}
    (hfailed : ∀ state, Steady I world state → E state)
    (hset : ∀ value, fieldNumber trigger mark trim packet = some value →
      ∀ out, I out → J (set (value ≠ 0) out))
    (hnone : fieldNumber trigger mark trim packet = none → ∀ out, I out → J out) :
    Leads bad E (Steady I world) (Steady J world) (flagField trigger mark trim set packet) :=
  numberField_leads hfailed
    (fun value hfield => Steady.modifySettings fun out => hset value hfield out) hnone

/-! ### Sections that cut before they convert -/

/-- What stands behind a mark starts inside the packet; without the mark it is what stands
behind the first few bytes. -/
theorem behind_le {mark : Bytes} {shift : Nat} (hmark : mark.length = shift) (hsome : 0 < shift)
    (hpacket : shift ≤ packet.length) : behind packet mark shift ≤ packet.length := by
  rw [behind, findPos, addSize]
  cases hfind : Seq.find mark packet with
  | none =>
      rw [Option.getD_none, npos]
      omega
  | some position =>
      obtain ⟨front, back, hsplit, hfront⟩ := Seq.find_eq_some_split hfind
      have hlength := congrArg List.length hsplit
      rw [List.length_append, List.length_append] at hlength
      have hwrap := Nat.mod_le (position + shift) (2 ^ 64)
      rw [Option.getD_some]
      omega

theorem cut_ok (hpacket : 6 ≤ packet.length) {mark : String} (hmark : (ascii mark).length = 4) :
    ∃ aaa, substr packet (behind packet (ascii mark) 4) packet.length = .ok aaa :=
  ⟨_, if_pos (behind_le hmark (by decide) (by omega))⟩

theorem restBehind_ok {mark : Bytes} {shift : Nat} (hmark : mark.length = shift)
    (hsome : 0 < shift) (hpacket : shift ≤ packet.length) :
    ∃ rest, restBehind packet mark shift = .ok rest :=
  ⟨_, if_pos (behind_le hmark hsome hpacket)⟩

variable (hpacket : 6 ≤ packet.length)

include hpacket

theorem inputField_leads (hfailed : ∀ state, Steady I world state → E state)
    {trigger mark : String} {trim : Bool} {store : Int → Handler Unit}
    (hmark : (ascii mark).length = 4) (hstore : ∀ value, Succeeds I I world (store value)) :
    Leads bad E (Steady I world) (Steady I world)
      (inputField trigger mark trim store packet) := by
  refine .ite (fun _ => ?_) fun _ => .pure ()
  obtain ⟨aaa, hcut⟩ := cut_ok hpacket hmark
  rw [hcut]
  refine .ok_bind (.tryCatchIf ?_ (fun _ => Steady.deliver _ _) hfailed)
  refine .ofExcept_bind (fun failure hread => ?_) (fun _ => id) fun value _ =>
    .of_total (hstore value)
  rw [stoi_failure hread]
  exact Bool.and_false _

theorem saveworldField_leads (hupdate : ∀ text out, I out → I { out with saveworld := text }) :
    Leads bad E (Steady I world) (Steady I world) (saveworldField packet) := by
  refine .ite (fun _ => ?_) fun _ => .pure ()
  obtain ⟨aaa, hcut⟩ := cut_ok hpacket (by decide : (ascii "rld|").length = 4)
  rw [hcut]
  refine .tryCatchIf (.ok_bind (Steady.modifySettings (hupdate _))) (fun _ _ => False.elim) ?_
  exact fun _ => False.elim

/-- A new country costs the connection, and nothing else does. -/
theorem countryField_leads (hupdate : ∀ text out, I out → I { out with country := text }) :
    Leads bad E (Steady I world) (Steady I (worldAfterSections packet world))
      (countryField packet) := by
  refine .ite (fun htrigger => ?_) fun habsent => ?_
  · obtain ⟨aaa, hcut⟩ := cut_ok hpacket (by decide : (ascii "yzz|").length = 4)
    rw [hcut]
    refine .tryCatchIf (.ok_bind (.ite (fun hlist => ?_) fun hlist => ?_))
      (fun _ _ => False.elim) fun _ => False.elim
    · rw [worldAfterSections, if_neg fun hnew => hnew.2 hlist]
      refine Steady.sendVariant_of_fits ((length_encoding_dialog _ _).trans_lt ?_) _ _ _
      decide +kernel
    · rw [worldAfterSections, if_pos ⟨htrigger, hlist⟩]
      refine .bind (Steady.modifySettings (hupdate _)) fun _ => .bind ?_ fun _ =>
        .bind (Steady.modifyGt _) fun _ => .bind (Steady.deliver _ _) fun _ =>
          Steady.disconnectsr true
      refine Steady.sendVariant_of_fits ((length_encoding_dialog _ _).trans_lt ?_) _ _ _
      decide +kernel
  · rw [worldAfterSections, if_neg fun hnew => habsent hnew.1]
    exact .pure ()

omit hpacket

/-- The page of the options button fits if its texts are short. -/
theorem optionsButton_leads (hfailed : ∀ state, Steady I world state → E state)
    (hshort : bad .undefinedBehaviour = true →
      contains packet (ascii "buttonClicked|optionzzz") = true → ∀ out, I out → ShortPage out) :
    Leads bad E (Steady I world) (Steady I world) (optionsButton packet) := by
  refine .ite (fun hpressed => .tryCatchIf ?_ (fun _ => Steady.deliver _ _) hfailed)
    fun _ => .pure ()
  intro state hsteady
  refine ends_getSettings.mpr (Steady.sendVariant (fun hbad => ?_) (fun _ => id) _ _ _ state hsteady)
  obtain ⟨hlength, hmin, hmax⟩ :=
    hshort (Bool.and_eq_true_iff.mp hbad).1 hpressed state.out hsteady.1
  have hpage := length_optionsPage_le hmin hmax
  have hdialog := length_encoding_dialog (ascii "OnDialogRequest") (optionsPage state.out)
  have hname : (ascii "OnDialogRequest").length = 15 := by decide
  omega

theorem modeButton_leads {button mode : String}
    (hupdate : ∀ text out, I out → I { out with mode := text }) :
    Leads bad E (Steady I world) (Steady I world) (modeButton button mode packet) :=
  .ite (fun _ => Steady.modifySettings (hupdate _)) fun _ => .pure ()

theorem unbanButton_leads : Leads bad E (Steady I world) (Steady I world) (unbanButton packet) :=
  .ite (fun _ => Steady.deliver _ _) fun _ => .pure ()

/-! ### World buttons -/

theorem worldoptions_leads (hgood : bad .outOfRange = false)
    (hfailed : ∀ state, Steady I world state → E state) (option : Bytes) :
    Leads bad E (Steady I world) (Steady I world) (worldoptions option) :=
  .bind (.bind .read fun _ => .pure _) fun _ =>
    .bind (worldoptionsLoop_leads hgood hfailed Steady.deliver _ _ _) fun _ => .pure true

/-- A world button finds names with a colour. -/
theorem worldButton_leads {button : String × String} (hoption : ascii button.2 ∈ Roster.verbs)
    (hcoloured : contains packet (ascii button.1) = true → Coloured world) :
    Leads bad E (Steady I world) (Steady I world) (worldButton button.1 button.2 packet) := by
  refine .ite (fun hpressed => .bind (.of_run fun state hsteady => ?_) fun _ => .pure ())
    fun _ => .pure ()
  have hworld : Coloured state.server.mWorld := by
    rw [hsteady.2]
    exact hcoloured hpressed
  obtain ⟨value, after, hrun⟩ := (Roster.worldoptions_returns_iff hoption state).mpr hworld
  have hends : Ends (fun _ => false) (Steady I world) (Steady I world)
      (worldoptions (ascii button.2)).code state :=
    worldoptions_leads rfl (fun _ => id) (ascii button.2) state hsteady
  exact ⟨value, after, hrun, (ends_of_ok hrun).mp hends⟩

/-- Or an exception gets out. -/
theorem worldButton_throws {button : String × String} (hoption : ascii button.2 ∈ Roster.verbs)
    (hpressed : contains packet (ascii button.1) = true) {state : ProxyState}
    (hcolour : ¬ Coloured state.server.mWorld) :
    ∃ failure after, (worldButton button.1 button.2 packet).code.run state =
      .error failure after ∧ failure.isStdException = true := by
  have hends : Ends (fun failure => !failure.isStdException) (fun _ => True) _
      (worldoptions (ascii button.2)).code state :=
    @worldoptions_leads _ _ (fun _ => True) state.server.mWorld rfl (fun _ _ => trivial)
      (ascii button.2) state ⟨trivial, rfl⟩
  unfold worldButton
  rw [if_pos hpressed]
  cases hrun : (worldoptions (ascii button.2)).code.run state with
  | ok value after =>
      exact absurd ((Roster.worldoptions_returns_iff hoption state).mp ⟨value, after, hrun⟩) hcolour
  | error failure after =>
      refine ⟨failure, after, run_bind_error state hrun, ?_⟩
      have hgood := ((ends_of_error hrun).mp hends).1
      rwa [Bool.not_eq_false'] at hgood

/-! ### All sections -/

/-- The settings between the sections: nothing the commands store has changed, and the two
switches are known. If `short`, the options page can still be sent. -/
def Known (start : Settings) (autopull wrenchpull : Bool) (short : Prop) (out : Settings) : Prop :=
  kept out = kept start ∧ out.autopull = autopull ∧ out.wrenchpull = wrenchpull ∧
    (short → ShortPage out)

theorem fieldNumber_bounds {trigger mark : String} {trim : Bool} {value : Int}
    (hfield : fieldNumber trigger mark trim packet = some value) :
    intMin ≤ value ∧ value ≤ intMax := by
  unfold fieldNumber at hfield
  split at hfield
  case isFalse => cases hfield
  case isTrue =>
      split at hfield
      case h_1 => cases hfield
      case h_2 aaa _ =>
          cases hread : stoi (if trim then trimRight (cStr aaa) else cStr aaa) with
          | error failure =>
              rw [hread] at hfield
              cases hfield
          | ok number =>
              rw [hread] at hfield
              cases hfield
              exact (stoi_eq_ok_iff.mp hread).2

theorem flagAfter_some {trigger mark : String} {trim on : Bool} {value : Int}
    (hfield : fieldNumber trigger mark trim packet = some value) :
    flagAfter trigger mark trim packet on = decide (value ≠ 0) := by
  rw [flagAfter, hfield]

theorem flagAfter_none {trigger mark : String} {trim on : Bool}
    (hfield : fieldNumber trigger mark trim packet = none) :
    flagAfter trigger mark trim packet on = on := by
  rw [flagAfter, hfield]

section Phases

variable {start : Settings} {autopull wrenchpull : Bool} {short : Prop}
  (hfailed : ∀ state : ProxyState, kept state.out = kept start → E state)

include hfailed

/-- A flag that is none of the switches. -/
theorem flagField_known {trigger mark : String} {trim : Bool} {set : Bool → Settings → Settings}
    (hset : ∀ on out, Known start autopull wrenchpull short out →
      Known start autopull wrenchpull short (set on out)) :
    Leads bad E (Steady (Known start autopull wrenchpull short) world)
      (Steady (Known start autopull wrenchpull short) world)
      (flagField trigger mark trim set packet) :=
  flagField_leads (fun state hsteady => hfailed state hsteady.1.1) (fun value _ => hset (value ≠ 0))
    fun _ _ => id

/-- A number that the command does not store. -/
theorem numberField_known {trigger mark : String} {trim : Bool} {store : Int → Handler Unit}
    (hstore : ∀ value, intMin ≤ value → value ≤ intMax →
      Succeeds (Known start autopull wrenchpull short) (Known start autopull wrenchpull short) world
        (store value)) :
    Leads bad E (Steady (Known start autopull wrenchpull short) world)
      (Steady (Known start autopull wrenchpull short) world)
      (numberField trigger mark trim store packet) :=
  numberField_leads (fun state hsteady => hfailed state hsteady.1.1)
    (fun value hfield => (hstore value) (fieldNumber_bounds hfield).1 (fieldNumber_bounds hfield).2)
    fun _ _ => id

/-- The sections of the options page set the two switches. -/
theorem switchSections_leads :
    Leads bad E (Steady (Known start start.autopull start.wrenchpull short) world)
      (Steady (Known start (autopullAfter packet start) (wrenchpullAfter packet start) short) world)
      (runSections packet (formSections.take 13)) := by
  have hfailed' {autopull wrenchpull : Bool} (state : ProxyState)
      (hsteady : Steady (Known start autopull wrenchpull short) world state) : E state :=
    hfailed state hsteady.1.1
  refine .bind (flagField_leads hfailed' (J := Known start (autopullAfter packet start)
    start.wrenchpull short) ?_ ?_) fun _ => ?_
  · rintro value hfield out ⟨hkept, -, hwrenchpull, hshort⟩
    exact ⟨hkept, (flagAfter_some hfield).symm, hwrenchpull, hshort⟩
  · rintro hfield out ⟨hkept, hautopull, hrest⟩
    exact ⟨hkept, hautopull.trans (flagAfter_none hfield).symm, hrest⟩
  refine .bind (flagField_known hfailed fun _ _ => id) fun _ =>
    .bind (flagField_known hfailed fun _ _ => id) fun _ =>
    .bind (flagField_known hfailed fun _ _ => id) fun _ =>
    .bind (flagField_known hfailed fun _ _ => id) fun _ =>
    .bind (flagField_known hfailed fun _ _ => id) fun _ => ?_
  refine .bind (numberField_known hfailed fun value _ _ =>
    .bind (Steady.modifySettings fun _ => id) fun _ => .ite (fun _ => Steady.deliver _ _)
      fun _ => Steady.deliver _ _) fun _ => ?_
  refine .bind (numberField_known hfailed fun value _ _ =>
    Steady.modifySettings fun _ => id) fun _ => ?_
  refine .bind (numberField_known hfailed fun value hmin hmax =>
    Steady.modifySettings ?_) fun _ => ?_
  · rintro out ⟨hkept, hautopull, hwrenchpull, hshort⟩
    exact ⟨hkept, hautopull, hwrenchpull, fun hpage => ⟨(hshort hpage).1, hmin, hmax⟩⟩
  refine .bind (flagField_known hfailed fun _ _ => id) fun _ => ?_
  refine .bind (numberField_known hfailed fun value _ _ =>
    .bind (Steady.modifySettings fun _ => id) fun _ => .ite (fun _ => Steady.deliver _ _)
      fun _ => .pure ()) fun _ => ?_
  refine .bind (flagField_leads hfailed' ?_ ?_) fun _ =>
    .bind (flagField_known hfailed fun _ _ => id) fun _ => .pure ()
  · rintro value hfield out ⟨hkept, hautopull, -, hshort⟩
    exact ⟨hkept, hautopull, (flagAfter_some hfield).symm, hshort⟩
  · rintro hfield out ⟨hkept, hautopull, hwrenchpull, hshort⟩
    exact ⟨hkept, hautopull, hwrenchpull.trans (flagAfter_none hfield).symm, hshort⟩

/-- Only the page of the options button may not get out; the sections behind it change
texts of the page. -/
theorem pageSections_leads (hpacket : 6 ≤ packet.length)
    (hshort : bad .undefinedBehaviour = true →
      contains packet (ascii "buttonClicked|optionzzz") = true → short) :
    Leads bad E (Steady (Known start autopull wrenchpull short) world)
      (Steady (Known start autopull wrenchpull False) (worldAfterSections packet world))
      (runSections packet ((formSections.drop 13).take 9)) := by
  have hfailed' {short : Prop} {world : World} (state : ProxyState)
      (hsteady : Steady (Known start autopull wrenchpull short) world state) : E state :=
    hfailed state hsteady.1.1
  have hforget (state : ProxyState)
      (hsteady : Steady (Known start autopull wrenchpull short)
        (worldAfterSections packet world) state) :
      Steady (Known start autopull wrenchpull False) (worldAfterSections packet world) state :=
    ⟨⟨hsteady.1.1, hsteady.1.2.1, hsteady.1.2.2.1, False.elim⟩, hsteady.2⟩
  refine .bind (countryField_leads hpacket fun _ _ => id) fun _ => ?_
  refine .bind (.mono (optionsButton_leads hfailed' fun hbad hpressed out hknown =>
    hknown.2.2.2 (hshort hbad hpressed)) (fun _ => id) hforget) fun _ => ?_
  refine .bind (inputField_leads hpacket hfailed' (by decide) fun value =>
    .bind (Steady.modifySettings fun _ => id) fun _ => Steady.deliver _ _) fun _ => ?_
  refine .bind (saveworldField_leads hpacket fun text out hknown =>
    ⟨hknown.1, hknown.2.1, hknown.2.2.1, False.elim⟩) fun _ => ?_
  refine .bind (inputField_leads hpacket hfailed' (by decide) fun value =>
    .bind (Steady.modifySettings fun _ => id) fun _ => Steady.deliver _ _) fun _ => ?_
  have hmode (text : Bytes) (out : Settings)
      (hknown : Known start autopull wrenchpull False out) :
      Known start autopull wrenchpull False { out with mode := text } :=
    ⟨hknown.1, hknown.2.1, hknown.2.2.1, False.elim⟩
  refine .bind (modeButton_leads hmode) fun _ => .bind (modeButton_leads hmode) fun _ =>
    .bind (modeButton_leads hmode) fun _ => ?_
  exact .bind (inputField_leads hpacket hfailed' (by decide) fun value =>
    Steady.modifySettings fun _ => id) fun _ => .pure ()

end Phases

section World

variable {start : Settings}
  (hfailed : ∀ state : ProxyState, kept state.out = kept start → E state)
  (hpage : bad .undefinedBehaviour = true →
    contains packet (ascii "buttonClicked|optionzzz") = true → ShortPage start)

/-- What the sections lead to. -/
abbrev Behind (packet : Bytes) (start : Settings) (world : World) : ProxyState → Prop :=
  Steady (Known start (autopullAfter packet start) (wrenchpullAfter packet start) False)
    (worldAfterSections packet world)

theorem worldButtons_options {button : String × String} (hbutton : button ∈ worldButtons) :
    ascii button.2 ∈ Roster.verbs := by
  have hall : ∀ button ∈ worldButtons, ascii button.2 ∈ Roster.verbs := by decide +kernel
  exact hall button hbutton

include hpacket hfailed hpage

/-- The sections in front of the world buttons. -/
theorem frontSections_leads :
    Leads bad E (fun state => state.out = start ∧ state.server.mWorld = world)
      (Behind packet start world) (runSections packet (formSections.take 22)) := by
  have hsections : formSections.take 22 =
      formSections.take 13 ++ (formSections.drop 13).take 9 := rfl
  rw [hsections]
  rintro state ⟨rfl, rfl⟩
  refine runSections_leads_append (switchSections_leads hfailed)
    (pageSections_leads hfailed hpacket hpage) state ⟨⟨rfl, rfl, rfl, id⟩, rfl⟩

/-- All sections, if a world button finds names with a colour. -/
theorem formSections_leads (hcoloured : HasWorldButton packet → NewCountry packet ∨ Coloured world) :
    Leads bad E (fun state => state.out = start ∧ state.server.mWorld = world)
      (Behind packet start world) (runSections packet formSections) := by
  have hsections : formSections = formSections.take 22 ++
      (worldButtons.map (fun button => worldButton button.1 button.2) ++ [unbanButton]) := rfl
  rw [hsections]
  refine runSections_leads_append (frontSections_leads hpacket hfailed hpage)
    (runSections_leads_append (runSections_leads fun action haction => ?_)
      (.bind unbanButton_leads fun _ => .pure ()))
  obtain ⟨button, hbutton, rfl⟩ := List.mem_map.mp haction
  refine worldButton_leads (worldButtons_options hbutton) fun hpressed => ?_
  unfold worldAfterSections
  by_cases hnew : NewCountry packet
  · rw [if_pos hnew]
    exact fun player hplayer => absurd hplayer List.not_mem_nil
  · rw [if_neg hnew]
    exact (hcoloured ⟨button, hbutton, hpressed⟩).resolve_left hnew

end World

/-- A world button that finds a name without a colour ends the sections. -/
theorem worldButtons_throw {buttons : List (String × String)}
    (hbuttons : ∀ button ∈ buttons, ascii button.2 ∈ Roster.verbs)
    (hpressed : ∃ button ∈ buttons, contains packet (ascii button.1) = true)
    (back : List (Bytes → Handler Unit)) {state : ProxyState}
    (hcolour : ¬ Coloured state.server.mWorld) :
    ∃ failure after, (runSections packet
      (buttons.map (fun button => worldButton button.1 button.2) ++ back)).code.run state =
        .error failure after ∧ failure.isStdException = true := by
  induction buttons with
  | nil =>
      obtain ⟨button, hbutton, -⟩ := hpressed
      cases hbutton
  | cons first rest ih =>
      rw [List.forall_mem_cons] at hbuttons
      by_cases hfirst : contains packet (ascii first.1) = true
      · obtain ⟨failure, after, hrun, hstd⟩ := worldButton_throws hbuttons.1 hfirst hcolour
        exact ⟨failure, after, run_bind_error state hrun, hstd⟩
      · have hidle : (worldButton first.1 first.2 packet).code.run state = .ok () state := by
          rw [worldButton, if_neg hfirst]
          rfl
        obtain ⟨button, hbutton, hcontains⟩ := hpressed
        have hrest : button ∈ rest := by
          refine (List.mem_cons.mp hbutton).resolve_left fun hsame => hfirst ?_
          rw [← hsame]
          exact hcontains
        obtain ⟨failure, after, hrun, hstd⟩ := ih hbuttons.2 ⟨button, hrest, hcontains⟩
        exact ⟨failure, after, (run_bind_ok state hidle).trans hrun, hstd⟩

include hpacket

/-- Without a colour, and unless the packet leaves the world before, an exception gets out of
the sections. -/
theorem formSections_throw {state : ProxyState}
    (hpage : contains packet (ascii "buttonClicked|optionzzz") = true → ShortPage state.out)
    (hbutton : HasWorldButton packet) (hcountry : ¬ NewCountry packet)
    (hcolour : ¬ Coloured state.server.mWorld) :
    ∃ failure after, (runSections packet formSections).code.run state = .error failure after ∧
      failure.isStdException = true := by
  have hsections : formSections = formSections.take 22 ++
      (worldButtons.map (fun button => worldButton button.1 button.2) ++ [unbanButton]) := rfl
  have hfront : Leads (fun _ => true) (fun _ => True) _ _ _ :=
    @frontSections_leads (fun _ => true) (fun _ => True) state.server.mWorld packet hpacket
      state.out (fun _ _ => trivial) fun _ => hpage
  obtain ⟨_, middle, hmiddle, -, hworld⟩ := (hfront state ⟨rfl, rfl⟩).exists_ok
  rw [worldAfterSections, if_neg hcountry] at hworld
  rw [← hworld] at hcolour
  obtain ⟨failure, after, hrun, hstd⟩ := worldButtons_throw (fun _ => worldButtons_options)
    hbutton [unbanButton] hcolour
  refine ⟨failure, after, ?_, hstd⟩
  rw [hsections, runSections_append]
  exact (run_bind_ok state hmiddle).trans hrun

/-! ### What the sections may lead to -/

theorem wrenchText_leads (hsent : bad .undefinedBehaviour = false)
    (hfailed : ∀ state, Steady I world state → E state) :
    Leads bad E (Steady I world) (Steady I world) (Out.wrenchText packet) := by
  have hreply (mode : Bytes) (choice button : String) (netid : Bytes) :
      Leads bad E (Steady I world) (Steady I world) (Out.wrenchReply mode choice button netid) :=
    .ite (fun _ => Steady.deliver _ _) fun _ => .pure ()
  obtain ⟨str, hstr⟩ := @restBehind_ok packet (ascii "netid|") 6 (by decide) (by decide) hpacket
  refine .bind (Steady.deliver _ _) fun _ => ?_
  rw [hstr]
  refine .ok_bind ?_
  rw [substr_zero]
  refine .ok_bind (.bind (.bind .read fun _ => .pure _) fun out => ?_)
  refine .bind (hreply _ _ _ _) fun _ => .bind (hreply _ _ _ _) fun _ =>
    .bind (hreply _ _ _ _) fun _ => ?_
  refine .bind (Steady.sendVariant (fun hbad => ?_) hfailed _ _ _) fun _ => .pure true
  rw [hsent] at hbad
  cases hbad

theorem autopullChat_leads :
    Leads bad E (Steady I world) (Steady I world) (autopullChat packet) := by
  obtain ⟨str, hstr⟩ :=
    @restBehind_ok packet (ascii "text|") 5 (by decide) (by decide) (by omega)
  refine .ite (fun _ => .pure true) fun _ => .ite (fun _ => ?_) fun _ => .pure true
  rw [hstr]
  exact .ok_bind (.bind (Steady.deliver _ _) fun _ => .pure true)

end Sections

end SrmotionProxy.Events
