/-
# The stages of a dialog request

`OnDialogRequest` cuts its texts out of the dialog with `find` plus a constant. This
module says where such a slice begins, and tells for each section of the handler which
dialogs it throws at and which ones it decides.
-/

import SrmotionProxy.Lib.Marks
import SrmotionProxy.Resend

namespace SrmotionProxy.Events.In

open SrmotionProxy.Lib SrmotionProxy.Proton SrmotionProxy.Handler SrmotionProxy.ENet

/-! ## Slices -/

/-- Where a slice behind a mark begins. Without the mark the addition wraps around, and the
slice begins near the start of the text. -/
def sliceStart (content mark : Bytes) (shift : Nat) : Nat :=
  match Seq.find mark content with
  | some position => position + shift
  | none => shift - 1

/-- Whether the slice begins inside the text, or at its end. -/
def Sliceable (content mark : Bytes) (shift : Nat) : Prop :=
  sliceStart content mark shift ≤ content.length

instance (content mark : Bytes) (shift : Nat) : Decidable (Sliceable content mark shift) :=
  inferInstanceAs (Decidable (_ ≤ _))

/-- The slice begins with a number that an `int` can hold. -/
def NumberBehind (content mark : Bytes) (shift : Nat) : Prop :=
  Sliceable content mark shift ∧
    ∃ value, leadingInteger (content.drop (sliceStart content mark shift)) = some value ∧
      intMin ≤ value ∧ value ≤ intMax

section Slicing

variable {content mark : Bytes} {shift : Nat}

theorem sliceStart_of_some {position : Nat} (hfind : Seq.find mark content = some position) :
    sliceStart content mark shift = position + shift := by
  rw [sliceStart, hfind]

theorem sliceStart_of_none (hfind : Seq.find mark content = none) :
    sliceStart content mark shift = shift - 1 := by
  rw [sliceStart, hfind]

/-- A slice reaches to the end of the text. -/
theorem restBehind_eq (hshift : 1 ≤ shift) (hlength : content.length + shift < 2 ^ 64) :
    restBehind content mark shift =
      if Sliceable content mark shift then .ok (content.drop (sliceStart content mark shift))
      else .error .outOfRange := by
  have hslice (count : Nat) (hcount : content.length ≤ sliceStart content mark shift + count) :
      substr content (sliceStart content mark shift) count =
        if Sliceable content mark shift then .ok (content.drop (sliceStart content mark shift))
        else .error .outOfRange := by
    rw [substr, List.take_of_length_le (by rw [List.length_drop]; omega)]
    rfl
  rw [restBehind, behind, findPos]
  cases hfind : Seq.find mark content with
  | none =>
      have hstart := @sliceStart_of_none content mark shift hfind
      have hbehind : addSize npos shift = sliceStart content mark shift := by
        rw [hstart]
        unfold addSize npos
        omega
      rw [Option.getD_none, hbehind]
      apply hslice _
      unfold subSize npos
      omega
  | some position =>
      have hposition := (Seq.find_eq_some_iff.mp hfind).1
      have hstart := @sliceStart_of_some content mark shift position hfind
      have hbehind : addSize position shift = sliceStart content mark shift := by
        rw [hstart]
        unfold addSize
        omega
      rw [Option.getD_some, hbehind]
      apply hslice _
      unfold subSize
      omega

/-- Behind a mark of the length that is skipped a slice always begins in the text. -/
theorem sliceable_of_contains (hmark : mark.length = shift)
    (hcontains : contains content mark = true) : Sliceable content mark shift := by
  obtain ⟨position, hfind⟩ := Option.isSome_iff_exists.mp hcontains
  obtain ⟨front, back, hsplit, hfront⟩ := Seq.find_eq_some_split hfind
  rw [Sliceable, sliceStart_of_some hfind, hsplit]
  simp only [List.length_append]
  omega

theorem sliceable_iff (hmark : mark.length = shift) :
    Sliceable content mark shift ↔ contains content mark = true ∨ shift - 1 ≤ content.length := by
  by_cases hcontains : contains content mark = true
  · exact iff_of_true (sliceable_of_contains hmark hcontains) (.inl hcontains)
  · have hfind : Seq.find mark content = none := by
      rw [contains, Option.isSome_iff_ne_none, not_not] at hcontains
      exact hcontains
    rw [Sliceable, sliceStart_of_none hfind, or_iff_right hcontains]

/-- `stoi` returns exactly the numbers an `int` can hold. -/
theorem stoi_returns_iff (text : Bytes) :
    (∃ value, stoi text = .ok value) ↔
      ∃ value, leadingInteger text = some value ∧ intMin ≤ value ∧ value ≤ intMax := by
  unfold stoi
  cases hread : leadingInteger text with
  | none => simp
  | some value =>
      by_cases hrange : intMin ≤ value ∧ value ≤ intMax
      · simp [hrange]
      · simp only [if_neg hrange]
        apply iff_of_false (fun ⟨_, hfalse⟩ => by cases hfalse)
        rintro ⟨other, hother, hin⟩
        cases hother
        exact hrange hin

/-- A slice is read as a number exactly if a number is there. -/
theorem numberBehind_iff (hshift : 1 ≤ shift) (hlength : content.length + shift < 2 ^ 64) :
    (∃ value, (restBehind content mark shift >>= stoi) = .ok value) ↔
      NumberBehind content mark shift := by
  rw [restBehind_eq hshift hlength, NumberBehind]
  by_cases hslice : Sliceable content mark shift
  · rw [if_pos hslice, except_ok_bind, stoi_returns_iff]
    exact (and_iff_right hslice).symm
  · rw [if_neg hslice, except_error_bind]
    exact iff_of_false (fun ⟨_, hfalse⟩ => by cases hfalse) fun h => hslice h.1

/-- What stands behind any occurrence of the mark is at the end of the slice. -/
theorem suffix_slice (hmark : mark.length = shift) {before tail : Bytes}
    (hcontent : content = before ++ (mark ++ tail)) :
    tail <:+ content.drop (sliceStart content mark shift) := by
  obtain ⟨position, hposition, hfind⟩ := Seq.find_le_occurrence before mark tail
  rw [← hcontent] at hfind
  have htail : content.drop (before.length + shift) = tail := by
    rw [hcontent, ← List.append_assoc, List.drop_left' (by rw [List.length_append, hmark])]
  have hsplit : before.length + shift =
      sliceStart content mark shift + (before.length - position) := by
    rw [sliceStart_of_some hfind]
    omega
  rw [← htail, hsplit, ← List.drop_drop]
  exact List.drop_suffix _ _

theorem shows_of_split {label : String} {before tail : Bytes}
    (hcontent : content = before ++ (ascii label ++ tail)) :
    contains content (ascii label) = true := by
  rw [contains, Seq.find_isSome_iff, hcontent]
  exact List.infix_append' _ _ _

end Slicing

/-! ## Stages -/

/-- The options that the handler looks at. -/
structure Flags where
  wltroll : Bool
  dicemod : Bool
  taxsystem : Bool
  fastmmode : Bool
  fastdrop : Bool
  fasttrash : Bool
  wrenchpull : Bool
  worldbanjoinmod : Bool
  resolvingUid2 : Bool

/-- The options as they are set. -/
def flagsOf (state : ProxyState) : Flags where
  wltroll := state.out.wltroll
  dicemod := state.out.dicemod
  taxsystem := state.out.taxsystem
  fastmmode := state.out.fastmmode
  fastdrop := state.out.fastdrop
  fasttrash := state.out.fasttrash
  wrenchpull := state.out.wrenchpull
  worldbanjoinmod := state.out.worldbanjoinmod
  resolvingUid2 := state.gt.resolvingUid2

/-- What a section does to a dialog: it throws, or else it decides, or else it passes the
dialog on. -/
structure Stage where
  throws : Prop
  decides : Prop

/-- No section throws before one of them has decided. -/
def Clears : List Stage → Prop
  | [] => True
  | stage :: rest => ¬ stage.throws ∧ (stage.decides ∨ Clears rest)

/-- The section behaves as the stage says. What it passes on is passed on under the same
options. -/
structure Follows (part : Section) (stage : Flags → Stage) : Prop where
  throws : ∀ state, (stage (flagsOf state)).throws →
    ∃ failure last, part.code.run state = .error failure last
  decides : ∀ state, ¬ (stage (flagsOf state)).throws → (stage (flagsOf state)).decides →
    ∃ verdict last, part.code.run state = .ok (some verdict) last
  passes : ∀ state, ¬ (stage (flagsOf state)).throws → ¬ (stage (flagsOf state)).decides →
    ∃ last, part.code.run state = .ok none last ∧ flagsOf last = flagsOf state

section Deciding

variable {first : Section} {rest : List Section} {state middle : ProxyState}

theorem firstDecision_pass (hfirst : first.code.run state = .ok none middle) :
    (firstDecision (first :: rest)).code.run state = (firstDecision rest).code.run middle :=
  run_bind_ok state hfirst

theorem firstDecision_decide {verdict : Bool}
    (hfirst : first.code.run state = .ok (some verdict) middle) :
    (firstDecision (first :: rest)).code.run state = .ok verdict middle :=
  run_bind_ok state hfirst

theorem firstDecision_throw {failure : Abort}
    (hfirst : first.code.run state = .error failure middle) :
    (firstDecision (first :: rest)).code.run state = .error failure middle :=
  run_bind_error state hfirst

/-- Sections that behave as their stages say return exactly if the stages are cleared. -/
theorem returns_iff_clears {sections : List Section} {stages : List (Flags → Stage)}
    (hfollows : List.Forall₂ Follows sections stages) (state : ProxyState) :
    (firstDecision sections).Returns state ↔
      Clears (stages.map fun stage => stage (flagsOf state)) := by
  induction hfollows generalizing state with
  | nil => exact iff_of_true ⟨false, state, rfl⟩ trivial
  | @cons part stage sections stages hpart hrest ih =>
      rw [List.map_cons, Clears]
      by_cases hthrows : (stage (flagsOf state)).throws
      · obtain ⟨failure, last, hrun⟩ := hpart.throws state hthrows
        refine iff_of_false ?_ fun hclears => hclears.1 hthrows
        rintro ⟨verdict, after, hreturn⟩
        rw [firstDecision_throw hrun] at hreturn
        cases hreturn
      · rw [and_iff_right hthrows]
        by_cases hdecides : (stage (flagsOf state)).decides
        · obtain ⟨verdict, last, hrun⟩ := hpart.decides state hthrows hdecides
          exact iff_of_true ⟨verdict, last, firstDecision_decide hrun⟩ (.inl hdecides)
        · obtain ⟨last, hrun, hflags⟩ := hpart.passes state hthrows hdecides
          rw [or_iff_right hdecides, ← hflags, ← ih last, Confined.Returns, Confined.Returns,
            firstDecision_pass hrun]

end Deciding

/-! ## The stages of the handler -/

/-- The text contains the literal. -/
abbrev Shows (content : Bytes) (label : String) : Prop := contains content (ascii label) = true

/-- Literals are compared symbol by symbol. -/
theorem not_shows_ofList {symbols text : List Char}
    (habsent : (Seq.find (symbols.map fun symbol => UInt8.ofNat symbol.toNat)
      (text.map fun symbol => UInt8.ofNat symbol.toNat)).isSome = false) :
    ¬ Shows (ascii (String.ofList text)) (String.ofList symbols) := by
  rw [Shows, contains, ascii, ascii, String.toList_ofList, String.toList_ofList, habsent]
  exact Bool.false_ne_true

/-- What stands in front of the button that stops ignoring, from the last button on. -/
def uidText (content : Bytes) : Option Bytes :=
  let front := content.take (rfindPos content (ascii "|`4Stop ignoring"))
  match Seq.rfind (ascii "add_button|") front with
  | some position => some (front.drop (position + 11))
  | none => if 10 ≤ front.length then some (front.drop 10) else none

/-- The friend's number is no number at all, or it fits into an `int`. -/
def UidReadable (content : Bytes) : Prop :=
  ∃ uid, uidText content = some uid ∧ (atoi uid = 0 ∨ ∃ value, leadingInteger uid = some value ∧
    intMin ≤ value ∧ value ≤ intMax)

/-- The dialog about ignored players is swallowed without a look at the rest. -/
def Swallowed (flags : Flags) (content : Bytes) : Prop :=
  (flags.resolvingUid2 = true ∧
    (Shows content "friend_all|Show offline" ∨ Shows content "Social Portal")) ∨
    Shows content "Are you sure you wish to stop ignoring"

/-- The dialog about lost access. -/
def AccessLost (content : Bytes) : Prop :=
  Shows content "add_label_with_icon|small|Remove Your Access From World|left|242|"

/-- A name is being resolved, and one of the two answers to that is here. -/
def Answers (flags : Flags) (content : Bytes) (label : String) : Prop :=
  flags.resolvingUid2 = true ∧ Shows content label

def resolvingStage (content : Bytes) (flags : Flags) : Stage where
  throws := ¬ Swallowed flags content ∧ ¬ AccessLost content ∧
    ¬ Answers flags content "Ok, you will now be able to see chat" ∧
    Answers flags content "`4Stop ignoring" ∧ ¬ UidReadable content
  decides := Swallowed flags content ∨
    (AccessLost content ∧ flags.worldbanjoinmod = true) ∨
    (¬ AccessLost content ∧ (Answers flags content "Ok, you will now be able to see chat" ∨
      Answers flags content "`4Stop ignoring"))

/-- Both coordinates of a tile can be read. -/
def TileReadable (content : Bytes) : Prop :=
  NumberBehind content (ascii "embed_data|tilex|") 17 ∧
    NumberBehind content (ascii "embed_data|tiley|") 17

def wltrollStage (content : Bytes) (flags : Flags) : Stage :=
  let trolls := flags.wltroll = true ∧
    Shows content "add_label_with_icon|big|`wEdit World Lock``|left|242|"
  { throws := trolls ∧ ¬ TileReadable content, decides := trolls }

def worldLockStage (content : Bytes) (_ : Flags) : Stage where
  throws := Shows content "add_label_with_icon|big|`wEdit World Lock``|left|" ∧
    ¬ TileReadable content
  decides := False

def dicemodStage (content : Bytes) (flags : Flags) : Stage :=
  let edits := flags.dicemod = true ∧
    Shows content "add_label_with_icon|big|`wEdit Dice Block``|left|456|"
  { throws := edits ∧ ¬ TileReadable content, decides := edits }

/-- The captcha without the texts around the sum. -/
def captchaSum (content : Bytes) : Bytes :=
  replace (replace content (texts [
    "set_default_color|`o\nadd_label_with_icon|big|`wAre you Human?``|left|206|\n",
    "add_spacer|small|\nadd_textbox|What will be the sum of the following ",
    "numbers|left|\nadd_textbox|"]) []) (texts [
    "|left|\nadd_text_input|captcha_answer|Answer:||32|\n",
    "end_dialog|captcha_submit||Submit|"]) []

/-- Something stands behind the plus sign. -/
def SumReadable (content : Bytes) : Prop :=
  ∃ position, Seq.find (ascii " +") (captchaSum content) = some position ∧
    position + 3 ≤ (captchaSum content).length

def captchaStage (content : Bytes) (_ : Flags) : Stage :=
  let asks := Shows content "set_default_color|`o" ∧
    Shows content "add_label_with_icon|big|`wAre you Human?``|left|206|"
  { throws := asks ∧ ¬ SumReadable content, decides := asks }

def gazetteStage (content : Bytes) (_ : Flags) : Stage where
  throws := False
  decides := Shows content "add_label_with_icon|big|`wThe Growtopia Gazette``|left|5016|"

/-- What the handler takes for the item of the dialog: everything behind the first mark. -/
def itemText (content : Bytes) : Bytes :=
  content.drop (sliceStart content (ascii "embed_data|itemID|") 18)

/-- The dialog has an item and a label. -/
def Offers (content : Bytes) (label : String) : Prop :=
  Shows content "embed_data|itemID|" ∧ Shows content label

/-- A dialog in which a world lock is seen to be dropped. -/
def DropsLock (content : Bytes) : Prop :=
  Offers content "Drop" ∧ Shows (itemText content) "242"

def taxStage (content : Bytes) (flags : Flags) : Stage :=
  let taxes := flags.taxsystem = true ∧ DropsLock content
  { throws := taxes ∧ ¬ NumberBehind content (ascii "count||") 7, decides := taxes }

/-- The item and the amount can be cut out, whether they are there or not. -/
def DropSliceable (content : Bytes) : Prop :=
  Sliceable content (ascii "embed_data|itemID|") 18 ∧ Sliceable content (ascii "count||") 7

def fastdropStage (content : Bytes) (flags : Flags) : Stage where
  throws := flags.fastdrop = true ∧ ¬ DropSliceable content
  decides := flags.fastdrop = true ∧ Offers content "Drop"

def fastmmodeStage (content : Bytes) (flags : Flags) : Stage :=
  let mode := flags.taxsystem = true ∧ flags.fastmmode = true
  { throws := mode ∧ ¬ DropSliceable content, decides := mode ∧ DropsLock content }

def fasttrashStage (content : Bytes) (flags : Flags) : Stage where
  throws := flags.fasttrash = true ∧
    ¬ (Sliceable content (ascii "embed_data|itemID|") 18 ∧
      Sliceable content (ascii "you have ") 9)
  decides := flags.fasttrash = true ∧ Offers content "Trash"

def wrenchStage (content : Bytes) (flags : Flags) : Stage where
  throws := flags.wrenchpull = true ∧ ¬ Sliceable content (ascii "embed_data|netID") 17
  decides := (flags.wrenchpull = true ∧
      Shows content "set_default_color|`o" ∧ Shows content "embed_data|netID") ∨
    (¬ flags.wrenchpull = true ∧
      (Shows content "add_button|report_player|`wReport Player``|noflags|0|0|" ∨
        Shows content "add_button|my_worlds|`$My Worlds``|noflags|0|0|"))

/-- The stages in the order of the handler. -/
def dialogStages (content : Bytes) : List (Flags → Stage) :=
  [resolvingStage content, wltrollStage content, worldLockStage content, dicemodStage content,
    captchaStage content, gazetteStage content, taxStage content, fastdropStage content,
    fastmmodeStage content, fasttrashStage content, wrenchStage content]

/-! ## Buttons -/

/-- A dialog with buttons in front of the mark. -/
def withButtons (content mark buttons : Bytes) : Bytes :=
  content.take (findPos content mark) ++ buttons ++ content.drop (findPos content mark)

def playerButtons : Bytes := texts [
  "\nadd_button|whitelist|`2Add to Whitelist``|noflags|0|0|",
  "\nadd_button|blacklist|`4Add to Blacklist``|noflags|0|0|\n"]

def menuButtons : Bytes := texts [
  "\nadd_button|whitelisted_players|`2Whitelisted Players``|noflags|0|0|\n",
  "\nadd_button|blacklisted_players|`4Blacklisted Players``|noflags|0|0|",
  "\nadd_button|optionzzz|`5Options``|noflags|0|0|\n"]

/-! ## What ends a computation -/

/-- The computation returns the value, whatever the state. -/
def Ends {α : Type} (m : Handler α) (value : α) : Prop :=
  ∀ state, ∃ last, m.code.run state = .ok value last

/-- The computation throws, whatever the state. -/
def Fails {α : Type} (m : Handler α) : Prop :=
  ∀ state, ∃ failure last, m.code.run state = .error failure last

section Ending

variable {α β : Type} {first : Handler α} {next : α → Handler β} {value : α} {result : β}

theorem Ends.pure (value : α) : Ends (pure value : Handler α) value := fun state => ⟨state, rfl⟩

theorem Ends.bind (hfirst : Ends first value) (hnext : Ends (next value) result) :
    Ends (first >>= next) result := by
  intro state
  obtain ⟨middle, hmiddle⟩ := hfirst state
  obtain ⟨last, hlast⟩ := hnext middle
  exact ⟨last, (run_bind_ok state hmiddle).trans hlast⟩

theorem Ends.lift {computed : Except Abort α} (hcomputed : computed = .ok value) :
    Ends (Handler.lift computed) value := by
  subst hcomputed
  exact fun state => ⟨state, rfl⟩

theorem Ends.sendText (client : Bool) (text : Bytes) (type : Int) :
    Ends (Handler.sendText client text type) () := by
  intro state
  cases htarget : state.target client with
  | none => exact ⟨state, Handler.deliver_run_none htarget _⟩
  | some pair =>
      obtain ⟨peer, host⟩ := pair
      exact ⟨_, Handler.sendText_run htarget _ _⟩

theorem Ends.sendLog (text : Bytes) : Ends (Handler.sendLog text) () := .sendText true _ _

theorem Ends.sendServer (text : Bytes) : Ends (Handler.sendServer text) () := .sendText false _ _

theorem Ends.modifySettings (update : Settings → Settings) :
    Ends (Handler.modifySettings update) () := fun _ => ⟨_, rfl⟩

theorem Ends.modifyGt (update : Gt → Gt) : Ends (Handler.modifyGt update) () := fun _ => ⟨_, rfl⟩

theorem Ends.sendVariant {client : Bool} {list : VariantList} {netid delay : Int} {packet : Bytes}
    (hpacket : callFunctionPacket list netid delay = .ok packet) :
    Ends (Handler.sendVariant client list netid delay) () := by
  intro state
  cases htarget : state.target client with
  | none => exact ⟨state, sendVariant_run_none htarget _ _ _⟩
  | some pair =>
      obtain ⟨peer, host⟩ := pair
      exact ⟨_, sendVariant_run htarget hpacket⟩

theorem Fails.bind (hfirst : Fails first) : Fails (first >>= next) := by
  intro state
  obtain ⟨failure, last, hlast⟩ := hfirst state
  exact ⟨failure, last, run_bind_error state hlast⟩

theorem Fails.after (hfirst : Ends first value) (hnext : Fails (next value)) :
    Fails (first >>= next) := by
  intro state
  obtain ⟨middle, hmiddle⟩ := hfirst state
  obtain ⟨failure, last, hlast⟩ := hnext middle
  exact ⟨failure, last, (run_bind_ok state hmiddle).trans hlast⟩

theorem Fails.lift {computed : Except Abort α} (hcomputed : ∀ value, computed ≠ .ok value) :
    Fails (Handler.lift computed) := by
  cases computed with
  | ok value => exact absurd rfl (hcomputed value)
  | error failure => exact fun state => ⟨failure, state, rfl⟩

theorem getSettings_bind (next : Settings → Handler β) (state : ProxyState) :
    (getSettings >>= next).code.run state = (next state.out).code.run state := rfl

theorem getGt_bind (next : Gt → Handler β) (state : ProxyState) :
    (getGt >>= next).code.run state = (next state.gt).code.run state := rfl

end Ending

end SrmotionProxy.Events.In
