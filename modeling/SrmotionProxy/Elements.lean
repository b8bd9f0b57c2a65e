/-
# Sequences of dialog builder calls

Every builder call appends its element with a newline, ten of them behind the element
and five in front of it. This module says when the elements of a sequence of calls end
up on lines of their own.
-/

import SrmotionProxy.Dialog
import SrmotionProxy.Lib.Decimal
import SrmotionProxy.Lib.FilledLines
import SrmotionProxy.Proton.Rtvar
import Mathlib.Data.List.Chain

namespace SrmotionProxy

open SrmotionProxy.Lib SrmotionProxy.Proton

/-! ## Calls -/

/-- A call of a `Dialog` method that adds an element, with its arguments. -/
inductive DialogCall where
  | addSpacer (type : SpacerTypes)
  | addLabelWithIcon (text : Bytes) (tileid : Int) (type : LabelStyles)
  | addLabelWithIconButton (text : Bytes) (tileid : Int) (buttontext : Bytes)
  | addButton (buttonname buttontext : Bytes)
  | addPicker (pickername pickertext headText : Bytes)
  | addCheckbox (checkboxname text : Bytes) (checked : Bool)
  | addTextBox (str : Bytes)
  | addSmallText (str : Bytes)
  | addItemWithCustomText (itemID textUnderButton buttonName : Bytes)
  | addStaticBlueFrame (itemID textUnderFrame buttonName : Bytes) (isEndLine : Bool)
  | addStaticBlueFrameWithIdCountText (itemID count textUnderFrame buttonName : Bytes)
      (isEndLine : Bool)
  | addInputBox (name text cont : Bytes) (size : Int)
  | addQuickExit
  | addNewLineAfterFrame
  | endDialog (name accept nvm : Bytes)

namespace DialogCall

/-- The call on a dialog. -/
def run (dialog : Dialog) : DialogCall → Dialog
  | .addSpacer type => dialog.addSpacer type
  | .addLabelWithIcon text tileid type => dialog.addLabelWithIcon text tileid type
  | .addLabelWithIconButton text tileid buttontext =>
      dialog.addLabelWithIconButton text tileid buttontext
  | .addButton buttonname buttontext => dialog.addButton buttonname buttontext
  | .addPicker pickername pickertext headText => dialog.addPicker pickername pickertext headText
  | .addCheckbox checkboxname text checked => dialog.addCheckbox checkboxname text checked
  | .addTextBox str => dialog.addTextBox str
  | .addSmallText str => dialog.addSmallText str
  | .addItemWithCustomText itemID textUnderButton buttonName =>
      dialog.addItemWithCustomText itemID textUnderButton buttonName
  | .addStaticBlueFrame itemID textUnderFrame buttonName isEndLine =>
      dialog.addStaticBlueFrame itemID textUnderFrame buttonName isEndLine
  | .addStaticBlueFrameWithIdCountText itemID count textUnderFrame buttonName isEndLine =>
      dialog.addStaticBlueFrameWithIdCountText itemID count textUnderFrame buttonName isEndLine
  | .addInputBox name text cont size => dialog.addInputBox name text cont size
  | .addQuickExit => dialog.addQuickExit
  | .addNewLineAfterFrame => dialog.addNewLineAfterFrame
  | .endDialog name accept nvm => dialog.endDialog name accept nvm

/-- The texts a call is given. -/
def arguments : DialogCall → List Bytes
  | .addSpacer _ | .addQuickExit | .addNewLineAfterFrame => []
  | .addTextBox text | .addSmallText text | .addLabelWithIcon text _ _ => [text]
  | .addLabelWithIconButton text _ other | .addButton text other | .addCheckbox text other _ =>
      [text, other]
  | .addPicker first second third | .addItemWithCustomText first second third
  | .addStaticBlueFrame first second third _ | .addInputBox first second third _
  | .endDialog first second third => [first, second, third]
  | .addStaticBlueFrameWithIdCountText first second third fourth _ =>
      [first, second, third, fourth]

/-- The arguments contain neither a bar nor a newline. -/
def Clean (call : DialogCall) : Prop :=
  ∀ argument ∈ call.arguments, bar ∉ argument ∧ newline ∉ argument

instance (call : DialogCall) : Decidable call.Clean := by
  unfold Clean
  infer_instance

/-- The calls that put the newline in front of their element. -/
def newlineFirst : DialogCall → Bool
  | .addPicker .. | .addItemWithCustomText .. | .addStaticBlueFrame ..
  | .addStaticBlueFrameWithIdCountText .. | .addNewLineAfterFrame => true
  | _ => false

/-- How many element lines a call stands for. -/
def lineCount : DialogCall → Nat
  | .addStaticBlueFrame _ _ _ isEndLine | .addStaticBlueFrameWithIdCountText _ _ _ _ isEndLine =>
      if isEndLine then 2 else 1
  | _ => 1

/-- What a call makes of an empty dialog. -/
def text (call : DialogCall) : Bytes := (call.run {}).finishDialog

/-- The element lines of a call on an empty dialog. -/
def elements (call : DialogCall) : List Bytes := Seq.filledLines newline call.text

/-! ## One call -/

/-- A call appends its text, whatever is there already. -/
theorem finishDialog_run (dialog : Dialog) (call : DialogCall) :
    (call.run dialog).finishDialog = dialog.finishDialog ++ call.text := by
  have happend (text : Bytes) :
      (dialog.append text).dialogstr = dialog.dialogstr ++ (Dialog.append {} text).dialogstr := rfl
  cases call with
  | addSpacer type => cases type <;> exact happend _
  | addLabelWithIcon text tileid type => cases type <;> exact happend _
  | addCheckbox checkboxname text checked => cases checked <;> exact happend _
  | addStaticBlueFrame itemID textUnderFrame buttonName isEndLine =>
      cases isEndLine <;> exact happend _
  | addStaticBlueFrameWithIdCountText itemID count textUnderFrame buttonName isEndLine =>
      cases isEndLine <;> exact happend _
  | _ => exact happend _

/-- Five calls start their text with a newline. -/
theorem head_text (call : DialogCall) :
    call.text.head? = some newline ↔ call.newlineFirst = true := by
  have hother {text : Bytes} {first : UInt8} (hhead : text.head? = some first)
      (hfirst : first ≠ newline) : text.head? = some newline ↔ false = true := by
    rw [hhead, Option.some.injEq]
    exact iff_of_false hfirst Bool.false_ne_true
  cases call with
  | addPicker | addItemWithCustomText | addNewLineAfterFrame => exact iff_of_true rfl rfl
  | addStaticBlueFrame itemID textUnderFrame buttonName isEndLine =>
      cases isEndLine <;> exact iff_of_true rfl rfl
  | addStaticBlueFrameWithIdCountText itemID count textUnderFrame buttonName isEndLine =>
      cases isEndLine <;> exact iff_of_true rfl rfl
  | addSpacer type => cases type <;> exact hother rfl (by decide)
  | addLabelWithIcon text tileid type => cases type <;> exact hother rfl (by decide)
  | addCheckbox checkboxname text checked => cases checked <;> exact hother rfl (by decide)
  | _ => exact hother rfl (by decide)

/-- The others end theirs with one. -/
theorem last_text (call : DialogCall) :
    call.text.getLast? = some newline ↔ call.newlineFirst = false := by
  have hliteral (front : Bytes) {back : Bytes} {last : UInt8} (hback : back.getLast? = some last) :
      (front ++ back).getLast? = some last := by
    rw [List.getLast?_append, hback]
    rfl
  have hother {text : Bytes} (hlast : text.getLast? = some bar) :
      text.getLast? = some newline ↔ true = false := by
    rw [hlast, Option.some.injEq]
    exact iff_of_false (by decide) Bool.noConfusion
  cases call with
  | addPicker | addItemWithCustomText => exact hother (hliteral [] (hliteral _ rfl))
  | addNewLineAfterFrame => exact hother (by decide)
  | addStaticBlueFrame itemID textUnderFrame buttonName isEndLine =>
      cases isEndLine with
      | false => exact hother (hliteral [] (hliteral _ rfl))
      | true => exact hother (hliteral [] (hliteral _ (hliteral _ rfl)))
  | addStaticBlueFrameWithIdCountText itemID count textUnderFrame buttonName isEndLine =>
      cases isEndLine with
      | false => exact hother (hliteral [] (hliteral _ rfl))
      | true => exact hother (hliteral [] (hliteral _ (hliteral _ rfl)))
  | addSpacer type => cases type <;> exact iff_of_true (by decide) rfl
  | addLabelWithIcon text tileid type =>
      cases type <;> exact iff_of_true (hliteral [] (hliteral _ rfl)) rfl
  | addCheckbox checkboxname text checked =>
      cases checked <;> exact iff_of_true (hliteral [] (hliteral _ rfl)) rfl
  | addQuickExit => exact iff_of_true (by decide) rfl
  | _ => exact iff_of_true (hliteral [] (hliteral _ rfl)) rfl

theorem text_ne_nil (call : DialogCall) : call.text ≠ [] := by
  intro hnone
  have hhead := call.head_text
  have hlast := call.last_text
  rw [hnone] at hhead hlast
  cases hfirst : call.newlineFirst with
  | false => cases hlast.mpr hfirst
  | true => cases hhead.mpr hfirst

/-- A frame with an end line is the end line and the frame. -/
theorem elements_endLine {call first second : DialogCall}
    (htext : call.text = first.text ++ second.text) (hsecond : second.newlineFirst = true) :
    call.elements = first.elements ++ second.elements := by
  rw [elements, htext]
  exact Seq.filledLines_append_of_separated (.inr (second.head_text.mpr hsecond))

/-- A text whose only newline is at one of its ends is one line. -/
theorem length_elements_of_single {call : DialogCall} (hsingle : call.text.count newline = 1) :
    call.elements.length = 1 := by
  cases hfirst : call.newlineFirst with
  | true =>
      obtain ⟨line, htext⟩ := List.head?_eq_some_iff.mp (call.head_text.mpr hfirst)
      rw [htext, List.count_cons_self, Nat.add_eq_right, List.count_eq_zero] at hsingle
      have hsome : line ≠ [] := by
        rintro rfl
        have hlast := call.last_text.mp (by rw [htext]; rfl)
        rw [hfirst] at hlast
        cases hlast
      rw [elements, htext, Seq.filledLines_separator, Seq.filledLines_of_free hsingle hsome]
      rfl
  | false =>
      obtain ⟨line, htext⟩ := List.getLast?_eq_some_iff.mp (call.last_text.mpr hfirst)
      rw [htext, List.count_append, List.count_singleton_self, Nat.add_eq_right,
        List.count_eq_zero] at hsingle
      have hsome : line ≠ [] := by
        rintro rfl
        have hhead := call.head_text.mp (by rw [htext]; rfl)
        rw [hfirst] at hhead
        cases hhead
      rw [elements, htext, Seq.filledLines_append_cons, Seq.filledLines_nil, List.append_nil,
        Seq.filledLines_of_free hsingle hsome]
      rfl

theorem count_toDecimal (value : Int) : (toDecimal value).count newline = 0 :=
  List.count_eq_zero.mpr (not_mem_toDecimal (by decide) (by decide) value)

/-- Clean arguments bring in no newline. -/
theorem count_argument {call : DialogCall} (hclean : call.Clean) :
    ∀ argument ∈ call.arguments, argument.count newline = 0 :=
  fun argument hargument => List.count_eq_zero.mpr (hclean argument hargument).2

/-- A call with clean arguments stands for one line, or two for a frame with an end
line. -/
theorem length_elements {call : DialogCall} (hclean : call.Clean) :
    call.elements.length = call.lineCount := by
  have hcount := count_argument hclean
  have hend : addNewLineAfterFrame.elements.length = 1 := length_elements_of_single (by decide)
  cases call with
  | addStaticBlueFrame itemID textUnderFrame buttonName isEndLine =>
      have hframe : (addStaticBlueFrame itemID textUnderFrame buttonName false).elements.length =
          1 := by
        apply length_elements_of_single
        simp only [arguments, List.forall_mem_cons] at hcount
        simp only [text, run, Dialog.addStaticBlueFrame, Dialog.append, Dialog.finishDialog,
          List.count_append, hcount, if_true]
        decide
      cases isEndLine with
      | false => exact hframe
      | true =>
          have htext : (addStaticBlueFrame itemID textUnderFrame buttonName true).text =
              addNewLineAfterFrame.text ++
                (addStaticBlueFrame itemID textUnderFrame buttonName false).text := rfl
          rw [elements_endLine htext rfl, List.length_append, hframe, hend]
          rfl
  | addStaticBlueFrameWithIdCountText itemID count textUnderFrame buttonName isEndLine =>
      have hframe : (addStaticBlueFrameWithIdCountText itemID count textUnderFrame buttonName
          false).elements.length = 1 := by
        apply length_elements_of_single
        simp only [arguments, List.forall_mem_cons] at hcount
        simp only [text, run, Dialog.addStaticBlueFrameWithIdCountText, Dialog.append,
          Dialog.finishDialog, List.count_append, hcount, if_true]
        decide
      cases isEndLine with
      | false => exact hframe
      | true =>
          have htext : (addStaticBlueFrameWithIdCountText itemID count textUnderFrame buttonName
              true).text = addNewLineAfterFrame.text ++ (addStaticBlueFrameWithIdCountText itemID
                count textUnderFrame buttonName false).text := rfl
          rw [elements_endLine htext rfl, List.length_append, hframe, hend]
          rfl
  | addSpacer type => cases type <;> exact length_elements_of_single (by decide)
  | addQuickExit => exact length_elements_of_single (by decide)
  | addNewLineAfterFrame => exact hend
  | addLabelWithIcon text tileid type =>
      apply length_elements_of_single
      simp only [arguments, List.forall_mem_cons] at hcount
      cases type <;>
      · simp only [DialogCall.text, run, Dialog.addLabelWithIcon, Dialog.append,
          Dialog.finishDialog, List.count_append, hcount, count_toDecimal]
        decide
  | addCheckbox checkboxname text checked =>
      apply length_elements_of_single
      simp only [arguments, List.forall_mem_cons] at hcount
      cases checked <;>
      · simp only [DialogCall.text, run, Dialog.addCheckbox, Dialog.append,
          Dialog.finishDialog, List.count_append, hcount, Bool.false_eq_true, if_true, if_false]
        decide
  | _ =>
      apply length_elements_of_single
      simp only [arguments, List.forall_mem_cons] at hcount
      simp only [text, run, Dialog.addLabelWithIconButton, Dialog.addButton, Dialog.addPicker,
        Dialog.addTextBox, Dialog.addSmallText, Dialog.addItemWithCustomText, Dialog.addInputBox,
        Dialog.endDialog, Dialog.append, Dialog.finishDialog, List.count_append, hcount,
        count_toDecimal]
      decide

/-! ## Sequences of calls -/

/-- The dialog that a sequence of calls builds. -/
def build (calls : List DialogCall) : Dialog := calls.foldl run {}

theorem finishDialog_build (calls : List DialogCall) :
    (build calls).finishDialog = (calls.map text).flatten := by
  have hfold (dialog : Dialog) : (calls.foldl run dialog).finishDialog =
      dialog.finishDialog ++ (calls.map text).flatten := by
    induction calls generalizing dialog with
    | nil => exact (List.append_nil _).symm
    | cons call calls ih =>
        rw [List.foldl_cons, ih, finishDialog_run, List.map_cons, List.flatten_cons,
          List.append_assoc]
  exact hfold {}

/-- A call that ends without a newline followed by one that starts without one. -/
def RunsInto (first second : DialogCall) : Prop :=
  first.newlineFirst = true ∧ second.newlineFirst = false

instance (first second : DialogCall) : Decidable (RunsInto first second) := by
  unfold RunsInto
  infer_instance

theorem separated_iff (first second : DialogCall) :
    Seq.Separated newline first.text second.text ↔ ¬ RunsInto first second := by
  rw [Seq.Separated, first.last_text, second.head_text, RunsInto]
  cases first.newlineFirst <;> cases second.newlineFirst <;> decide

/-- Every call stands for one element line, or two for a frame with an end line, and the
lines of a finished dialog are those of its calls, exactly if no call that puts its newline
first is directly followed by one that puts it last. -/
theorem elements_on_own_lines_iff (calls : List DialogCall)
    (hclean : ∀ call ∈ calls, call.Clean) :
    ((∀ call ∈ calls, call.elements.length = call.lineCount) ∧
        Seq.filledLines newline (build calls).finishDialog = calls.flatMap elements) ↔
      calls.IsChain fun first second => ¬ RunsInto first second := by
  have hsome : ∀ part ∈ calls.map text, part ≠ [] := by
    rintro _ htext
    obtain ⟨call, -, rfl⟩ := List.mem_map.mp htext
    exact call.text_ne_nil
  have hlines := @Seq.filledLines_flatten_iff _ _ newline _ hsome
  rw [List.flatMap_map, List.isChain_map] at hlines
  simp only [separated_iff] at hlines
  rw [and_iff_right fun call hcall => length_elements (hclean call hcall), finishDialog_build]
  exact hlines

/-- A text box and then a picker: two elements, on two lines. -/
theorem elements_on_own_lines_sample :
    let calls := [addTextBox (ascii "Who?"), addPicker (ascii "p") (ascii "Pick") (ascii "One")]
    (∀ call ∈ calls, call.elements.length = call.lineCount) ∧
      Seq.filledLines newline (build calls).finishDialog = calls.flatMap elements :=
  (elements_on_own_lines_iff _ (by decide)).mpr (by decide)

/-- An end of the frames and an exit share a line. -/
theorem end_list_runs_into_quick_exit :
    let calls := [addNewLineAfterFrame, addQuickExit]
    (∀ call ∈ calls, call.Clean) ∧
      Seq.filledLines newline (build calls).finishDialog ≠ calls.flatMap elements := by
  refine ⟨by decide, by decide⟩

end DialogCall

end SrmotionProxy
