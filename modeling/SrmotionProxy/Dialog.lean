/-
# Dialog texts

`Dialog` of `dialog.cpp`: every call appends one element to a text.
-/

import SrmotionProxy.Lib.Text

namespace SrmotionProxy

open SrmotionProxy.Lib

inductive LabelStyles where
  | big
  | small
  deriving DecidableEq, Repr

inductive SpacerTypes where
  | big
  | small
  deriving DecidableEq, Repr

/-- `Dialog`. -/
structure Dialog where
  dialogstr : Bytes := []

namespace Dialog

/-- `dialogstr.append(text)`. -/
def append (dialog : Dialog) (text : Bytes) : Dialog :=
  { dialogstr := dialog.dialogstr ++ text }

def addSpacer (dialog : Dialog) (type : SpacerTypes) : Dialog :=
  match type with
  | .big => dialog.append (ascii "add_spacer|big|\n")
  | .small => dialog.append (ascii "add_spacer|small|\n")

def addItemWithCustomText (dialog : Dialog) (itemID textUnderButton buttonName : Bytes) :
    Dialog :=
  dialog.append (ascii "\nadd_button_with_icon|" ++ buttonName ++ ascii "|" ++
    textUnderButton ++ ascii "|staticBlueFrame|" ++ itemID ++ ascii "|")

def addNewLineAfterFrame (dialog : Dialog) : Dialog :=
  dialog.append (ascii "\nadd_button_with_icon||END_LIST|noflags|0|0|")

def addPicker (dialog : Dialog) (pickername pickertext headText : Bytes) : Dialog :=
  dialog.append (ascii "\nadd_item_picker|" ++ pickername ++ ascii "|" ++ pickertext ++
    ascii "|" ++ headText ++ ascii "|")

def addStaticBlueFrame (dialog : Dialog) (itemID textUnderFrame buttonName : Bytes)
    (isEndLine : Bool) : Dialog :=
  let frame := ascii "\nadd_button_with_icon|" ++ buttonName ++
    ascii "||staticBlueFrame|" ++ itemID ++ ascii "|" ++ textUnderFrame ++ ascii "|"
  if isEndLine = false then dialog.append frame
  else dialog.append (ascii "\nadd_button_with_icon||END_LIST|noflags|0|0|" ++ frame)

def addStaticBlueFrameWithIdCountText (dialog : Dialog)
    (itemID count textUnderFrame buttonName : Bytes) (isEndLine : Bool) : Dialog :=
  let frame := ascii "\nadd_button_with_icon|" ++ buttonName ++ ascii "|" ++
    textUnderFrame ++ ascii "|frame|" ++ itemID ++ ascii "|" ++ count ++ ascii "|"
  if isEndLine = false then dialog.append frame
  else dialog.append (ascii "\nadd_button_with_icon||END_LIST|noflags|0|0|" ++ frame)

def addLabelWithIcon (dialog : Dialog) (text : Bytes) (tileid : Int) (type : LabelStyles) :
    Dialog :=
  match type with
  | .big => dialog.append (ascii "add_label_with_icon|big|" ++ text ++ ascii "|left|" ++
      toDecimal tileid ++ ascii "|\n")
  | .small => dialog.append (ascii "add_label_with_icon|small|" ++ text ++ ascii "|left|" ++
      toDecimal tileid ++ ascii "|\n")

def addLabelWithIconButton (dialog : Dialog) (text : Bytes) (tileid : Int)
    (buttontext : Bytes) : Dialog :=
  dialog.append (ascii "add_label_with_icon_button||" ++ text ++ ascii "|left|" ++
    toDecimal tileid ++ ascii "|" ++ buttontext ++ ascii "|\n")

def addButton (dialog : Dialog) (buttonname buttontext : Bytes) : Dialog :=
  dialog.append (ascii "add_button|" ++ buttonname ++ ascii "|" ++ buttontext ++
    ascii "|noflags|0|0|\n")

def addCheckbox (dialog : Dialog) (checkboxname text : Bytes) (checked : Bool) : Dialog :=
  if checked then
    dialog.append (ascii "add_checkbox|" ++ checkboxname ++ ascii "|" ++ text ++ ascii "|1|\n")
  else
    dialog.append (ascii "add_checkbox|" ++ checkboxname ++ ascii "|" ++ text ++ ascii "|0|\n")

def addTextBox (dialog : Dialog) (str : Bytes) : Dialog :=
  dialog.append (ascii "add_textbox|" ++ str ++ ascii "|left|\n")

def addSmallText (dialog : Dialog) (str : Bytes) : Dialog :=
  dialog.append (ascii "add_smalltext|" ++ str ++ ascii "|\n")

def addInputBox (dialog : Dialog) (name text cont : Bytes) (size : Int) : Dialog :=
  dialog.append (ascii "add_text_input|" ++ name ++ ascii "|" ++ text ++ ascii "|" ++ cont ++
    ascii "|" ++ toDecimal size ++ ascii "|\n")

def addQuickExit (dialog : Dialog) : Dialog := dialog.append (ascii "add_quick_exit|\n")

def endDialog (dialog : Dialog) (name accept nvm : Bytes) : Dialog :=
  dialog.append (ascii "end_dialog|" ++ name ++ ascii "|" ++ nvm ++ ascii "|" ++ accept ++
    ascii "|\n")

def addCustom (dialog : Dialog) (name : Bytes) : Dialog := dialog.append (name ++ ascii "\n")

/-- `Dialog::finishDialog`. -/
def finishDialog (dialog : Dialog) : Bytes := dialog.dialogstr

end Dialog

end SrmotionProxy
