/-
# The options form

The `/options` page lists eleven fields with the current settings. What the client
returns names every field on a line of its own, and the sections of `generictext` look
for parts of these names in the whole text. Each of them finds its own line, so that the
settings become what was submitted.
-/

import SrmotionProxy.Lib.Decimal
import SrmotionProxy.Lib.Marks
import SrmotionProxy.Proton.RtvarText
import SrmotionProxy.Sections

namespace SrmotionProxy.Events

open SrmotionProxy.Lib SrmotionProxy.Proton SrmotionProxy.Handler

/-! ## The page -/

/-- An element of the page that the player fills in. -/
structure PageField where
  element : String
  key : String
  label : Bytes
  shown : Bytes
  suffix : String

/-- The text of the element. -/
def PageField.text (field : PageField) : Bytes :=
  ascii field.element ++ ascii field.key ++ ascii "|" ++ field.label ++ ascii "|" ++
    field.shown ++ ascii field.suffix

def PageField.checkbox (key : String) (label : Bytes) (checked : Bool) : PageField :=
  { element := "add_checkbox|", key, label, shown := toDecimal checked.toInt, suffix := "|\n" }

/-- The fields that the page lists. -/
def pageFields (out : Settings) : List PageField :=
  [.checkbox "roulette2" (ascii "Enable Auto Pull") out.autopull,
    .checkbox "wrenchpull" (ascii "Enable Wrench " ++ out.mode) out.wrenchpull,
    .checkbox "fastdrop" (ascii "Enable Fast Drop") out.fastdrop,
    .checkbox "fasttrash" (ascii "Enable Fast Trash") out.fasttrash,
    .checkbox "dicespeed" (ascii "Enable Dice Speed") out.dicespeed,
    .checkbox "worldbanmod" (ascii "Exit world when mod joins") out.worldbanjoinmod,
    .checkbox "visualspin" (ascii "Enable Visual Spin") out.visualspin,
    .checkbox "autohosts" (ascii "Enable Show X,Y Position") out.autohosts,
    .checkbox "wltroll1" (ascii "Enable World Lock Troll") out.wltroll,
    { element := "add_text_input|", key := "roulette5", label := ascii "Number:",
      shown := toDecimal out.ruletsayi, suffix := "|2|\n" },
    { element := "add_text_input|", key := "saveworld", label := ascii "Save World:",
      shown := out.saveworld, suffix := "|12|\n" }]

theorem addCheckbox_eq (dialog : Dialog) (key : String) (label : Bytes) (checked : Bool) :
    dialog.addCheckbox (ascii key) label checked =
      dialog.append (PageField.checkbox key label checked).text := by
  cases checked with
  | false => simp only [Dialog.addCheckbox, PageField.text, PageField.checkbox, Bool.false_eq_true,
      if_false, List.append_assoc]; rfl
  | true => simp only [Dialog.addCheckbox, PageField.text, PageField.checkbox, if_true,
      List.append_assoc]; rfl

theorem addInputBox_eq (dialog : Dialog) (key : String) (label shown : Bytes) (size : Int)
    {suffix : String} (hsuffix : ascii suffix = ascii "|" ++ toDecimal size ++ ascii "|\n") :
    dialog.addInputBox (ascii key) label shown size =
      dialog.append (PageField.mk "add_text_input|" key label shown suffix).text := by
  simp only [Dialog.addInputBox, PageField.text, hsuffix, List.append_assoc]

/-- The page is its fields between a heading and the buttons. -/
theorem optionsPage_eq (out : Settings) :
    optionsPage out =
      ascii "add_label_with_icon|big|Options Page|left|758|\nadd_spacer|small|\n" ++
        (pageFields out).flatMap PageField.text ++ ascii "end_dialog|end|Cancel|Okey|\n" := by
  have hheading : (({} : Dialog).addLabelWithIcon (ascii "Options Page") 758 .big).addSpacer
      .small = ⟨ascii "add_label_with_icon|big|Options Page|left|758|\nadd_spacer|small|\n"⟩ := by
    rfl
  have hclosing (dialog : Dialog) :
      dialog.endDialog (ascii "end") (ascii "Okey") (ascii "Cancel") =
        dialog.append (ascii "end_dialog|end|Cancel|Okey|\n") := by
    simp only [Dialog.endDialog, List.append_assoc]
    rfl
  simp only [optionsPage, hheading, hclosing, addCheckbox_eq]
  rw [@addInputBox_eq _ _ _ _ 12 "|12|\n" rfl, @addInputBox_eq _ _ _ _ 2 "|2|\n" rfl]
  simp only [Dialog.append, Dialog.finishDialog, pageFields, List.flatMap_cons, List.flatMap_nil,
    List.append_assoc, List.append_nil]

/-! ## Computations that store -/

/-- The settings are updated, and what else there is stays but for calls. -/
structure Stored (update : Settings → Settings) (before after : ProxyState) : Prop where
  out : after.out = update before.out
  gt : after.gt = before.gt
  server : after.server = before.server

/-- The computation returns, and its whole effect is this update. -/
def Stores {α : Type} (m : Handler α) (update : Settings → Settings) : Prop :=
  ∀ state, ∃ value after, m.code.run state = .ok value after ∧ Stored update state after

namespace Stores

variable {α β : Type} {update later : Settings → Settings}

theorem pure (value : α) : Stores (Pure.pure value : Handler α) id :=
  fun state => ⟨value, state, rfl, rfl, rfl, rfl⟩

theorem modifySettings (update : Settings → Settings) :
    Stores (Handler.modifySettings update) update :=
  fun _ => ⟨(), _, rfl, rfl, rfl, rfl⟩

theorem bind {first : Handler α} {next : α → Handler β} (hfirst : Stores first update)
    (hnext : ∀ value, Stores (next value) later) :
    Stores (first >>= next) fun out => later (update out) := by
  intro state
  obtain ⟨value, middle, hrun, hmiddle⟩ := hfirst state
  obtain ⟨result, after, hrest, hafter⟩ := hnext value middle
  exact ⟨result, after, (run_bind_ok state hrun).trans hrest, by rw [hafter.out, hmiddle.out],
    hafter.gt.trans hmiddle.gt, hafter.server.trans hmiddle.server⟩

theorem lift_bind {value : Except Abort α} {result : α} {next : α → Handler β}
    (hvalue : value = .ok result) (hnext : Stores (next result) update) :
    Stores (lift value >>= next) update := by
  subst hvalue
  exact hnext

theorem catchException {body handler : Handler α} (hbody : Stores body update) :
    Stores (Handler.catchException body handler) update := by
  intro state
  obtain ⟨value, after, hrun, hafter⟩ := hbody state
  refine ⟨value, after, ?_, hafter⟩
  change (tryCatchIf Abort.isStdException body.code _).run state = _
  rw [run_tryCatchIf, hrun]

theorem sendLog (text : Bytes) : Stores (Handler.sendLog text) id := by
  intro state
  cases htarget : state.target true with
  | none => exact ⟨(), state, deliver_run_none htarget _, rfl, rfl, rfl⟩
  | some found =>
      obtain ⟨peer, host⟩ := found
      exact ⟨(), _, sendText_run htarget _ _, rfl, rfl, rfl⟩

/-- A section that a text does not trigger. -/
theorem idle {trigger : String} {action : Bytes → Handler Unit} {packet : Bytes}
    (hidle : IdleWithout trigger action) (habsent : contains packet (ascii trigger) = false) :
    Stores (action packet) id := by
  rw [hidle packet habsent]
  exact pure ()

/-- Sections that store one after the other. -/
theorem runSections {packet : Bytes} {actions : List (Bytes → Handler Unit)}
    {updates : List (Settings → Settings)}
    (hstores : List.Forall₂ (fun action update => Stores (action packet) update) actions updates) :
    Stores (Events.runSections packet actions) fun out =>
      updates.foldl (fun out update => update out) out := by
  induction hstores with
  | nil => exact pure ()
  | cons hfirst _ ih => exact bind hfirst fun _ => ih

/-- A numeric section that is triggered and finds a number. -/
theorem numberField {trigger mark : String} {trim : Bool} {store : Int → Handler Unit}
    {packet rest : Bytes} {value : Int} (htrigger : contains packet (ascii trigger) = true)
    (hfound : substr packet (behind packet (ascii mark) 4) packet.length =
      .ok (toDecimal value ++ rest))
    (hmin : intMin ≤ value) (hmax : value ≤ intMax) (hrest : NoDigit rest)
    (hstore : Stores (store value) update) :
    Stores (Events.numberField trigger mark trim store packet) update := by
  rw [Events.numberField, if_pos htrigger]
  exact catchException (lift_bind hfound (lift_bind (stoi_trimmed hmin hmax hrest trim) hstore))

end Stores

/-! ## Submissions -/

/-- What a player can enter: any choice for a checkbox, any `int`, and a world that fits
into a line and does not end with white space. -/
structure Options where
  autopull : Bool
  wrenchpull : Bool
  fastdrop : Bool
  fasttrash : Bool
  dicespeed : Bool
  worldbanjoinmod : Bool
  visualspin : Bool
  autohosts : Bool
  wltroll : Bool
  ruletsayi : Int
  saveworld : Bytes
  ruletsayi_min : intMin ≤ ruletsayi
  ruletsayi_max : ruletsayi ≤ intMax
  bar_free : bar ∉ saveworld
  newline_free : newline ∉ saveworld
  trimmed : ∀ byte, saveworld.getLast? = some byte → isSpace byte = false

namespace Options

/-- The fields that are numbers, in the order of the page. -/
def numbers (options : Options) : List (Bytes × Int) :=
  [(ascii "roulette2", options.autopull.toInt), (ascii "wrenchpull", options.wrenchpull.toInt),
    (ascii "fastdrop", options.fastdrop.toInt), (ascii "fasttrash", options.fasttrash.toInt),
    (ascii "dicespeed", options.dicespeed.toInt),
    (ascii "worldbanmod", options.worldbanjoinmod.toInt),
    (ascii "visualspin", options.visualspin.toInt), (ascii "autohosts", options.autohosts.toInt),
    (ascii "wltroll1", options.wltroll.toInt), (ascii "roulette5", options.ruletsayi)]

/-- The fields as they are submitted. -/
def fields (options : Options) : List (Bytes × Bytes) :=
  options.numbers.map (fun field => (field.1, toDecimal field.2)) ++
    [(ascii "saveworld", options.saveworld)]

/-- The lines that the client returns. -/
def lines (options : Options) : List (Bytes × Bytes) :=
  (ascii "action", ascii "dialog_return") :: (ascii "dialog_name", ascii "end") :: options.fields

/-- The text that the client returns, with or without a newline at its end. -/
def text (options : Options) (ending : Bool) : Bytes :=
  Seq.formText bar newline (if ending then [newline] else []) options.lines

/-- The settings after the submission. -/
def store (options : Options) (out : Settings) : Settings :=
  { out with
    autopull := options.autopull
    wrenchpull := options.wrenchpull
    fastdrop := options.fastdrop
    fasttrash := options.fasttrash
    dicespeed := options.dicespeed
    worldbanjoinmod := options.worldbanjoinmod
    visualspin := options.visualspin
    autohosts := options.autohosts
    wltroll := options.wltroll
    ruletsayi := options.ruletsayi
    saveworld := options.saveworld }

/-- The form is returned as the page shows it. -/
def Unmodified (options : Options) (out : Settings) : Prop :=
  options.fields = (pageFields out).map fun field => (ascii field.key, field.shown)

/-- The keys are those of the page, in its order. -/
theorem keys_fields (options : Options) (out : Settings) :
    options.fields.map Prod.fst = (pageFields out).map fun field => ascii field.key := by
  simp only [fields, numbers, pageFields, PageField.checkbox, List.map_cons, List.map_nil,
    List.cons_append, List.nil_append]

theorem toInt_injective {first second : Bool} (hsame : first.toInt = second.toInt) :
    first = second := by
  cases first <;> cases second <;> first | rfl | cases hsame

/-- An unmodified form stores what is there. -/
theorem store_unmodified {options : Options} {out : Settings} (hsame : options.Unmodified out) :
    options.store out = out := by
  simp only [Unmodified, fields, numbers, pageFields, PageField.checkbox, List.map_cons,
    List.map_nil, List.cons_append, List.nil_append, List.cons.injEq, Prod.mk.injEq, true_and,
    and_true] at hsame
  obtain ⟨h1, h2, h3, h4, h5, h6, h7, h8, h9, h10, h11⟩ := hsame
  simp only [store, toInt_injective (toDecimal_injective h1),
    toInt_injective (toDecimal_injective h2), toInt_injective (toDecimal_injective h3),
    toInt_injective (toDecimal_injective h4), toInt_injective (toDecimal_injective h5),
    toInt_injective (toDecimal_injective h6), toInt_injective (toDecimal_injective h7),
    toInt_injective (toDecimal_injective h8), toInt_injective (toDecimal_injective h9),
    toDecimal_injective h10, h11]

/-! ## Finding a line -/

/-- The keys of the lines. -/
def keys : List Bytes :=
  [ascii "action", ascii "dialog_name", ascii "roulette2", ascii "wrenchpull", ascii "fastdrop",
    ascii "fasttrash", ascii "dicespeed", ascii "worldbanmod", ascii "visualspin",
    ascii "autohosts", ascii "wltroll1", ascii "roulette5", ascii "saveworld"]

theorem keys_lines (options : Options) : options.lines.map Prod.fst = keys := rfl

theorem formLines (options : Options) : Seq.FormLines bar newline options.lines := by
  have hkeys : ∀ key ∈ keys, bar ∉ key ∧ newline ∉ key := by decide
  intro line hline
  obtain ⟨hbar, hnewline⟩ := hkeys line.1 (by
    rw [← keys_lines options]
    exact List.mem_map_of_mem hline)
  refine ⟨hbar, hnewline, ?_⟩
  rw [lines, List.mem_cons, List.mem_cons, fields, List.mem_append, List.mem_map,
    List.mem_singleton] at hline
  rcases hline with rfl | rfl | ⟨field, -, rfl⟩ | rfl
  · decide
  · decide
  · exact not_mem_toDecimal (by decide) (by decide) field.2
  · exact options.bar_free

/-- The bar of a mark and the end of a key in front of it. -/
def stem (mark : String) : Bytes := (ascii mark).takeWhile (· ≠ bar)

/-- The mark, a part of the trigger's line, is first found in the line with this number. -/
def locates (trigger mark : String) (number : Nat) : Bool :=
  decide (ascii trigger <:+: keys.getD number [] ++ [bar]) &&
    decide (ascii mark = stem mark ++ [bar]) && decide ((stem mark).length = 3) &&
    decide (newline ∉ stem mark) && decide (stem mark <:+ keys.getD number []) &&
    decide (∀ key ∈ keys.take number, ¬ stem mark <:+ key)

theorem bar_not_mem_stem (mark : String) : bar ∉ stem mark := by
  intro hmem
  have hbar := List.mem_takeWhile_imp hmem
  exact absurd hbar (by decide)

/-- The lines up to the last field are short. -/
theorem length_line_le (options : Options) :
    ∀ line ∈ options.lines.take 12, line.1.length + line.2.length + 2 ≤ 30 := by
  have hnumbers : ∀ field ∈ options.numbers, field.1.length ≤ 17 ∧
      intMin ≤ field.2 ∧ field.2 ≤ intMax := by
    have hflag (checked : Bool) : intMin ≤ checked.toInt ∧ checked.toInt ≤ intMax := by
      cases checked <;> decide
    simp only [numbers, List.forall_mem_cons, hflag, and_true]
    exact ⟨by decide, by decide, by decide, by decide, by decide, by decide, by decide, by decide,
      by decide, ⟨by decide, options.ruletsayi_min, options.ruletsayi_max⟩, by simp⟩
  have htake : options.lines.take 12 = (ascii "action", ascii "dialog_return") ::
      (ascii "dialog_name", ascii "end") ::
        options.numbers.map fun field => (field.1, toDecimal field.2) := rfl
  intro line hline
  rw [htake, List.mem_cons, List.mem_cons, List.mem_map] at hline
  rcases hline with rfl | rfl | ⟨field, hfield, rfl⟩
  · decide
  · decide
  · obtain ⟨hkey, hmin, hmax⟩ := hnumbers field hfield
    have hvalue := length_toDecimal_le hmin hmax
    dsimp only
    omega

variable {options : Options} {ending : Bool}

/-- What a section with such a mark reads: the value of the line, and the later lines. -/
theorem substr_behind {trigger mark : String} {number : Nat} {key value : Bytes}
    (hnumber : number ≤ 12) (hlocates : locates trigger mark number = true)
    (hline : options.lines[number]? = some (key, value)) :
    contains (options.text ending) (ascii trigger) = true ∧
      substr (options.text ending) (behind (options.text ending) (ascii mark) 4)
        (options.text ending).length = .ok (value ++
          Seq.moreLines bar newline (if ending then [newline] else [])
            (options.lines.drop (number + 1))) := by
  simp only [locates, Bool.and_eq_true, decide_eq_true_eq] at hlocates
  obtain ⟨⟨⟨⟨⟨htrigger, hmark⟩, hlength⟩, hnewline⟩, hsuffix⟩, hfirst⟩ := hlocates
  obtain ⟨hbound, hget⟩ := List.getElem?_eq_some_iff.mp hline
  have hsplit : options.lines =
      options.lines.take number ++ (key, value) :: options.lines.drop (number + 1) := by
    rw [← hget, List.getElem_cons_drop, List.take_append_drop]
  have hkey : keys.getD number [] = key := by
    rw [← keys_lines options, List.getD_eq_getElem?_getD, List.getElem?_map, hline]
    rfl
  rw [hkey] at htrigger hsuffix
  have hearlier : ∀ earlier ∈ options.lines.take number, ¬ stem mark <:+ earlier.1 := by
    intro earlier hmem
    apply hfirst earlier.1
    rw [← keys_lines options, ← List.map_take]
    exact List.mem_map_of_mem hmem
  have hlines := formLines options
  rw [hsplit] at hlines
  obtain ⟨hkeyBar, hkeyNewline, -⟩ := hlines _ (List.mem_append_right _ List.mem_cons_self)
  have htext : options.text ending = Seq.formText bar newline (if ending then [newline] else [])
      (options.lines.take number ++ (key, value) :: options.lines.drop (number + 1)) := by
    rw [text, ← hsplit]
  rw [htext]
  constructor
  · -- no earlier key ends with this one, for it would end with the mark
    obtain ⟨front, hfront, -⟩ := @Seq.formText_find_some _ _ bar newline
      (if ending then [newline] else []) (by decide) key hkeyBar hkeyNewline _ _ _ hlines
      (fun earlier hmem hends => hearlier earlier hmem (hsuffix.trans hends)) (List.suffix_refl _)
    rw [contains, Seq.find_isSome_iff, hfront]
    refine htrigger.trans ⟨front, value ++ Seq.moreLines bar newline
      (if ending then [newline] else []) (options.lines.drop (number + 1)), ?_⟩
    simp only [List.append_assoc, List.cons_append, List.nil_append]
  · obtain ⟨front, hfront, hfind, hfar⟩ := @Seq.formText_find_some _ _ bar newline
      (if ending then [newline] else []) (by decide) (stem mark) (bar_not_mem_stem mark) hnewline
      _ _ _ hlines hearlier hsuffix
    have hshort : ∀ line ∈ options.lines.take number, line.1.length + line.2.length + 2 ≤ 30 :=
      fun line hmem =>
        length_line_le options line ((List.take_prefix_take_left hnumber).subset hmem)
    have hmany := @Seq.moreLines_length_le _ bar newline 30 _ hshort
    have hkeyLength : key.length ≤ 30 := by
      have hkeys : ∀ key ∈ keys, key.length ≤ 30 := by decide
      apply hkeys key
      rw [← keys_lines options]
      exact List.mem_map_of_mem (List.mem_of_getElem? hline)
    have hcount : (options.lines.take number).length ≤ 12 := by
      rw [List.length_take]
      omega
    have hposition : behind (Seq.formText bar newline (if ending then [newline] else [])
        (options.lines.take number ++ (key, value) :: options.lines.drop (number + 1)))
        (ascii mark) 4 = front.length + 4 := by
      have hfull := Nat.mul_le_mul_right 30 hcount
      dsimp only at hfar
      rw [behind, findPos, hmark, hfind, Option.getD_some, addSize, Nat.mod_eq_of_lt (by omega)]
    have hbehind (rest : Bytes) : front ++ (stem mark ++ bar :: rest) =
        (front ++ (stem mark ++ [bar])) ++ rest := by
      simp only [List.append_assoc, List.cons_append, List.nil_append]
    rw [hposition, hfront, hbehind]
    refine substr_append ?_ (List.suffix_append _ _).length_le
    rw [List.length_append, List.length_append, List.length_singleton, hlength]

/-- A line is not continued by a digit. -/
theorem noDigit_moreLines (lines : List (Bytes × Bytes)) :
    NoDigit (Seq.moreLines bar newline (if ending then [newline] else []) lines) := by
  intro byte hbyte
  cases lines with
  | nil =>
      cases ending with
      | false => cases hbyte
      | true =>
          cases hbyte
          decide
  | cons line lines =>
      cases hbyte
      decide

/-- A numeric section stores the value of its line. -/
theorem number_stores (number : Nat) {trigger mark : String} {key : Bytes} {value : Int}
    {trim : Bool} {store : Int → Handler Unit} {update : Settings → Settings}
    (hnumber : number ≤ 12) (hlocates : locates trigger mark number = true)
    (hline : options.lines[number]? = some (key, toDecimal value))
    (hmin : intMin ≤ value) (hmax : value ≤ intMax) (hstore : Stores (store value) update) :
    Stores (numberField trigger mark trim store (options.text ending)) update := by
  obtain ⟨htrigger, hfound⟩ := @substr_behind options ending _ _ _ _ _ hnumber hlocates hline
  exact .numberField htrigger hfound hmin hmax (noDigit_moreLines _) hstore

/-- A section that sets a flag and says so. -/
theorem loggedFlag_stores (number : Nat) {trigger mark : String} {key : Bytes} {checked : Bool}
    {trim : Bool} {set : Bool → Settings → Settings} {log : Int → Handler Unit}
    (hnumber : number ≤ 12) (hlocates : locates trigger mark number = true)
    (hline : options.lines[number]? = some (key, toDecimal checked.toInt))
    (hlog : ∀ value, Stores (log value) id) :
    Stores (numberField trigger mark trim (fun value => do
      modifySettings (set (value ≠ 0))
      log value) (options.text ending)) (set checked) := by
  have hvalue : decide (checked.toInt ≠ 0) = checked := by cases checked <;> decide
  refine number_stores number hnumber hlocates hline (by cases checked <;> decide)
    (by cases checked <;> decide) ?_
  rw [hvalue]
  exact @Stores.bind _ _ _ id _ _ (.modifySettings _) fun _ => hlog _

theorem flag_stores (number : Nat) {trigger mark : String} {key : Bytes} {checked : Bool}
    {trim : Bool} {set : Bool → Settings → Settings} (hnumber : number ≤ 12)
    (hlocates : locates trigger mark number = true)
    (hline : options.lines[number]? = some (key, toDecimal checked.toInt)) :
    Stores (flagField trigger mark trim set (options.text ending)) (set checked) := by
  have hvalue : decide (checked.toInt ≠ 0) = checked := by cases checked <;> decide
  refine number_stores number hnumber hlocates hline (by cases checked <;> decide)
    (by cases checked <;> decide) ?_
  rw [hvalue]
  exact .modifySettings _

theorem wltroll_stores :
    Stores (wltrollField (options.text ending)) fun out =>
      { out with wltroll := options.wltroll } := by
  refine @loggedFlag_stores options ending 10 _ _ _ options.wltroll _
    (fun value out => { out with wltroll := value }) _ (by decide) (by decide) rfl fun value => ?_
  by_cases hset : value ≠ 0
  · rw [if_pos hset]
    exact .sendLog _
  · rw [if_neg hset]
    exact .sendLog _

theorem worldbanjoinmod_stores :
    Stores (worldbanjoinmodField (options.text ending)) fun out =>
      { out with worldbanjoinmod := options.worldbanjoinmod } := by
  refine @loggedFlag_stores options ending 7 _ _ _ options.worldbanjoinmod _
    (fun value out => { out with worldbanjoinmod := value }) _ (by decide) (by decide) rfl
    fun value => ?_
  by_cases hset : value ≠ 0
  · rw [if_pos hset]
    exact .sendLog _
  · rw [if_neg hset]
    exact .pure ()

theorem ruletsayi_stores :
    Stores (ruletsayiField (options.text ending)) fun out =>
      { out with ruletsayi := options.ruletsayi } :=
  @number_stores options ending 11 _ _ _ options.ruletsayi _ _ _ (by decide) (by decide) rfl
    options.ruletsayi_min options.ruletsayi_max (.modifySettings _)

theorem saveworld_stores :
    Stores (saveworldField (options.text ending)) fun out =>
      { out with saveworld := options.saveworld } := by
  obtain ⟨htrigger, hfound⟩ := @substr_behind options ending "saveworld|" "rld|" 12 _ _ (by decide)
    (by decide) rfl
  have htrim : trimRight (options.saveworld ++ Seq.moreLines bar newline
      (if ending then [newline] else []) (options.lines.drop (12 + 1))) = options.saveworld := by
    change trimRight (options.saveworld ++ if ending then [newline] else []) = _
    cases ending with
    | false => rw [if_neg (by decide), List.append_nil, trimRight_eq_self options.trimmed]
    | true => rw [if_pos rfl, trimRight_concat (by decide), trimRight_eq_self options.trimmed]
  rw [saveworldField, if_pos htrigger]
  refine .catchException (.lift_bind hfound ?_)
  rw [htrim]
  exact .modifySettings _

/-! ## All sections -/

/-- No key ends with the stem of the trigger. -/
def foreign (trigger : String) : Bool :=
  decide (ascii trigger = stem trigger ++ bar :: (ascii trigger).drop (stem trigger).length.succ) &&
    decide (newline ∉ stem trigger) && decide (∀ key ∈ keys, ¬ stem trigger <:+ key)

theorem foreign_absent {trigger : String} (hforeign : foreign trigger = true) :
    contains (options.text ending) (ascii trigger) = false := by
  simp only [foreign, Bool.and_eq_true, decide_eq_true_eq] at hforeign
  obtain ⟨⟨hsplit, hnewline⟩, hkeys⟩ := hforeign
  have hending : bar ∉ (if ending then [newline] else []) := by cases ending <;> decide
  rw [contains, hsplit, text, Seq.formText_find_none (by decide) (bar_not_mem_stem trigger)
    hnewline (by simp [lines]) (formLines options) hending]
  · rfl
  · intro line hline hends
    refine absurd hends (hkeys line.1 ?_)
    rw [← keys_lines options]
    exact List.mem_map_of_mem hline

/-- The client returns a dialog; this is no wrench action. -/
theorem wrench_absent : contains (options.text ending) (ascii "action|wrench") = false := by
  have hending : bar ∉ (if ending then [newline] else []) := by cases ending <;> decide
  have hsplit : ascii "action|wrench" = ascii "action" ++ bar :: ascii "wrench" := rfl
  rw [contains, hsplit, text, Seq.formText_find_none (by decide) (by decide) (by decide)
    (by simp [lines]) (formLines options) hending]
  · rfl
  · intro line hline hends more
    rw [lines, List.mem_cons] at hline
    rcases hline with rfl | hlater
    · intro hstart
      exact absurd (List.cons_prefix_cons.mp hstart).1 (by decide)
    · have hkeys : ∀ key ∈ keys.drop 1, ¬ ascii "action" <:+ key := by decide
      refine absurd hends (hkeys line.1 ?_)
      rw [← keys_lines options]
      exact List.mem_map_of_mem hlater

/-- What each section does with a submission. -/
def updates (options : Options) : List (Settings → Settings) :=
  [fun out => { out with autopull := options.autopull },
    fun out => { out with fastdrop := options.fastdrop },
    fun out => { out with fasttrash := options.fasttrash },
    fun out => { out with visualspin := options.visualspin }, id, id,
    fun out => { out with wltroll := options.wltroll }, id,
    fun out => { out with ruletsayi := options.ruletsayi },
    fun out => { out with dicespeed := options.dicespeed },
    fun out => { out with worldbanjoinmod := options.worldbanjoinmod },
    fun out => { out with wrenchpull := options.wrenchpull },
    fun out => { out with autohosts := options.autohosts }, id, id, id,
    fun out => { out with saveworld := options.saveworld }, id, id, id, id, id, id, id, id, id]

theorem sections_store (options : Options) (ending : Bool) :
    List.Forall₂ (fun action update => Stores (action (options.text ending)) update)
      formSections options.updates := by
  have hnumber {trigger mark : String} {trim : Bool} {store : Int → Handler Unit}
      (hforeign : foreign trigger = true) :
      Stores (numberField trigger mark trim store (options.text ending)) id :=
    .idle (numberField_idle store) (foreign_absent hforeign)
  have hinput {trigger mark : String} {trim : Bool} {store : Int → Handler Unit}
      (hforeign : foreign trigger = true) :
      Stores (inputField trigger mark trim store (options.text ending)) id :=
    .idle (inputField_idle store) (foreign_absent hforeign)
  have hbutton {action : Bytes → Handler Unit} (trigger : String)
      (hidle : IdleWithout trigger action) (hforeign : foreign trigger = true) :
      Stores (action (options.text ending)) id := .idle hidle (foreign_absent hforeign)
  unfold formSections updates
  refine .cons ?autopull <| .cons ?fastdrop <| .cons ?fasttrash <| .cons ?visualspin <|
    .cons (hnumber (by decide)) <| .cons (hnumber (by decide)) <| .cons wltroll_stores <|
    .cons (hnumber (by decide)) <| .cons ruletsayi_stores <| .cons ?dicespeed <|
    .cons worldbanjoinmod_stores <| .cons ?wrenchpull <| .cons ?autohosts ?later
  case autopull => exact flag_stores 2 (by decide) (by decide) rfl
  case fastdrop => exact flag_stores 4 (by decide) (by decide) rfl
  case fasttrash => exact flag_stores 5 (by decide) (by decide) rfl
  case visualspin => exact flag_stores 8 (by decide) (by decide) rfl
  case dicespeed => exact flag_stores 6 (by decide) (by decide) rfl
  case wrenchpull => exact flag_stores 3 (by decide) (by decide) rfl
  case autohosts => exact flag_stores 9 (by decide) (by decide) rfl
  case later =>
      exact .cons (hbutton "countryzz|" idle_ite (by decide)) <|
        .cons (hbutton "buttonClicked|optionzzz" idle_ite (by decide)) <|
        .cons (hinput (by decide)) <| .cons saveworld_stores <| .cons (hinput (by decide)) <|
        .cons (hbutton "buttonClicked|iso11pul1" idle_ite (by decide)) <|
        .cons (hbutton "buttonClicked|bannj" idle_ite (by decide)) <|
        .cons (hbutton "buttonClicked|kicj" idle_ite (by decide)) <|
        .cons (hinput (by decide)) <|
        .cons (hbutton "buttonClicked|killall" idle_ite (by decide)) <|
        .cons (hbutton "buttonClicked|banall" idle_ite (by decide)) <|
        .cons (hbutton "buttonClicked|pullall" idle_ite (by decide)) <|
        .cons (hbutton "buttonClicked|ubaworld" idle_ite (by decide)) .nil

/-! ## The whole handler -/

theorem foldl_updates (options : Options) (out : Settings) :
    options.updates.foldl (fun out update => update out) out = options.store out := by
  simp only [updates, List.foldl_cons, List.foldl_nil, id, store]

theorem head_parse (options : Options) (ending : Bool) :
    (Rtvar.parse (options.text ending)).mPairs.head? =
      some (Pair.parse (ascii "action|dialog_return")) := by
  have hstart : options.text ending = ascii "action|dialog_return" ++ newline ::
      (Seq.moreLines bar newline (if ending then [newline] else []) options.lines.tail).tail := by
    have hsome : options.lines ≠ [] := by simp [lines]
    have htext :=
      @Seq.newline_cons_formText _ bar newline (if ending then [newline] else []) _ hsome
    rw [lines, Seq.moreLines, List.cons.injEq] at htext
    rw [text, lines, htext.2]
    rfl
  rw [Rtvar.parse_eq, hstart, Seq.getlines_append_cons (by decide)]
  rfl

/-- A submission is stored and passed on. A form that is returned as it was shown changes
nothing. -/
theorem options_stored (options : Options) (ending : Bool) (state : ProxyState) :
    ∃ after, (Out.generictext (options.text ending)).code.run state = .ok false after ∧
      Stored options.store state after ∧
      (options.Unmodified state.out → after.out = state.out) := by
  obtain ⟨⟨⟩, after, hsections, hafter⟩ := Stores.runSections (sections_store options ending) state
  have hstored : Stored options.store state after :=
    ⟨hafter.out.trans (foldl_updates options state.out), hafter.gt, hafter.server⟩
  have hhead := head_parse options ending
  have hvalid : (Rtvar.parse (options.text ending)).valid = true := by
    unfold Rtvar.valid
    obtain ⟨rest, hpairs⟩ := List.head?_eq_some_iff.mp hhead
    rw [hpairs]
    rfl
  have hwrench : ¬ Out.WrenchAction after.out (options.text ending) := by
    intro hwrench
    rw [Out.WrenchAction, wrench_absent] at hwrench
    cases hwrench.2
  have hinput : ¬ Out.IsInput (options.text ending) := by
    rintro ⟨head, hfound, -, hvalue⟩
    rw [hhead] at hfound
    cases hfound
    exact absurd hvalue (by decide)
  refine ⟨after, ?_, hstored, fun hsame => ?_⟩
  · rw [Out.generictext_run hvalid hsections hwrench hinput, Out.remainder,
      if_neg (by rw [foreign_absent (by decide)]; decide)]
    rfl
  · rw [hstored.out, store_unmodified hsame]

/-- A form with some boxes ticked, a negative number and a world. -/
def mixed : Options where
  autopull := true
  wrenchpull := false
  fastdrop := true
  fasttrash := false
  dicespeed := false
  worldbanjoinmod := true
  visualspin := true
  autohosts := false
  wltroll := true
  ruletsayi := -17
  saveworld := ascii "START"
  ruletsayi_min := by decide
  ruletsayi_max := by decide
  bar_free := by decide
  newline_free := by decide
  trimmed := by decide +kernel

/-- The form changes what it names, and nothing when it is returned once more. -/
theorem options_stored_mixed :
    ∃ after again, (Out.generictext (mixed.text true)).code.run {} = .ok false after ∧
      (Out.generictext (mixed.text false)).code.run after = .ok false again ∧
      (after.out.autopull, after.out.wrenchpull, after.out.worldbanjoinmod) = (true, false, true) ∧
      (after.out.ruletsayi, after.out.saveworld) = (-17, ascii "START") ∧
      again.out = after.out := by
  obtain ⟨after, hrun, hstored, -⟩ := options_stored mixed true {}
  obtain ⟨again, hreturn, -, hsame⟩ := options_stored mixed false after
  refine ⟨after, again, hrun, hreturn, ?_, ?_, hsame ?_⟩
  · rw [hstored.out]
    rfl
  · rw [hstored.out]
    rfl
  · rw [hstored.out]
    rfl

end Options

end SrmotionProxy.Events
