/-
# Drop and trash dialogs

What auto tax, fast drop and fast trash do with the dialogs they are meant for: which item
they take the dialog to be about, and what the server gets to read.
-/

import SrmotionProxy.DialogRequest
import SrmotionProxy.Proton.RtvarText

namespace SrmotionProxy.Events.In

open SrmotionProxy.Lib SrmotionProxy.Proton SrmotionProxy.Handler SrmotionProxy.ENet

/-! ## Replies -/

/-- The reply that the drop and trash sections send. -/
def itemReply (dialog : String) (itemid count : Bytes) : Bytes :=
  ascii "action|dialog_return\ndialog_name|" ++ ascii dialog ++ ascii "\nitemID|" ++ itemid ++
    ascii "|\ncount|" ++ count

/-- A pair with one value. -/
def pairOf (key value : Bytes) : Pair := { mKey := key, mValues := [value], mValue := value }

/-- The four pairs that a reply should consist of. -/
def replyVar (dialog : String) (item count : Nat) : Rtvar where
  mPairs := [pairOf (ascii "action") (ascii "dialog_return"),
    pairOf (ascii "dialog_name") (ascii dialog),
    pairOf (ascii "itemID") (toDecimal item), pairOf (ascii "count") (toDecimal count)]

/-- The text is a number, perhaps with a bar and a newline behind it. -/
def Closes (text number : Bytes) : Prop :=
  ∃ line, (text = line ∨ text = line ++ [newline]) ∧ (line = number ∨ line = number ++ [bar])

section Parsing

variable {value text : Bytes} {number : Nat}

theorem bar_not_mem_toDecimal (number : Nat) : bar ∉ toDecimal number :=
  not_mem_toDecimal (by decide) (by decide) _

theorem newline_not_mem_toDecimal (number : Nat) : newline ∉ toDecimal number :=
  not_mem_toDecimal (by decide) (by decide) _

theorem toDecimal_ne_nil (number : Int) : toDecimal number ≠ [] := by
  obtain ⟨front, last, hdecimal, -⟩ := toDecimal_concat number
  rw [hdecimal]
  exact List.append_ne_nil_of_right_ne_nil _ (List.cons_ne_nil _ _)

/-- A line with a key has one value exactly if one token follows the key. -/
theorem parse_keyLine_iff {key : Bytes} (hkey : bar ∉ key) :
    Pair.parse (key ++ bar :: text) = pairOf key value ↔ Seq.getlines bar text = [value] := by
  have htokens : Seq.getlines bar (key ++ bar :: text) = key :: Seq.getlines bar text :=
    Seq.getlines_append_cons hkey text
  rw [Pair.parse_of_tokens htokens, pairOf]
  constructor
  · intro hpair
    exact (Pair.mk.injEq .. ▸ hpair).2.1
  · intro hvalues
    rw [hvalues, joined, List.intercalate_singleton]

/-- The line of the item, with the bar that is put behind it. -/
theorem parse_itemLine_iff {key itemid : Bytes} (hkey : bar ∉ key) (hvalue : bar ∉ value)
    (hsome : value ≠ []) :
    Pair.parse (key ++ bar :: (itemid ++ [bar])) = pairOf key value ↔ itemid = value := by
  rw [parse_keyLine_iff hkey]
  constructor
  · intro htokens
    by_cases hmem : bar ∈ itemid
    · -- the bar inside the item starts another token
      obtain ⟨front, rest, rfl, -⟩ := List.eq_append_cons_of_mem hmem
      have hmany := @Seq.two_le_length_getlines _ _ bar (rest ++ [bar]) (by simp) front
      rw [List.append_assoc, List.cons_append] at htokens
      rw [htokens, List.length_singleton] at hmany
      omega
    · rw [Seq.getlines_append_cons hmem [], List.cons.injEq] at htokens
      exact htokens.1
  · rintro rfl
    exact Seq.getlines_append_cons hvalue []

/-- The line of the amount. -/
theorem parse_countLine_iff {key : Bytes} (hkey : bar ∉ key) (hvalue : bar ∉ value)
    (hsome : value ≠ []) :
    Pair.parse (key ++ bar :: text) = pairOf key value ↔
      text = value ∨ text = value ++ [bar] := by
  rw [parse_keyLine_iff hkey, Seq.getlines_eq_singleton_iff hvalue hsome]

/-- The amount at the end of a reply. -/
theorem parse_countLines_iff {key : Bytes} (hkey : bar ∉ key) (hline : newline ∉ key)
    (hvalue : bar ∉ value) (hsome : value ≠ []) (hfree : newline ∉ value) :
    (Seq.getlines newline (key ++ bar :: text)).map Pair.parse = [pairOf key value] ↔
      Closes text value := by
  have hfreeLine {line : Bytes} (hcloses : line = value ∨ line = value ++ [bar]) :
      newline ∉ key ++ bar :: line := by
    have hbar : newline ≠ bar := by decide
    rcases hcloses with rfl | rfl <;> simp [hline, hfree, hbar]
  constructor
  · intro hpairs
    obtain ⟨line, hlines, hparse⟩ := List.map_eq_singleton_iff.mp hpairs
    have hbar : newline ≠ bar := by decide
    by_cases hmem : newline ∈ text
    · obtain ⟨front, rest, rfl, hfront⟩ := List.eq_append_cons_of_mem hmem
      have hfreeFront : newline ∉ key ++ bar :: front := by simp [hline, hfront, hbar]
      rw [← List.cons_append, ← List.append_assoc, Seq.getlines_append_cons hfreeFront,
        List.cons.injEq, Seq.getlines_eq_nil_iff] at hlines
      obtain ⟨rfl, rfl⟩ := hlines
      exact ⟨front, .inr rfl, (parse_countLine_iff hkey hvalue hsome).mp hparse⟩
    · have hfreeText : newline ∉ key ++ bar :: text := by simp [hline, hmem, hbar]
      rw [Seq.getlines_of_free hfreeText (by simp), List.cons.injEq] at hlines
      obtain ⟨rfl, -⟩ := hlines
      exact ⟨text, .inl rfl, (parse_countLine_iff hkey hvalue hsome).mp hparse⟩
  · rintro ⟨line, htext, hcloses⟩
    have hlines : Seq.getlines newline (key ++ bar :: text) = [key ++ bar :: line] := by
      rw [Seq.getlines_eq_singleton_iff (hfreeLine hcloses) (by simp)]
      rcases htext with rfl | rfl
      · exact .inl rfl
      · exact .inr (by simp)
    rw [hlines, List.map_singleton, (parse_countLine_iff hkey hvalue hsome).mpr hcloses]

/-- The lines of a reply. -/
theorem getlines_itemReply {dialog : String} (hdialog : newline ∉ ascii dialog)
    (itemid count : Bytes) : Seq.getlines newline (itemReply dialog itemid count) =
      ascii "action|dialog_return" :: (ascii "dialog_name" ++ bar :: ascii dialog) ::
        Seq.getlines newline ((ascii "itemID" ++ bar :: (itemid ++ [bar])) ++
          newline :: (ascii "count" ++ bar :: count)) := by
  have hfront : ascii "action|dialog_return\ndialog_name|" =
      ascii "action|dialog_return" ++ newline :: (ascii "dialog_name" ++ [bar]) := by decide
  have hmiddle : ascii "\nitemID|" = newline :: (ascii "itemID" ++ [bar]) := by decide
  have hback : ascii "|\ncount|" = bar :: newline :: (ascii "count" ++ [bar]) := by decide
  have hreply : itemReply dialog itemid count = ascii "action|dialog_return" ++ newline ::
      ((ascii "dialog_name" ++ bar :: ascii dialog) ++ newline ::
        ((ascii "itemID" ++ bar :: (itemid ++ [bar])) ++
          newline :: (ascii "count" ++ bar :: count))) := by
    rw [itemReply, hfront, hmiddle, hback]
    simp only [List.append_assoc, List.cons_append, List.nil_append]
  have hname : newline ∉ ascii "dialog_name" ++ bar :: ascii dialog := by
    have hbar : newline ≠ bar := by decide
    have hkey : newline ∉ ascii "dialog_name" := by decide
    simp [hkey, hdialog, hbar]
  rw [hreply, Seq.getlines_append_cons (by decide), Seq.getlines_append_cons hname]

/-- A reply reads as it should exactly if it is of the right kind, its item is a number with
nothing behind it, and its amount is a number with next to nothing behind it. -/
theorem parse_itemReply_iff {dialog expected : String} {itemid count : Bytes} {item number : Nat}
    (hdialog : newline ∉ ascii dialog) (hbar : bar ∉ ascii dialog) (hsome : ascii dialog ≠ []) :
    Rtvar.parse (itemReply dialog itemid count) = replyVar expected item number ↔
      ascii dialog = ascii expected ∧ itemid = toDecimal item ∧
        Closes count (toDecimal number) := by
  have haction : Pair.parse (ascii "action|dialog_return") =
      pairOf (ascii "action") (ascii "dialog_return") := by decide
  have hname : Pair.parse (ascii "dialog_name" ++ bar :: ascii dialog) =
      pairOf (ascii "dialog_name") (ascii dialog) :=
    (parse_keyLine_iff (by decide)).mpr (Seq.getlines_of_free hbar hsome)
  have hnames : pairOf (ascii "dialog_name") (ascii dialog) =
      pairOf (ascii "dialog_name") (ascii expected) ↔ ascii dialog = ascii expected := by
    rw [pairOf, pairOf, Pair.mk.injEq, List.cons.injEq]
    exact ⟨fun h => h.2.2, fun h => ⟨rfl, ⟨h, rfl⟩, h⟩⟩
  rw [Rtvar.parse_eq, getlines_itemReply hdialog, replyVar, Rtvar.mk.injEq, List.map_cons,
    List.map_cons, haction, hname, List.cons.injEq, and_iff_right rfl, List.cons.injEq, hnames]
  refine and_congr_right fun _ => ?_
  by_cases hmem : newline ∈ itemid
  · -- the item brings further lines with it
    refine iff_of_false (fun hpairs => ?_) fun hitem => ?_
    · obtain ⟨front, rest, rfl, hfront⟩ := List.eq_append_cons_of_mem hmem
      have hlines : (ascii "itemID" ++ bar :: (front ++ newline :: rest ++ [bar])) ++
          newline :: (ascii "count" ++ bar :: count) =
          (ascii "itemID" ++ bar :: front) ++
            newline :: ((rest ++ [bar]) ++ newline :: (ascii "count" ++ bar :: count)) := by
        simp only [List.append_assoc, List.cons_append]
      have hkey : newline ∉ ascii "itemID" ++ bar :: front := by
        have hitemid : newline ∉ ascii "itemID" := by decide
        have hne : newline ≠ bar := by decide
        simp [hitemid, hfront, hne]
      have hmany := @Seq.two_le_length_getlines _ _ newline (ascii "count" ++ bar :: count)
        (by simp) (rest ++ [bar])
      rw [hlines, Seq.getlines_append_cons hkey] at hpairs
      have hlength := congrArg List.length hpairs
      simp only [List.map_cons, List.length_cons, List.length_map, List.length_nil] at hlength
      omega
    · rw [hitem.1] at hmem
      exact newline_not_mem_toDecimal item hmem
  · have hkey : newline ∉ ascii "itemID" ++ bar :: (itemid ++ [bar]) := by
      have hitemid : newline ∉ ascii "itemID" := by decide
      have hne : newline ≠ bar := by decide
      simp [hitemid, hmem, hne]
    rw [Seq.getlines_append_cons hkey, List.map_cons, List.cons.injEq,
      parse_itemLine_iff (by decide) (bar_not_mem_toDecimal item) (toDecimal_ne_nil _),
      parse_countLines_iff (by decide) (by decide) (bar_not_mem_toDecimal number)
        (toDecimal_ne_nil _) (newline_not_mem_toDecimal number)]

end Parsing

/-! ## The dialogs -/

/-- The texts by which the handler recognises other dialogs. -/
def otherLabels : List String := [
  "friend_all|Show offline", "Social Portal", "Are you sure you wish to stop ignoring",
  "add_label_with_icon|small|Remove Your Access From World|left|242|",
  "Ok, you will now be able to see chat", "`4Stop ignoring",
  "add_label_with_icon|big|`wEdit World Lock``|left|242|",
  "add_label_with_icon|big|`wEdit World Lock``|left|",
  "add_label_with_icon|big|`wEdit Dice Block``|left|456|",
  "add_label_with_icon|big|`wAre you Human?``|left|206|",
  "add_label_with_icon|big|`wThe Growtopia Gazette``|left|5016|"]

/-- The text has the line. -/
def HasLine (content line : Bytes) : Prop :=
  ∃ before after, content = before ++ (line ++ after) ∧
    (before = [] ∨ ∃ front, before = front ++ [newline]) ∧
    (after = [] ∨ ∃ rest, after = newline :: rest)

/-- A dialog with a label and the line of an item, which is not one of the other dialogs. -/
structure ItemDialog (label : String) (content : Bytes) (item : Nat) : Prop where
  shows : Shows content label
  line : HasLine content (ascii "embed_data|itemID|" ++ toDecimal item)
  plain : ∀ other ∈ otherLabels, ¬ Shows content other

namespace ItemDialog

variable {label : String} {content : Bytes} {item : Nat} {varlist : VariantList}
  {state : ProxyState}

/-- The dialog reaches the sections about items as it came. -/
theorem run (hdialog : ItemDialog label (varlist 1).getString item) :
    (onDialogRequest varlist).code.run state =
      (firstDecision [taxSection varlist (varlist 1).getString,
        fastdropSection (varlist 1).getString, fastmmodeSection (varlist 1).getString,
        fasttrashSection (varlist 1).getString,
        wrenchSection varlist (varlist 1).getString]).code.run state := by
  have hplain := hdialog.plain
  unfold onDialogRequest
  dsimp only
  generalize (varlist 1).getString = content at hplain
  have hresolving : (resolvingSection content).code.run state = .ok none state := by
    rw [resolvingSection_run, if_neg, if_neg, if_neg, if_neg]
    · rfl
    · exact fun hanswers => hplain "`4Stop ignoring" (by simp [otherLabels]) hanswers.2
    · exact fun hanswers =>
        hplain "Ok, you will now be able to see chat" (by simp [otherLabels]) hanswers.2
    · exact hplain _ (by simp [otherLabels])
    · rintro (⟨-, hfriends | hportal⟩ | hignoring)
      · exact hplain "friend_all|Show offline" (by simp [otherLabels]) hfriends
      · exact hplain "Social Portal" (by simp [otherLabels]) hportal
      · exact hplain "Are you sure you wish to stop ignoring" (by simp [otherLabels]) hignoring
  have hwltroll : (wltrollSection content).code.run state = .ok none state := by
    unfold wltrollSection
    rw [getSettings_bind, if_neg]
    · rfl
    · rw [Bool.and_eq_true]
      exact fun htrolls => hplain "add_label_with_icon|big|`wEdit World Lock``|left|242|"
        (by simp [otherLabels]) htrolls.2
  have hworldLock : (worldLockSection content).code.run state = .ok none state := by
    unfold worldLockSection
    rw [if_neg (hplain "add_label_with_icon|big|`wEdit World Lock``|left|"
      (by simp [otherLabels]))]
    rfl
  have hdicemod : (dicemodSection content).code.run state = .ok none state := by
    unfold dicemodSection
    rw [getSettings_bind, if_neg]
    · rfl
    · rw [Bool.and_eq_true]
      exact fun hedits => hplain "add_label_with_icon|big|`wEdit Dice Block``|left|456|"
        (by simp [otherLabels]) hedits.2
  have hcaptcha : (captchaSection content).code.run state = .ok none state := by
    unfold captchaSection
    rw [if_neg]
    · rfl
    · rw [Bool.and_eq_true]
      exact fun hasks => hplain "add_label_with_icon|big|`wAre you Human?``|left|206|"
        (by simp [otherLabels]) hasks.2
  have hgazette : (gazetteSection varlist content).code.run state = .ok none state := by
    unfold gazetteSection
    rw [if_neg (hplain "add_label_with_icon|big|`wThe Growtopia Gazette``|left|5016|"
      (by simp [otherLabels]))]
    rfl
  rw [firstDecision_pass hresolving, firstDecision_pass hwltroll, firstDecision_pass hworldLock,
    firstDecision_pass hdicemod, firstDecision_pass hcaptcha, firstDecision_pass hgazette]

end ItemDialog

/-! ## What is sent -/

/-- What the handler takes for the amount of a dialog that drops: everything behind the first
mark. -/
def countText (content : Bytes) : Bytes := content.drop (sliceStart content (ascii "count||") 7)

/-- What the handler takes for the amount of a dialog that trashes. -/
def ownedText (content : Bytes) : Bytes :=
  let rest := content.drop (sliceStart content (ascii "you have ") 9)
  rest.take (findPos rest (ascii ")"))

/-- The reply has been sent to the server. -/
def Replied (state after : ProxyState) (reply : Bytes) : Prop :=
  ∃ peer host, state.target false = some (peer, host) ∧
    after = state.sendAndFlush .built peer host
      (textPacket reply NET_MESSAGE_GENERIC_TEXT.toNat)

section Sending

variable {content : Bytes} {state after : ProxyState}

theorem dropReply_eq (itemid count : Bytes) :
    ascii "action|dialog_return\ndialog_name|drop_item\nitemID|" ++ itemid ++
      ascii "|\ncount|" ++ count = itemReply "drop_item" itemid count := by
  have hfront : ascii "action|dialog_return\ndialog_name|drop_item\nitemID|" =
      ascii "action|dialog_return\ndialog_name|" ++ ascii "drop_item" ++ ascii "\nitemID|" := by
    decide
  rw [itemReply, hfront]

theorem trashReply_eq (itemid count : Bytes) :
    ascii "action|dialog_return\ndialog_name|trash_item\nitemID|" ++ itemid ++
      ascii "|\ncount|" ++ count = itemReply "trash_item" itemid count := by
  have hfront : ascii "action|dialog_return\ndialog_name|trash_item\nitemID|" =
      ascii "action|dialog_return\ndialog_name|" ++ ascii "trash_item" ++ ascii "\nitemID|" := by
    decide
  rw [itemReply, hfront]

/-- A reply, and nothing more to do. -/
def answer (reply : Bytes) : Section := do
  sendServer reply
  return some true

theorem answer_eq_ok {reply : Bytes} {result : Option Bool}
    (hrun : (answer reply).code.run state = .ok result after) :
    result = some true ∧ (after = state ∨ Replied state after reply) := by
  obtain ⟨_, sent, hsend, hreturn⟩ := Confined.bind_eq_ok hrun
  cases hreturn
  exact ⟨rfl, Handler.sendText_eq_ok hsend⟩

theorem answer_run {peer : Peer} {host : Host} (htarget : state.target false = some (peer, host))
    (reply : Bytes) : (answer reply).code.run state =
      .ok (some true) (state.sendAndFlush .built peer host
        (textPacket reply NET_MESSAGE_GENERIC_TEXT.toNat)) :=
  run_bind_ok state (Handler.sendText_run htarget reply _)

/-- Fast drop on a dialog that can be sliced. -/
theorem fastdropSection_run (hlength : content.length + 32 < 2 ^ 64)
    (hslices : DropSliceable content) (state : ProxyState) :
    (fastdropSection content).code.run state =
      (if state.out.fastdrop = true ∧ Offers content "Drop" then
        answer (itemReply "drop_item" (itemText content) (countText content))
      else return none : Section).code.run state := by
  unfold fastdropSection
  rw [getSettings_bind]
  by_cases hdrop : state.out.fastdrop = true
  · simp only [hdrop, true_and, if_true]
    rw [(dropSlices hlength _ state).1 hslices]
    simp only [Bool.and_eq_true, dropReply_eq]
    rfl
  · simp only [hdrop]
    rfl

/-- Fast trash on a dialog that can be sliced. -/
theorem fasttrashSection_run (hlength : content.length + 32 < 2 ^ 64)
    (hitem : Sliceable content (ascii "embed_data|itemID|") 18)
    (howned : Sliceable content (ascii "you have ") 9) (state : ProxyState) :
    (fasttrashSection content).code.run state =
      (if state.out.fasttrash = true ∧ Offers content "Trash" then
        answer (itemReply "trash_item" (itemText content) (ownedText content))
      else return none : Section).code.run state := by
  have hcount : restBehind content (ascii "you have ") 9 = _ :=
    restBehind_eq (by decide) (by omega)
  unfold fasttrashSection
  rw [getSettings_bind]
  by_cases htrash : state.out.fasttrash = true
  · simp only [htrash, true_and, if_true]
    rw [restBehind_item hlength hitem, hcount, if_pos howned]
    simp only [Bool.and_eq_true, substr_zero, trashReply_eq]
    rfl
  · simp only [htrash]
    rfl

end Sending

/-! ## Auto tax -/

/-- The handler ends with what its tax branch does. -/
def TaxBranch (varlist : VariantList) (state : ProxyState) : Prop :=
  ∃ verdict after, (taxSection varlist (varlist 1).getString).code.run state =
      .ok (some verdict) after ∧ (onDialogRequest varlist).code.run state = .ok verdict after

/-- The marks in front of which buttons are put, with the buttons. -/
def buttonPlaces : List (String × Bytes) := [
  ("add_button|report_player|`wReport Player``|noflags|0|0|", playerButtons),
  ("add_button|my_worlds|`$My Worlds``|noflags|0|0|", menuButtons)]

/-- The buttons of one place have been put in front of its mark in the dialog, and it has been
sent on. -/
def Extended (varlist : VariantList) (state after : ProxyState) : Prop :=
  ∃ peer host mark buttons packet, (mark, buttons) ∈ buttonPlaces ∧
    Shows (varlist 1).getString mark ∧ state.target true = some (peer, host) ∧
    callFunctionPacket (varlist.modify 1 (Variant.setString
      (withButtons (varlist 1).getString (ascii mark) buttons))) (-1) (-1) = .ok packet ∧
    after = state.sendAndFlush .built peer host packet

/-- Nothing that is sent has to do with a tax: there is at most a reply with the item and the
amount of the dialog itself, or the dialog itself with more buttons. -/
def Untaxed (varlist : VariantList) (state after : ProxyState) : Prop :=
  after = state ∨
    Replied state after (itemReply "drop_item" (itemText (varlist 1).getString)
      (countText (varlist 1).getString)) ∨
    Replied state after (itemReply "trash_item" (itemText (varlist 1).getString)
      (ownedText (varlist 1).getString)) ∨
    Extended varlist state after

/-- The tax branch is taken for world locks only. -/
def TaxesLocksOnly (varlist : VariantList) (state : ProxyState) (item : Nat) : Prop :=
  (TaxBranch varlist state ↔ item = 242) ∧
    (item ≠ 242 → ∀ verdict after, (onDialogRequest varlist).code.run state = .ok verdict after →
      Untaxed varlist state after)

section Taxing

variable {varlist : VariantList} {state after : ProxyState} {item : Nat} {label : String}

theorem firstDecision_eq_ok {first : Section} {rest : List Section} {verdict : Bool}
    (hrun : (firstDecision (first :: rest)).code.run state = .ok verdict after) :
    first.code.run state = .ok (some verdict) after ∨
      ∃ middle, first.code.run state = .ok none middle ∧
        (firstDecision rest).code.run middle = .ok verdict after := by
  obtain ⟨decision, middle, hfirst, hrest⟩ := Confined.bind_eq_ok hrun
  cases decision with
  | none => exact .inr ⟨middle, hfirst, hrest⟩
  | some found =>
      cases hrest
      exact .inl hfirst

theorem fastmmode_eq_ok {content : Bytes} {result : Option Bool}
    (hrun : (fastmmodeSection content).code.run state = .ok result after) : after = state := by
  unfold fastmmodeSection at hrun
  rw [getSettings_bind] at hrun
  by_cases hmode : (state.out.taxsystem && state.out.fastmmode) = true
  · rw [if_pos hmode] at hrun
    obtain ⟨itemid, _, hitem, hnext⟩ := Confined.bind_eq_ok hrun
    obtain ⟨-, rfl⟩ := Confined.ofExcept_eq_ok hitem
    obtain ⟨count, _, hcount, hrest⟩ := Confined.bind_eq_ok hnext
    obtain ⟨-, rfl⟩ := Confined.ofExcept_eq_ok hcount
    by_cases hlock : (contains content (ascii "embed_data|itemID|") &&
        contains content (ascii "Drop") && contains itemid (ascii "242")) = true
    · rw [if_pos hlock] at hrest
      cases hrest
      rfl
    · rw [if_neg hlock] at hrest
      cases hrest
      rfl
  · rw [if_neg hmode] at hrun
    cases hrun
    rfl

theorem insertButtons_eq_ok {mark : String} {buttons : Bytes} {result : Option Bool}
    (hplace : (mark, buttons) ∈ buttonPlaces) (hshows : Shows (varlist 1).getString mark)
    (hrun : (insertButtons varlist (varlist 1).getString (ascii mark) buttons).code.run state =
      .ok result after) : after = state ∨ Extended varlist state after := by
  obtain ⟨_, sent, hsend, hreturn⟩ := Confined.bind_eq_ok hrun
  cases hreturn
  rcases sendVariant_eq_ok hsend with ⟨-, rfl⟩ | ⟨peer, host, packet, htarget, hpacket, rfl⟩
  · exact .inl rfl
  · exact .inr ⟨peer, host, mark, buttons, packet, hplace, hshows, htarget, hpacket, rfl⟩

theorem wrench_eq_ok {result : Option Bool}
    (hrun : (wrenchSection varlist (varlist 1).getString).code.run state = .ok result after) :
    after = state ∨ Extended varlist state after := by
  unfold wrenchSection at hrun
  rw [getSettings_bind] at hrun
  dsimp only at hrun
  by_cases hpull : state.out.wrenchpull = true
  · rw [if_pos hpull] at hrun
    obtain ⟨_, _, hslice, hrest⟩ := Confined.bind_eq_ok hrun
    obtain ⟨-, rfl⟩ := Confined.ofExcept_eq_ok hslice
    by_cases hshows : (contains (varlist 1).getString (ascii "set_default_color|`o") &&
        contains (varlist 1).getString (ascii "embed_data|netID")) = true
    · rw [if_pos hshows] at hrest
      cases hrest
      exact .inl rfl
    · rw [if_neg hshows] at hrest
      cases hrest
      exact .inl rfl
  · rw [if_neg hpull] at hrun
    by_cases hreport : contains (varlist 1).getString
        (ascii "add_button|report_player|`wReport Player``|noflags|0|0|") = true
    · rw [if_pos hreport] at hrun
      exact insertButtons_eq_ok List.mem_cons_self hreport hrun
    · rw [if_neg hreport] at hrun
      by_cases hworlds : contains (varlist 1).getString
          (ascii "add_button|my_worlds|`$My Worlds``|noflags|0|0|") = true
      · rw [if_pos hworlds] at hrun
        exact insertButtons_eq_ok (List.mem_cons_of_mem _ List.mem_cons_self) hworlds hrun
      · rw [if_neg hworlds] at hrun
        cases hrun
        exact .inl rfl

namespace ItemDialog

theorem split (hdialog : ItemDialog label (varlist 1).getString item) :
    ∃ before after, (varlist 1).getString =
      before ++ (ascii "embed_data|itemID|" ++ (toDecimal item ++ after)) := by
  obtain ⟨before, after, hcontent, -⟩ := hdialog.line
  exact ⟨before, after, by rw [hcontent, List.append_assoc]⟩

theorem offers (hdialog : ItemDialog label (varlist 1).getString item) :
    Offers (varlist 1).getString label := by
  obtain ⟨before, after, hcontent⟩ := hdialog.split
  exact ⟨shows_of_split hcontent, hdialog.shows⟩

/-- All the slices of such a dialog begin inside it. -/
theorem slices (hdialog : ItemDialog label (varlist 1).getString item) :
    DropSliceable (varlist 1).getString ∧
      Sliceable (varlist 1).getString (ascii "you have ") 9 := by
  have hmark : (ascii "embed_data|itemID|").length = 18 := by decide
  have hlong : 18 ≤ (varlist 1).getString.length := by
    obtain ⟨before, after, hcontent⟩ := hdialog.split
    have hlength := congrArg List.length hcontent
    simp only [List.length_append, hmark] at hlength
    omega
  refine ⟨⟨sliceable_of_contains hmark hdialog.offers.1, ?_⟩, ?_⟩
  · exact (sliceable_iff (by decide)).mpr (.inr (by omega))
  · exact (sliceable_iff (by decide)).mpr (.inr (by omega))

/-- The number of the item is somewhere in what is taken for the item. -/
theorem item_infix (hdialog : ItemDialog label (varlist 1).getString item) :
    toDecimal item <:+: itemText (varlist 1).getString := by
  obtain ⟨before, after, hcontent⟩ := hdialog.split
  have hsuffix := suffix_slice (by decide : (ascii "embed_data|itemID|").length = 18) hcontent
  exact (List.prefix_append (toDecimal item) after).isInfix.trans hsuffix.isInfix

/-- A dialog in which no world lock is seen is not taxed. -/
theorem untaxed (hdialog : ItemDialog label (varlist 1).getString item)
    (hlength : (varlist 1).getString.length + 32 < 2 ^ 64) {verdict : Bool}
    (hrun : (firstDecision [fastdropSection (varlist 1).getString,
      fastmmodeSection (varlist 1).getString, fasttrashSection (varlist 1).getString,
      wrenchSection varlist (varlist 1).getString]).code.run state = .ok verdict after) :
    Untaxed varlist state after := by
  obtain ⟨hslices, howned⟩ := hdialog.slices
  have hsection {reply : Bytes} {cond : Prop} [Decidable cond] {start last : ProxyState}
      {result : Option Bool}
      (hpart : (if cond then answer reply else return none : Section).code.run start =
        .ok result last) :
      (result = none ∧ last = start) ∨
        (result = some true ∧ (last = start ∨ Replied start last reply)) := by
    by_cases hcond : cond
    · rw [if_pos hcond] at hpart
      exact .inr (answer_eq_ok hpart)
    · rw [if_neg hcond] at hpart
      cases hpart
      exact .inl ⟨rfl, rfl⟩
  rcases firstDecision_eq_ok hrun with hdrop | ⟨dropped, hdrop, hrest⟩
  · rw [fastdropSection_run hlength hslices] at hdrop
    obtain ⟨hnone, -⟩ | ⟨-, hsame | hreplied⟩ := hsection hdrop
    · cases hnone
    · exact .inl hsame
    · exact .inr (.inl hreplied)
  rw [fastdropSection_run hlength hslices] at hdrop
  obtain ⟨-, rfl⟩ | ⟨hsome, -⟩ := hsection hdrop
  swap
  · cases hsome
  rcases firstDecision_eq_ok hrest with hmode | ⟨passed, hmode, hlater⟩
  · exact .inl (fastmmode_eq_ok hmode)
  cases fastmmode_eq_ok hmode
  rcases firstDecision_eq_ok hlater with htrash | ⟨trashed, htrash, hlast⟩
  · rw [fasttrashSection_run hlength hslices.1 howned] at htrash
    obtain ⟨hnone, -⟩ | ⟨-, hsame | hreplied⟩ := hsection htrash
    · cases hnone
    · exact .inl hsame
    · exact .inr (.inr (.inl hreplied))
  rw [fasttrashSection_run hlength hslices.1 howned] at htrash
  obtain ⟨-, rfl⟩ | ⟨hsome, -⟩ := hsection htrash
  swap
  · cases hsome
  rcases firstDecision_eq_ok hlast with hwrench | ⟨done, hwrench, hend⟩
  · exact (wrench_eq_ok hwrench).imp_right fun hextended => .inr (.inr hextended)
  · cases hend
    exact (wrench_eq_ok hwrench).imp_right fun hextended => .inr (.inr hextended)

end ItemDialog

/-- The tax branch is taken when the text behind the first mark contains the digits of a world
lock and a number follows the amount's mark. -/
theorem taxBranch_iff (hsendable : varlist.Sendable)
    (hstrings : ∀ slot, (varlist slot).mString.length ≤ maximumPacketSize)
    (hdialog : ItemDialog "Drop" (varlist 1).getString item)
    (htax : state.out.taxsystem = true) :
    TaxBranch varlist state ↔ Shows (itemText (varlist 1).getString) "242" ∧
      NumberBehind (varlist 1).getString (ascii "count||") 7 := by
  have hcontent : (varlist 1).getString.length ≤ maximumPacketSize := hstrings 1
  have hlength : (varlist 1).getString.length + 32 < 2 ^ 64 := by
    unfold maximumPacketSize at hcontent
    omega
  have hfollows := tax_follows hsendable hstrings hlength
  constructor
  · rintro ⟨verdict, after, hrun, -⟩
    have hlock : DropsLock (varlist 1).getString := by
      by_contra hpasses
      rw [taxSection_run hlength, if_neg fun htaxes => hpasses htaxes.2] at hrun
      cases hrun
    refine ⟨hlock.2, ?_⟩
    by_contra hnumber
    obtain ⟨failure, last, hfail⟩ := hfollows.throws state ⟨⟨htax, hlock⟩, hnumber⟩
    rw [hfail] at hrun
    cases hrun
  · rintro ⟨hshows, hnumber⟩
    have htaxes : state.out.taxsystem = true ∧ DropsLock (varlist 1).getString :=
      ⟨htax, hdialog.offers, hshows⟩
    obtain ⟨verdict, last, hrun⟩ := hfollows.decides state (fun hthrows => hthrows.2 hnumber) htaxes
    exact ⟨verdict, last, hrun, hdialog.run.trans (firstDecision_decide hrun)⟩

/-- Auto tax acts on world locks only exactly if the item is a world lock with an amount, or no
part of what follows the first mark looks like one. -/
theorem taxesLocksOnly_iff (hsendable : varlist.Sendable)
    (hstrings : ∀ slot, (varlist slot).mString.length ≤ maximumPacketSize)
    (hdialog : ItemDialog "Drop" (varlist 1).getString item)
    (htax : state.out.taxsystem = true) :
    TaxesLocksOnly varlist state item ↔
      (item = 242 ∧ NumberBehind (varlist 1).getString (ascii "count||") 7) ∨
      (item ≠ 242 ∧ ¬ (Shows (itemText (varlist 1).getString) "242" ∧
        NumberBehind (varlist 1).getString (ascii "count||") 7)) := by
  have hcontent : (varlist 1).getString.length ≤ maximumPacketSize := hstrings 1
  have hlength : (varlist 1).getString.length + 32 < 2 ^ 64 := by
    unfold maximumPacketSize at hcontent
    omega
  rw [TaxesLocksOnly, taxBranch_iff hsendable hstrings hdialog htax]
  by_cases hitem : item = 242
  · have hshows : Shows (itemText (varlist 1).getString) "242" := by
      have hdigits := hdialog.item_infix
      rw [hitem] at hdigits
      exact Seq.find_isSome_iff.mpr hdigits
    simp only [hitem, true_and, iff_true, ne_eq, not_true_eq_false, false_and, or_false,
      false_implies, and_true]
    exact and_iff_right hshows
  · simp only [hitem, iff_false, false_and, false_or, ne_eq, not_false_eq_true, true_and,
      forall_true_left, and_iff_left_iff_imp]
    intro hplain verdict after hrun
    rw [hdialog.run] at hrun
    by_cases hlock : DropsLock (varlist 1).getString
    · have hfollows := tax_follows hsendable hstrings hlength
      obtain ⟨failure, last, hfail⟩ := hfollows.throws state
        ⟨⟨htax, hlock⟩, fun hnumber => hplain ⟨hlock.2, hnumber⟩⟩
      rw [firstDecision_throw hfail] at hrun
      cases hrun
    · have hpass : (taxSection varlist (varlist 1).getString).code.run state = .ok none state := by
        rw [taxSection_run hlength, if_neg fun htaxes => hlock htaxes.2]
        rfl
      rw [firstDecision_pass hpass] at hrun
      exact hdialog.untaxed hlength hrun

end Taxing

/-- A request to drop an item. -/
def dropList (text : String) : VariantList :=
  (VariantList.ofString (ascii "OnDialogRequest")).modify 1 (Variant.setString (ascii text))

/-- World locks are taxed. -/
theorem taxesLocksOnly_lock :
    TaxesLocksOnly (dropList "Drop\ncount||5\nembed_data|itemID|242")
      { out := { taxsystem := true } } 242 := by
  have hplain : ∀ other ∈ otherLabels,
      ¬ Shows (ascii "Drop\ncount||5\nembed_data|itemID|242") other := by
    unfold otherLabels
    repeat first
      | exact fun _ hnone => absurd hnone List.not_mem_nil
      | refine List.forall_mem_cons.mpr ⟨not_shows_ofList (by decide), ?_⟩
  have hdialog : ItemDialog "Drop" (ascii "Drop\ncount||5\nembed_data|itemID|242") 242 :=
    ⟨by decide, ⟨ascii "Drop\ncount||5\n", [], by decide,
      .inr ⟨ascii "Drop\ncount||5", by decide⟩, .inl rfl⟩, hplain⟩
  exact (@taxesLocksOnly_iff (dropList "Drop\ncount||5\nembed_data|itemID|242")
    { out := { taxsystem := true } } 242 (by decide) (by decide) hdialog rfl).mpr
    (.inl ⟨rfl, by decide, 5, by decide, by decide, by decide⟩)

/-- A dialog of the usual form, about item 1242. -/
def dirtDialog : String := "Drop\nadd_text_input|count||5|5|\nembed_data|itemID|1242"

theorem itemDialog_dirt : ItemDialog "Drop" (ascii dirtDialog) 1242 := by
  refine ⟨by decide, ⟨ascii "Drop\nadd_text_input|count||5|5|\n", [], by decide,
    .inr ⟨ascii "Drop\nadd_text_input|count||5|5|", by decide⟩, .inl rfl⟩, ?_⟩
  unfold otherLabels dirtDialog
  repeat first
    | exact fun _ hnone => absurd hnone List.not_mem_nil
    | refine List.forall_mem_cons.mpr ⟨not_shows_ofList (by decide), ?_⟩

/-- Item 1242 is taxed as well. -/
theorem taxesLocksOnly_fails : ItemDialog "Drop" (ascii dirtDialog) 1242 ∧
    ¬ TaxesLocksOnly (dropList dirtDialog) { out := { taxsystem := true } } 1242 := by
  refine ⟨itemDialog_dirt, fun hlocks => ?_⟩
  have hbranch := (@taxBranch_iff (dropList dirtDialog) { out := { taxsystem := true } } 1242
    (by decide) (by decide) itemDialog_dirt rfl).mpr
    ⟨by decide, by decide, 5, by decide, by decide, by decide⟩
  exact absurd (hlocks.1.mp hbranch) (by decide)

/-! ## Automatic replies -/

/-- The one thing sent is a reply with exactly this item and this amount. -/
def RepliesExactly (dialog : String) (varlist : VariantList) (state : ProxyState)
    (item count : Nat) : Prop :=
  ∃ after text, (onDialogRequest varlist).code.run state = .ok true after ∧
    Replied state after text ∧ Rtvar.parse text = replyVar dialog item count

section Replying

variable {varlist : VariantList} {state : ProxyState} {peer : Peer} {host : Host}
  {item count : Nat} {label : String}

/-- When a reply is sent, the question is how it reads. -/
theorem repliesExactly_iff_parse (htarget : state.target false = some (peer, host))
    {dialog : String} {reply : Bytes}
    (hrun : (onDialogRequest varlist).code.run state = .ok true (state.sendAndFlush .built peer
      host (textPacket reply NET_MESSAGE_GENERIC_TEXT.toNat))) :
    RepliesExactly dialog varlist state item count ↔
      Rtvar.parse reply = replyVar dialog item count := by
  constructor
  · rintro ⟨after, text, hother, ⟨otherPeer, otherHost, hfound, hafter⟩, hparse⟩
    cases htarget.symm.trans hfound
    rw [hrun, hafter, EStateM.Result.ok.injEq, and_iff_right rfl, ProxyState.sendAndFlush,
      ProxyState.sendAndFlush, ProxyState.mk.injEq] at hother
    obtain ⟨-, -, -, -, -, -, htrace⟩ := hother
    rw [List.cons.injEq, List.cons.injEq, Call.peerSend.injEq] at htrace
    rwa [textPacket_injective htrace.2.1.2.2.1]
  · exact fun hparse => ⟨_, reply, hrun, ⟨peer, host, htarget, rfl⟩, hparse⟩

namespace ItemDialog

/-- Without the tax system fast drop answers. -/
theorem run_fastdrop (hdialog : ItemDialog label (varlist 1).getString item)
    (hlength : (varlist 1).getString.length + 32 < 2 ^ 64)
    (htarget : state.target false = some (peer, host)) (htax : state.out.taxsystem = false)
    (hdrop : state.out.fastdrop = true) (hshows : Shows (varlist 1).getString "Drop") :
    (onDialogRequest varlist).code.run state = .ok true (state.sendAndFlush .built peer host
      (textPacket (itemReply "drop_item" (itemText (varlist 1).getString)
        (countText (varlist 1).getString)) NET_MESSAGE_GENERIC_TEXT.toNat)) := by
  have hpass : (taxSection varlist (varlist 1).getString).code.run state = .ok none state := by
    rw [taxSection_run hlength, if_neg fun htaxes => by simp [htax] at htaxes]
    rfl
  have hanswer := fastdropSection_run hlength hdialog.slices.1 state
  rw [if_pos ⟨hdrop, hdialog.offers.1, hshows⟩, answer_run htarget] at hanswer
  rw [hdialog.run, firstDecision_pass hpass, firstDecision_decide hanswer]

/-- Without the tax system and with nothing to drop fast trash answers. -/
theorem run_fasttrash (hdialog : ItemDialog "Trash" (varlist 1).getString item)
    (hlength : (varlist 1).getString.length + 32 < 2 ^ 64)
    (htarget : state.target false = some (peer, host)) (htax : state.out.taxsystem = false)
    (hdrop : ¬ (state.out.fastdrop = true ∧ Shows (varlist 1).getString "Drop"))
    (htrash : state.out.fasttrash = true) :
    (onDialogRequest varlist).code.run state = .ok true (state.sendAndFlush .built peer host
      (textPacket (itemReply "trash_item" (itemText (varlist 1).getString)
        (ownedText (varlist 1).getString)) NET_MESSAGE_GENERIC_TEXT.toNat)) := by
  obtain ⟨hslices, howned⟩ := hdialog.slices
  have hpass : (taxSection varlist (varlist 1).getString).code.run state = .ok none state := by
    rw [taxSection_run hlength, if_neg fun htaxes => by simp [htax] at htaxes]
    rfl
  have hdropless := fastdropSection_run hlength hslices state
  rw [if_neg fun hdrops => hdrop ⟨hdrops.1, hdrops.2.2⟩] at hdropless
  have hmode : (fastmmodeSection (varlist 1).getString).code.run state = .ok none state := by
    unfold fastmmodeSection
    rw [getSettings_bind, if_neg (by simp [htax])]
    rfl
  have hanswer := fasttrashSection_run hlength hslices.1 howned state
  rw [if_pos ⟨htrash, hdialog.offers⟩, answer_run htarget] at hanswer
  rw [hdialog.run, firstDecision_pass hpass, firstDecision_pass hdropless,
    firstDecision_pass hmode, firstDecision_decide hanswer]

end ItemDialog

/-- A number with at most one bar behind it has no two bars. -/
theorem Closes.count_bar_le {text : Bytes} (hcloses : Closes text (toDecimal count)) :
    text.count bar ≤ 1 := by
  have hnone : (toDecimal count).count bar = 0 :=
    List.count_eq_zero.mpr (bar_not_mem_toDecimal count)
  have hbar : List.count bar [bar] = 1 := by decide
  have hnewline : List.count bar [newline] = 0 := by decide
  obtain ⟨line, rfl | rfl, rfl | rfl⟩ := hcloses <;>
    simp only [List.count_append, hnone, hbar, hnewline] <;> omega

/-- The reply of fast drop never has the amount alone: the bars of the input come with it. -/
theorem countText_not_closes (hinput : ascii "add_text_input|count||" ++ (toDecimal count ++
      ascii "|5|") <:+: (varlist 1).getString) :
    ¬ Closes (countText (varlist 1).getString) (toDecimal count) := by
  obtain ⟨before, after, hcontent⟩ := hinput
  have hmark : ascii "add_text_input|count||" = ascii "add_text_input|" ++ ascii "count||" := by
    decide
  have hsplit : (varlist 1).getString = (before ++ ascii "add_text_input|") ++
      (ascii "count||" ++ ((toDecimal count ++ ascii "|5|") ++ after)) := by
    rw [← hcontent, hmark]
    simp only [List.append_assoc]
  obtain ⟨front, hsuffix⟩ := suffix_slice (by decide : (ascii "count||").length = 7) hsplit
  intro hcloses
  have hfew := hcloses.count_bar_le
  have hbars : (ascii "|5|").count bar = 2 := by decide
  rw [countText, ← hsuffix] at hfew
  simp only [List.count_append, hbars] at hfew
  omega

/-- Fast drop never replies with exactly the item and the amount of the dialog. Fast trash does
exactly if the dialog ends with its item and the first amount in it is the right one. -/
theorem repliesExactly_iff (htarget : state.target false = some (peer, host))
    (htax : state.out.taxsystem = false)
    (hlength : (varlist 1).getString.length ≤ maximumPacketSize) :
    (ItemDialog "Drop" (varlist 1).getString item →
      ascii "add_text_input|count||" ++ (toDecimal count ++ ascii "|5|") <:+:
        (varlist 1).getString →
      state.out.fastdrop = true → ¬ RepliesExactly "drop_item" varlist state item count) ∧
    (ItemDialog "Trash" (varlist 1).getString item →
      ascii "you have " ++ (toDecimal count ++ ascii ")") <:+: (varlist 1).getString →
      state.out.fasttrash = true →
      (RepliesExactly "trash_item" varlist state item count ↔
        ¬ (state.out.fastdrop = true ∧ Shows (varlist 1).getString "Drop") ∧
          itemText (varlist 1).getString = toDecimal item ∧
          Closes (ownedText (varlist 1).getString) (toDecimal count))) := by
  have hshort : (varlist 1).getString.length + 32 < 2 ^ 64 := by
    unfold maximumPacketSize at hlength
    omega
  constructor
  · intro hdialog hinput hdrop
    rw [repliesExactly_iff_parse htarget
      (hdialog.run_fastdrop hshort htarget htax hdrop hdialog.shows),
      parse_itemReply_iff (by decide) (by decide) (by decide)]
    exact fun hreads => countText_not_closes hinput hreads.2.2
  · intro hdialog _ htrash
    by_cases hdrop : state.out.fastdrop = true ∧ Shows (varlist 1).getString "Drop"
    · rw [repliesExactly_iff_parse htarget
        (hdialog.run_fastdrop hshort htarget htax hdrop.1 hdrop.2),
        parse_itemReply_iff (by decide) (by decide) (by decide)]
      exact iff_of_false (fun hreads => absurd hreads.1 (by decide)) fun hfine => hfine.1 hdrop
    · rw [repliesExactly_iff_parse htarget
        (hdialog.run_fasttrash hshort htarget htax hdrop htrash),
        parse_itemReply_iff (by decide) (by decide) (by decide)]
      simp only [hdrop, not_false_eq_true, true_and]

end Replying

/-- A proxy with a server, and only fast drop and fast trash on. -/
def replyingState : ProxyState where
  server := { mServerPeer := some ⟨1, 0⟩, mRealServer := some 1 }
  out := { fastdrop := true, fasttrash := true }

/-- A dialog that ends with its item is answered as it should be. -/
theorem repliesExactly_trash :
    RepliesExactly "trash_item" (dropList "Trash\nyou have 5)\nembed_data|itemID|7")
      replyingState 7 5 := by
  have hplain : ∀ other ∈ otherLabels,
      ¬ Shows (ascii "Trash\nyou have 5)\nembed_data|itemID|7") other := by
    unfold otherLabels
    repeat first
      | exact fun _ hnone => absurd hnone List.not_mem_nil
      | refine List.forall_mem_cons.mpr ⟨not_shows_ofList (by decide), ?_⟩
  have hdialog : ItemDialog "Trash" (ascii "Trash\nyou have 5)\nembed_data|itemID|7") 7 :=
    ⟨by decide, ⟨ascii "Trash\nyou have 5)\n", [], by decide,
      .inr ⟨ascii "Trash\nyou have 5)", by decide⟩, .inl rfl⟩, hplain⟩
  have hphrase : ascii "you have " ++ (toDecimal (5 : Nat) ++ ascii ")") <:+:
      ascii "Trash\nyou have 5)\nembed_data|itemID|7" :=
    ⟨ascii "Trash\n", ascii "\nembed_data|itemID|7", by decide⟩
  refine ((@repliesExactly_iff (dropList "Trash\nyou have 5)\nembed_data|itemID|7") replyingState
    ⟨1, 0⟩ 1 7 5 rfl rfl (by decide)).2 hdialog hphrase rfl).mpr ⟨?_, by decide, ?_⟩
  · exact fun hdrops => absurd hdrops.2 (by decide)
  · exact ⟨ascii "5", .inl (by decide), .inl (by decide)⟩

/-- A dialog of the usual form is not. -/
theorem repliesExactly_fails : ItemDialog "Drop" (ascii dirtDialog) 1242 ∧
    ascii "add_text_input|count||" ++ (toDecimal (5 : Nat) ++ ascii "|5|") <:+: ascii dirtDialog ∧
      ¬ RepliesExactly "drop_item" (dropList dirtDialog) replyingState 1242 5 := by
  have hinput : ascii "add_text_input|count||" ++ (toDecimal (5 : Nat) ++ ascii "|5|") <:+:
      ascii dirtDialog := ⟨ascii "Drop\n", ascii "\nembed_data|itemID|1242", by decide⟩
  have hrun := @ItemDialog.run_fastdrop (dropList dirtDialog) replyingState ⟨1, 0⟩ 1 1242 "Drop"
    itemDialog_dirt (by decide) rfl rfl rfl itemDialog_dirt.shows
  refine ⟨itemDialog_dirt, hinput, ?_⟩
  rw [repliesExactly_iff_parse rfl hrun, parse_itemReply_iff (by decide) (by decide) (by decide)]
  exact fun hreads => countText_not_closes hinput hreads.2.2

end SrmotionProxy.Events.In
