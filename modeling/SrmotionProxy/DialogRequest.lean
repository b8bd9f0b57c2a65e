/-
# Dialog requests

The sections of `OnDialogRequest` do what their stages say. The handler gets through a
dialog exactly if no section throws before one of them has decided.
-/

import SrmotionProxy.DialogStages
import SrmotionProxy.Lib.Decimal

namespace SrmotionProxy.Events.In

open SrmotionProxy.Lib SrmotionProxy.Proton SrmotionProxy.Handler SrmotionProxy.ENet

/-! ## The sections follow their stages -/

theorem Ends.decides {part : Section} {verdict : Bool} (hends : Ends part (some verdict))
    (state : ProxyState) : ∃ verdict last, part.code.run state = .ok (some verdict) last :=
  ⟨verdict, hends state⟩

section Guarding

variable {part : Section} {cond : Flags → Prop} [∀ flags, Decidable (cond flags)]
  {safe : Prop} {body : ProxyState → Section}

/-- A section that acts under a condition, and then decides unless it throws. -/
theorem Follows.guarded (hrun : ∀ state, part.code.run state =
      (if cond (flagsOf state) then body state else return none).code.run state)
    (hends : safe → ∀ state, ∃ verdict, Ends (body state) (some verdict))
    (hfails : ¬ safe → ∀ state, Fails (body state)) :
    Follows part fun flags => { throws := cond flags ∧ ¬ safe, decides := cond flags } := by
  refine ⟨fun state hthrows => ?_, fun state hfine hdecides => ?_, fun state _ hpasses => ?_⟩
  · rw [hrun, if_pos hthrows.1]
    exact hfails hthrows.2 state state
  · rw [hrun, if_pos hdecides]
    have hsafe : safe := by
      by_contra hunsafe
      exact hfine ⟨hdecides, hunsafe⟩
    obtain ⟨verdict, hverdict⟩ := hends hsafe state
    exact ⟨verdict, hverdict state⟩
  · rw [hrun, if_neg hpasses]
    exact ⟨state, rfl, rfl⟩

/-- A section that slices under a condition, and decides if the dialog is the right one. -/
theorem Follows.sliced {offers : Prop} (hrun : ∀ state, part.code.run state =
      (if cond (flagsOf state) then body state else return none).code.run state)
    (hends : safe → offers → ∀ state, ∃ verdict, Ends (body state) (some verdict))
    (hpass : safe → ¬ offers → ∀ state, (body state).code.run state = .ok none state)
    (hfails : ¬ safe → ∀ state, Fails (body state)) :
    Follows part fun flags =>
      { throws := cond flags ∧ ¬ safe, decides := cond flags ∧ offers } := by
  have hsafe {state : ProxyState} (hfine : ¬ (cond (flagsOf state) ∧ ¬ safe))
      (hcond : cond (flagsOf state)) : safe := by
    by_contra hunsafe
    exact hfine ⟨hcond, hunsafe⟩
  refine ⟨fun state hthrows => ?_, fun state hfine hdecides => ?_, fun state hfine hpasses => ?_⟩
  · rw [hrun, if_pos hthrows.1]
    exact hfails hthrows.2 state state
  · rw [hrun, if_pos hdecides.1]
    obtain ⟨verdict, hverdict⟩ := hends (hsafe hfine hdecides.1) hdecides.2 state
    exact ⟨verdict, hverdict state⟩
  · rw [hrun]
    by_cases hcond : cond (flagsOf state)
    · rw [if_pos hcond]
      exact ⟨state, hpass (hsafe hfine hcond) (fun hoffers => hpasses ⟨hcond, hoffers⟩) state, rfl⟩
    · rw [if_neg hcond]
      exact ⟨state, rfl, rfl⟩

end Guarding

/-! ### Lengths of literals -/

theorem length_ascii_ofList (symbols : List Char) :
    (ascii (String.ofList symbols)).length = symbols.length := by
  rw [ascii, List.length_map, String.toList_ofList]

/-- Literals of at most so many symbols. -/
inductive Short (bound : Nat) : List String → Prop
  | nil : Short bound []
  | cons {symbols : List Char} {literals : List String} (hfirst : symbols.length ≤ bound)
      (hrest : Short bound literals) : Short bound (String.ofList symbols :: literals)

theorem Short.length_texts_le {bound : Nat} {literals : List String}
    (hshort : Short bound literals) : (texts literals).length ≤ bound * literals.length := by
  induction hshort with
  | nil => exact Nat.zero_le _
  | @cons symbols literals hfirst _ ih =>
      rw [texts] at ih
      rw [texts, List.flatMap_cons, List.length_append, length_ascii_ofList, List.length_cons,
        Nat.mul_succ]
      omega

theorem length_gazette_le : gazette.length ≤ 32 * maximumPacketSize := by
  have hshort : Short 200 _ → gazette.length ≤ _ := Short.length_texts_le
  refine (hshort ?_).trans (by decide)
  -- the literals are gone through one by one
  repeat (first | exact .nil | refine .cons (by decide) ?_)

/-! ### Section by section -/

section Following

variable {content : Bytes}

theorem tileAt_returns_iff (hlength : content.length + 32 < 2 ^ 64) (mark : String) :
    (∃ value, tileAt content mark = .ok value) ↔ NumberBehind content (ascii mark) 17 :=
  numberBehind_iff (by decide) (by omega)

/-- Both coordinates are read in one of the sections. -/
theorem readTile_ends {β : Type} {next : Int → Int → Handler β} {result : β}
    (hlength : content.length + 32 < 2 ^ 64) (htile : TileReadable content)
    (hnext : ∀ x y, Ends (next x y) result) :
    Ends (do
      let x ← lift (tileAt content "embed_data|tilex|")
      let y ← lift (tileAt content "embed_data|tiley|")
      next x y) result := by
  obtain ⟨x, hx⟩ := (tileAt_returns_iff hlength _).mpr htile.1
  obtain ⟨y, hy⟩ := (tileAt_returns_iff hlength _).mpr htile.2
  exact (Ends.lift hx).bind ((Ends.lift hy).bind (hnext x y))

theorem readTile_fails {β : Type} {next : Int → Int → Handler β}
    (hlength : content.length + 32 < 2 ^ 64) (htile : ¬ TileReadable content) :
    Fails (do
      let x ← lift (tileAt content "embed_data|tilex|")
      let y ← lift (tileAt content "embed_data|tiley|")
      next x y) := by
  by_cases hx : NumberBehind content (ascii "embed_data|tilex|") 17
  · obtain ⟨x, hread⟩ := (tileAt_returns_iff hlength _).mpr hx
    have hy : ∀ y, tileAt content "embed_data|tiley|" ≠ .ok y := fun y hread =>
      htile ⟨hx, (tileAt_returns_iff hlength _).mp ⟨y, hread⟩⟩
    exact .after (.lift hread) (.bind (.lift hy))
  · exact .bind (.lift fun x hread => hx ((tileAt_returns_iff hlength _).mp ⟨x, hread⟩))

theorem wltroll_follows (hlength : content.length + 32 < 2 ^ 64) :
    Follows (wltrollSection content) (wltrollStage content) := by
  refine @Follows.guarded _ _ _ _ ?_ (fun state => ?_) (fun htile state => ?_)
    fun htile state => ?_
  rotate_left
  · unfold wltrollSection
    rw [getSettings_bind]
    simp only [Bool.and_eq_true]
    rfl
  · exact ⟨true, readTile_ends hlength htile fun x y => (Ends.sendServer _).bind (.pure _)⟩
  · exact readTile_fails hlength htile

theorem diceReply_ends (x y : Int) (label value : String) :
    Ends (diceReply x y label value) (some true) :=
  (Ends.sendLog _).bind ((Ends.sendServer _).bind (.pure _))

theorem dicemod_follows (hlength : content.length + 32 < 2 ^ 64) :
    Follows (dicemodSection content) (dicemodStage content) := by
  refine @Follows.guarded _ _ _ _ ?_ (fun state => ?_) (fun htile state => ?_)
    fun htile state => ?_
  rotate_left
  · unfold dicemodSection
    rw [getSettings_bind]
    simp only [Bool.and_eq_true]
    rfl
  · refine ⟨true, readTile_ends hlength htile fun x y => ?_⟩
    by_cases hpublic :
        Shows content "add_checkbox|checkbox_public|Usable by public|0"
    · rw [if_pos hpublic]
      exact diceReply_ends _ _ _ _
    · rw [if_neg hpublic]
      exact diceReply_ends _ _ _ _
  · exact readTile_fails hlength htile

theorem length_replace_nil_le (text pattern : Bytes) :
    (replace text pattern []).length ≤ text.length := by
  unfold replace replaceFirst
  cases Seq.find pattern text with
  | none => exact Nat.le_refl _
  | some position =>
      simp only [List.append_nil, List.length_append, List.length_take, List.length_drop]
      omega

/-- Reading the sum. -/
theorem solveCaptcha_ends (hsum : SumReadable content) : Ends (solveCaptcha content) () := by
  obtain ⟨position, hfind, hfits⟩ := hsum
  have hnumber : substr (captchaSum content) 0 (findPos (captchaSum content) (ascii " +")) =
      .ok ((captchaSum content).take position) := by
    rw [substr_zero, findPos, hfind, Option.getD_some]
  have hrest : substr (captchaSum content) (((captchaSum content).take position).length + 3)
      (captchaSum content).length = .ok _ := if_pos (by rw [List.length_take]; omega)
  unfold solveCaptcha
  exact (Ends.lift hnumber).bind ((Ends.lift hrest).bind
    ((Ends.sendLog _).bind (Ends.sendServer _)))

theorem solveCaptcha_fails (hlength : content.length < npos) (hsum : ¬ SumReadable content) :
    Fails (solveCaptcha content) := by
  have hshort : (captchaSum content).length ≤ content.length :=
    (length_replace_nil_le _ _).trans (length_replace_nil_le _ _)
  have hnumber : substr (captchaSum content) 0 (findPos (captchaSum content) (ascii " +")) =
      .ok ((captchaSum content).take (findPos (captchaSum content) (ascii " +"))) :=
    substr_zero _ _
  have hrest (rest : Bytes) : substr (captchaSum content)
      (((captchaSum content).take (findPos (captchaSum content) (ascii " +"))).length + 3)
      (captchaSum content).length ≠ .ok rest := by
    intro hread
    rw [substr, List.length_take, findPos] at hread
    cases hfind : Seq.find (ascii " +") (captchaSum content) with
    | none =>
        rw [hfind, Option.getD_none, if_neg (by omega)] at hread
        cases hread
    | some position =>
        have hposition := (Seq.find_eq_some_iff.mp hfind).1
        rw [hfind, Option.getD_some, if_neg fun hfits => hsum ⟨position, hfind, by omega⟩] at hread
        cases hread
  unfold solveCaptcha
  exact .after (.lift hnumber) (.bind (.lift hrest))

theorem captcha_follows (hlength : content.length + 32 < 2 ^ 64) :
    Follows (captchaSection content) (captchaStage content) := by
  refine @Follows.guarded _ _ _ _ ?_ (fun state => ?_) (fun hsum state => ?_)
    fun hsum state => ?_
  rotate_left
  · unfold captchaSection
    simp only [Bool.and_eq_true]
    rfl
  · exact ⟨true, (solveCaptcha_ends hsum).bind (.pure _)⟩
  · exact .bind (solveCaptcha_fails (by unfold npos; omega) hsum)

theorem sendLog_flags (text : Bytes) (state : ProxyState) :
    ∃ last, (sendLog text).code.run state = .ok () last ∧ flagsOf last = flagsOf state := by
  cases htarget : state.target true with
  | none => exact ⟨state, Handler.deliver_run_none htarget _, rfl⟩
  | some pair =>
      obtain ⟨peer, host⟩ := pair
      exact ⟨_, Handler.sendText_run htarget _ _, rfl⟩

theorem worldLock_follows (hlength : content.length + 32 < 2 ^ 64) :
    Follows (worldLockSection content) (worldLockStage content) := by
  refine ⟨fun state hthrows => ?_, fun _ _ hfalse => hfalse.elim, fun state hfine _ => ?_⟩
  · obtain ⟨hshows, htile⟩ := hthrows
    unfold worldLockSection
    rw [if_pos hshows]
    refine Fails.after (.sendLog _) ?_ state
    by_cases hx : NumberBehind content (ascii "embed_data|tilex|") 17
    · obtain ⟨x, hread⟩ := (tileAt_returns_iff hlength _).mpr hx
      refine .after (.lift hread) (.after (.modifySettings _) (.bind (.lift fun y hread => ?_)))
      exact htile ⟨hx, (tileAt_returns_iff hlength _).mp ⟨y, hread⟩⟩
    · exact .bind (.lift fun x hread => hx ((tileAt_returns_iff hlength _).mp ⟨x, hread⟩))
  · unfold worldLockSection
    by_cases hshows : Shows content "add_label_with_icon|big|`wEdit World Lock``|left|"
    · have htile : TileReadable content := by
        by_contra htile
        exact hfine ⟨hshows, htile⟩
      obtain ⟨x, hx⟩ := (tileAt_returns_iff hlength _).mpr htile.1
      obtain ⟨y, hy⟩ := (tileAt_returns_iff hlength _).mpr htile.2
      obtain ⟨logged, hlog, hflags⟩ := sendLog_flags (ascii "find world lock x,y path.") state
      rw [if_pos hshows]
      refine ⟨{ logged with out := { logged.out with wlx := x, wly := y } },
        (run_bind_ok state hlog).trans ?_, hflags⟩
      rw [hx, hy]
      rfl
    · rw [if_neg hshows]
      exact ⟨state, rfl, rfl⟩

theorem gazette_follows {varlist : VariantList} (hsendable : varlist.Sendable)
    (hstrings : ∀ slot, (varlist slot).mString.length ≤ maximumPacketSize) :
    Follows (gazetteSection varlist content) (gazetteStage content) := by
  refine ⟨fun _ hfalse => hfalse.elim, fun state _ hshows => ?_, fun state _ hpasses => ?_⟩
  · obtain ⟨packet, received, hpacket, -⟩ :=
      @withText_decodes _ hsendable hstrings _ length_gazette_le (-1) 0 (by decide) (by decide)
    unfold gazetteSection
    rw [if_pos (show contains content _ = true from hshows)]
    exact Ends.decides ((Ends.sendVariant hpacket).bind (.pure _)) state
  · unfold gazetteSection
    rw [if_neg (show ¬ contains content _ = true from hpasses)]
    exact ⟨state, rfl, rfl⟩

/-- The dialog that replaces a dialog that drops world locks. -/
def lockPage (count : Int) : Bytes :=
  texts [
    "set_default_color|`o\nadd_label_with_icon|big|`wDrop World Lock``|left|242|\n",
    "add_textbox|How many to drop?|left|\nadd_text_input|count||"] ++
    toDecimal count ++ ascii "|5|\nembed_data|itemID|242\nend_dialog|drop_item|Cancel|OK|"

theorem taxedCount_range (count yuzde : Int) :
    intMin ≤ taxedCount count yuzde ∧ taxedCount count yuzde ≤ intMax := by
  unfold taxedCount wrapInt intMin intMax
  omega

theorem lockPage_length_le {count : Int} (hrange : intMin ≤ count ∧ count ≤ intMax) :
    (lockPage count).length ≤ 32 * maximumPacketSize := by
  have hdigits := length_toDecimal_le hrange.1 hrange.2
  have hfront : (texts [
      "set_default_color|`o\nadd_label_with_icon|big|`wDrop World Lock``|left|242|\n",
      "add_textbox|How many to drop?|left|\nadd_text_input|count||"]).length ≤ 100 * 2 :=
    Short.length_texts_le (.cons (by decide) (.cons (by decide) .nil))
  have hback : (ascii "|5|\nembed_data|itemID|242\nend_dialog|drop_item|Cancel|OK|").length ≤
      100 := (length_ascii_ofList _).trans_le (by decide)
  rw [lockPage, List.length_append, List.length_append]
  unfold maximumPacketSize
  omega

/-- What the handler does with a dialog that drops world locks. -/
def taxLock (varlist : VariantList) (content itemid : Bytes) (out : Settings) : Section := do
  let text ← lift (restBehind content (ascii "count||") 7)
  let count ← lift (stoi text)
  let bruh4 := taxedCount count out.yuzde
  if out.fastmmode then
    sendServer (ascii "action|dialog_return\ndialog_name|drop_item\nitemID|" ++ itemid ++
      ascii "|\ncount|" ++ toDecimal bruh4)
    return some true
  else
    let page := texts [
      "set_default_color|`o\nadd_label_with_icon|big|`wDrop World Lock``|left|242|\n",
      "add_textbox|How many to drop?|left|\nadd_text_input|count||"] ++
      toDecimal bruh4 ++
      ascii "|5|\nembed_data|itemID|242\nend_dialog|drop_item|Cancel|OK|"
    sendVariant true (varlist.modify 1 (Variant.setString page)) (-1) 0
    return some true

theorem restBehind_item (hlength : content.length + 32 < 2 ^ 64)
    (hslice : Sliceable content (ascii "embed_data|itemID|") 18) :
    restBehind content (ascii "embed_data|itemID|") 18 = .ok (itemText content) := by
  rw [restBehind_eq (by decide) (by omega), if_pos hslice]
  rfl

instance (content : Bytes) (label : String) : Decidable (Offers content label) :=
  inferInstanceAs (Decidable (_ ∧ _))

instance (content : Bytes) : Decidable (DropsLock content) :=
  inferInstanceAs (Decidable (_ ∧ _))

theorem taxSection_run (hlength : content.length + 32 < 2 ^ 64) (varlist : VariantList)
    (state : ProxyState) : (taxSection varlist content).code.run state =
      (if state.out.taxsystem = true ∧ DropsLock content then
        taxLock varlist content (itemText content) state.out
      else return none).code.run state := by
  unfold taxSection
  rw [getSettings_bind]
  simp only [Bool.and_eq_true]
  by_cases hoffers : (state.out.taxsystem = true ∧ Shows content "Drop") ∧
      Shows content "embed_data|itemID|"
  · have hitem := restBehind_item hlength (sliceable_of_contains (by decide) hoffers.2)
    rw [if_pos hoffers, hitem]
    by_cases hlock : Shows (itemText content) "242"
    · rw [if_pos ⟨hoffers.1.1, ⟨hoffers.2, hoffers.1.2⟩, hlock⟩]
      exact (run_bind_ok state rfl).trans
        (congrArg (fun part : Section => part.code.run state) (if_pos hlock))
    · rw [if_neg fun htaxes => hlock htaxes.2.2]
      exact (run_bind_ok state rfl).trans
        (congrArg (fun part : Section => part.code.run state) (if_neg hlock))
  · rw [if_neg hoffers, if_neg fun htaxes => hoffers ⟨⟨htaxes.1, htaxes.2.1.2⟩, htaxes.2.1.1⟩]

theorem tax_follows {varlist : VariantList} (hsendable : varlist.Sendable)
    (hstrings : ∀ slot, (varlist slot).mString.length ≤ maximumPacketSize)
    (hlength : content.length + 32 < 2 ^ 64) :
    Follows (taxSection varlist content) (taxStage content) := by
  refine Follows.guarded (fun state => taxSection_run hlength varlist state)
    (fun hnumber state => ⟨true, ?_⟩) fun hnumber state => ?_
  · obtain ⟨count, hcount⟩ := (numberBehind_iff (by decide) (by omega)).mpr hnumber
    obtain ⟨text, htext, hread⟩ := except_bind_eq_ok hcount
    unfold taxLock
    refine (Ends.lift htext).bind ((Ends.lift hread).bind ?_)
    by_cases hfast : state.out.fastmmode = true
    · rw [if_pos hfast]
      exact (Ends.sendServer _).bind (.pure _)
    · rw [if_neg hfast]
      obtain ⟨packet, received, hpacket, -⟩ := @withText_decodes _ hsendable hstrings
        (lockPage (taxedCount count state.out.yuzde)) (lockPage_length_le (taxedCount_range _ _))
        (-1) 0 (by decide) (by decide)
      exact (Ends.sendVariant hpacket).bind (.pure _)
  · unfold taxLock
    by_cases hslice : Sliceable content (ascii "count||") 7
    · have htext : restBehind content (ascii "count||") 7 =
          .ok (content.drop (sliceStart content (ascii "count||") 7)) := by
        rw [restBehind_eq (by decide) (by omega), if_pos hslice]
      refine .after (.lift htext) (.bind (.lift fun count hread => hnumber ?_))
      rw [← numberBehind_iff (by decide) (by omega), htext]
      exact ⟨count, hread⟩
    · refine .bind (.lift fun text hread => ?_)
      rw [restBehind_eq (by decide) (by omega), if_neg hslice] at hread
      cases hread

/-- The two slices of the drop sections. -/
theorem dropSlices {β : Type} (hlength : content.length + 32 < 2 ^ 64)
    (next : Bytes → Bytes → Handler β) (state : ProxyState) :
    (DropSliceable content → (do
      let itemid ← lift (restBehind content (ascii "embed_data|itemID|") 18)
      let count ← lift (restBehind content (ascii "count||") 7)
      next itemid count).code.run state =
        (next (itemText content)
          (content.drop (sliceStart content (ascii "count||") 7))).code.run state) ∧
    (¬ DropSliceable content → Fails (do
      let itemid ← lift (restBehind content (ascii "embed_data|itemID|") 18)
      let count ← lift (restBehind content (ascii "count||") 7)
      next itemid count)) := by
  have hcount : restBehind content (ascii "count||") 7 = _ :=
    restBehind_eq (by decide) (by omega)
  have hitem : restBehind content (ascii "embed_data|itemID|") 18 = _ :=
    restBehind_eq (by decide) (by omega)
  constructor
  · rintro ⟨hitemSlice, hcountSlice⟩
    rw [hitem, hcount, if_pos hitemSlice, if_pos hcountSlice]
    rfl
  · intro hslices
    by_cases hitemSlice : Sliceable content (ascii "embed_data|itemID|") 18
    · rw [hitem, if_pos hitemSlice]
      refine .after (.lift rfl) (.bind (.lift fun count hread => ?_))
      rw [hcount, if_neg fun hcountSlice => hslices ⟨hitemSlice, hcountSlice⟩] at hread
      cases hread
    · refine .bind (.lift fun item hread => ?_)
      rw [hitem, if_neg hitemSlice] at hread
      cases hread

/-- A drop section: it slices, and answers or passes. -/
theorem dropSection_follows {part : Section} {cond : Flags → Prop} [∀ flags, Decidable (cond flags)]
    {offers : Prop} [Decidable offers] {reply : Bytes → Bytes → Section}
    (hlength : content.length + 32 < 2 ^ 64)
    (hrun : ∀ state, part.code.run state = (if cond (flagsOf state) then do
      let itemid ← lift (restBehind content (ascii "embed_data|itemID|") 18)
      let count ← lift (restBehind content (ascii "count||") 7)
      if offers then reply itemid count else return none
      else return none : Section).code.run state)
    (hreply : ∀ itemid count, Ends (reply itemid count) (some true)) :
    Follows part fun flags =>
      { throws := cond flags ∧ ¬ DropSliceable content, decides := cond flags ∧ offers } := by
  refine Follows.sliced hrun (fun hslices hoffers state => ⟨true, fun start => ?_⟩)
    (fun hslices hoffers state => ?_) fun hslices state => ?_
  · rw [(dropSlices hlength _ start).1 hslices, if_pos hoffers]
    exact hreply _ _ start
  · rw [(dropSlices hlength _ state).1 hslices, if_neg hoffers]
    rfl
  · exact (dropSlices hlength _ state).2 hslices

theorem fastdrop_follows (hlength : content.length + 32 < 2 ^ 64) :
    Follows (fastdropSection content) (fastdropStage content) := by
  refine @dropSection_follows content _ _ _ _ _ ?_ hlength (fun state => ?_)
    fun itemid count => ?_
  rotate_left
  · unfold fastdropSection
    rw [getSettings_bind]
    simp only [Bool.and_eq_true]
    rfl
  · exact (Ends.sendServer _).bind (.pure _)

theorem fastmmode_follows (hlength : content.length + 32 < 2 ^ 64) :
    Follows (fastmmodeSection content) (fastmmodeStage content) := by
  refine @Follows.sliced _ _ _ _ ?_ _ (fun state => ?_) (fun hslices hlock state => ?_)
    (fun hslices hlock state => ?_) fun hslices state => ?_
  rotate_left
  · unfold fastmmodeSection
    rw [getSettings_bind]
    simp only [Bool.and_eq_true]
    rfl
  · refine ⟨true, fun start => ?_⟩
    rw [(dropSlices hlength _ start).1 hslices]
    exact ⟨start, congrArg (fun part : Section => part.code.run start) (if_pos hlock)⟩
  · rw [(dropSlices hlength _ state).1 hslices]
    exact congrArg (fun part : Section => part.code.run state) (if_neg hlock)
  · exact (dropSlices hlength _ state).2 hslices

theorem fasttrash_follows (hlength : content.length + 32 < 2 ^ 64) :
    Follows (fasttrashSection content) (fasttrashStage content) := by
  have hcount : restBehind content (ascii "you have ") 9 = _ :=
    restBehind_eq (by decide) (by omega)
  have hitem : restBehind content (ascii "embed_data|itemID|") 18 = _ :=
    restBehind_eq (by decide) (by omega)
  refine @Follows.sliced _ _ _ _ ?_ _ (fun state => ?_) (fun hslices hoffers state => ?_)
    (fun hslices hoffers state => ?_) fun hslices state => ?_
  rotate_left
  · unfold fasttrashSection
    rw [getSettings_bind]
    simp only [Bool.and_eq_true, substr_zero]
    rfl
  · rw [hitem, hcount, if_pos hslices.1, if_pos hslices.2]
    refine ⟨true, .bind (.lift rfl) (.bind (.lift rfl) (.bind (.lift rfl) ?_))⟩
    rw [if_pos (show contains _ _ = true ∧ contains _ _ = true from hoffers)]
    exact (Ends.sendServer _).bind (.pure _)
  · rw [hitem, hcount, if_pos hslices.1, if_pos hslices.2]
    exact congrArg (fun part : Section => part.code.run state) (if_neg hoffers)
  · by_cases hitemSlice : Sliceable content (ascii "embed_data|itemID|") 18
    · rw [hitem, if_pos hitemSlice]
      refine .after (.lift rfl) (.bind (.lift fun count hread => ?_))
      rw [hcount, if_neg fun hcountSlice => hslices ⟨hitemSlice, hcountSlice⟩] at hread
      cases hread
    · refine .bind (.lift fun item hread => ?_)
      rw [hitem, if_neg hitemSlice] at hread
      cases hread

theorem insertButtons_ends {varlist : VariantList} (hsendable : varlist.Sendable)
    (hstrings : ∀ slot, (varlist slot).mString.length ≤ maximumPacketSize)
    (hcontent : content.length ≤ maximumPacketSize) (mark : Bytes) {buttons : Bytes}
    (hbuttons : buttons.length ≤ maximumPacketSize) :
    Ends (insertButtons varlist content mark buttons) (some true) := by
  have htext : (content.take (findPos content mark) ++ buttons ++
      content.drop (findPos content mark)).length ≤ 32 * maximumPacketSize := by
    simp only [List.length_append, List.length_take, List.length_drop]
    omega
  obtain ⟨packet, received, hpacket, -⟩ :=
    @withText_decodes _ hsendable hstrings _ htext (-1) (-1) (by decide) (by decide)
  exact (Ends.sendVariant hpacket).bind (.pure _)

theorem wrench_follows {varlist : VariantList} (hsendable : varlist.Sendable)
    (hstrings : ∀ slot, (varlist slot).mString.length ≤ maximumPacketSize)
    (hcontent : content.length ≤ maximumPacketSize) :
    Follows (wrenchSection varlist content) (wrenchStage content) := by
  have hnetid : restBehind content (ascii "embed_data|netID") 17 = _ :=
    restBehind_eq (by decide) (by unfold maximumPacketSize at hcontent; omega)
  have hbuttons (mark : Bytes) (literals : List String)
      (hshort : Short 200 literals) (hfew : literals.length ≤ 100) (state : ProxyState) :=
    Ends.decides (insertButtons_ends hsendable hstrings hcontent mark
      (hshort.length_texts_le.trans (by unfold maximumPacketSize; omega))) state
  refine ⟨fun state hthrows => ?_, fun state hfine hdecides => ?_, fun state hfine hpasses => ?_⟩
  · have hpull : state.out.wrenchpull = true := hthrows.1
    unfold wrenchSection
    rw [getSettings_bind]
    dsimp only
    rw [if_pos hpull]
    refine Fails.bind (.lift fun netid hread => ?_) state
    rw [hnetid, if_neg hthrows.2] at hread
    cases hread
  · unfold wrenchSection
    rw [getSettings_bind]
    dsimp only
    rcases hdecides with ⟨hpull, hdecides⟩ | ⟨hpull, hdecides⟩
    · have hslice : Sliceable content (ascii "embed_data|netID") 17 := by
        by_contra hslice
        exact hfine ⟨hpull, hslice⟩
      rw [if_pos (show state.out.wrenchpull = true from hpull), hnetid, if_pos hslice]
      simp only [Bool.and_eq_true]
      exact ⟨true, state, congrArg (fun part : Section => part.code.run state) (if_pos hdecides)⟩
    · rw [if_neg (show ¬ state.out.wrenchpull = true from hpull)]
      by_cases hreport : Shows content "add_button|report_player|`wReport Player``|noflags|0|0|"
      · rw [if_pos hreport]
        exact hbuttons _ _ (.cons (by decide) (.cons (by decide) .nil)) (by decide) state
      · rw [if_neg hreport, if_pos (hdecides.resolve_left hreport)]
        exact hbuttons _ _ (.cons (by decide) (.cons (by decide) (.cons (by decide) .nil)))
          (by decide) state
  · refine ⟨state, ?_, rfl⟩
    obtain ⟨hreplaces, hbuttonless⟩ := not_or.mp hpasses
    unfold wrenchSection
    rw [getSettings_bind]
    dsimp only
    by_cases hpull : state.out.wrenchpull = true
    · have hslice : Sliceable content (ascii "embed_data|netID") 17 := by
        by_contra hslice
        exact hfine ⟨hpull, hslice⟩
      rw [if_pos hpull, hnetid, if_pos hslice]
      simp only [Bool.and_eq_true]
      exact congrArg (fun part : Section => part.code.run state)
        (if_neg fun hshows => hreplaces ⟨hpull, hshows⟩)
    · have hneither := not_or.mp fun hshows => hbuttonless ⟨hpull, hshows⟩
      rw [if_neg hpull, if_neg hneither.1, if_neg hneither.2]
      rfl

/-- The friend's number is cut out, if the text is long enough. -/
theorem uid_eq (hlength : content.length + 32 < 2 ^ 64) :
    (substr content 0 (rfindPos content (ascii "|`4Stop ignoring")) >>= fun front =>
      substrFrom front (addSize (rfindPos front (ascii "add_button|")) 11)) =
      (uidText content).elim (.error .outOfRange) .ok := by
  rw [substr_zero, except_ok_bind, uidText]
  have hfront : (content.take (rfindPos content (ascii "|`4Stop ignoring"))).length ≤
      content.length := by
    rw [List.length_take]
    exact Nat.min_le_right _ _
  generalize content.take (rfindPos content (ascii "|`4Stop ignoring")) = front at hfront
  unfold rfindPos
  cases hfind : Seq.rfind (ascii "add_button|") front with
  | none =>
      have hstart : addSize npos 11 = 10 := by decide
      rw [Option.getD_none, hstart, substrFrom]
      by_cases hfits : 10 ≤ front.length
      · simp only [if_pos hfits, Option.elim_some]
      · simp only [if_neg hfits, Option.elim_none]
  | some position =>
      have hmark : (ascii "add_button|").length = 11 := by decide
      have hfits := Seq.rfind_fits hfind
      have hstart : addSize position 11 = position + 11 := by
        unfold addSize
        omega
      rw [Option.getD_some, hstart, substrFrom_of_le (by omega)]
      rfl

theorem resolveUid_ends (hlength : content.length + 32 < 2 ^ 64) (huid : UidReadable content) :
    Ends (resolveUid content) () := by
  obtain ⟨uid, htext, hread⟩ := huid
  have hslices := uid_eq hlength
  rw [htext, Option.elim_some] at hslices
  obtain ⟨front, hfront, hcut⟩ := except_bind_eq_ok hslices
  unfold resolveUid
  refine (Ends.lift hfront).bind ((Ends.lift hcut).bind ?_)
  by_cases hzero : atoi uid = 0
  · rw [if_pos hzero]
    exact (Ends.modifyGt _).bind (.sendLog _)
  · rw [if_neg hzero]
    obtain ⟨value, hvalue⟩ := (stoi_returns_iff uid).mpr (hread.resolve_left hzero)
    exact (Ends.sendLog _).bind ((Ends.sendLog _).bind ((Ends.lift hvalue).bind
      ((Ends.modifySettings _).bind ((Ends.sendServer _).bind (.sendServer _)))))

theorem resolveUid_fails (hlength : content.length + 32 < 2 ^ 64) (huid : ¬ UidReadable content) :
    Fails (resolveUid content) := by
  have hslices := uid_eq hlength
  unfold resolveUid
  cases htext : uidText content with
  | none =>
      rw [htext, Option.elim_none, substr_zero, except_ok_bind] at hslices
      rw [substr_zero]
      refine .after (.lift rfl) (.bind (.lift fun uid hcut => ?_))
      rw [hslices] at hcut
      cases hcut
  | some uid =>
      rw [htext, Option.elim_some] at hslices
      obtain ⟨front, hfront, hcut⟩ := except_bind_eq_ok hslices
      refine .after (.lift hfront) (.after (.lift hcut) ?_)
      rw [if_neg fun hzero => huid ⟨uid, htext, .inl hzero⟩]
      refine .after (.sendLog _) (.after (.sendLog _) (.bind (.lift fun value hread => ?_)))
      exact huid ⟨uid, htext, .inr ((stoi_returns_iff uid).mp ⟨value, hread⟩)⟩

instance (flags : Flags) (content : Bytes) : Decidable (Swallowed flags content) :=
  inferInstanceAs (Decidable (_ ∨ _))

instance (content : Bytes) : Decidable (AccessLost content) :=
  inferInstanceAs (Decidable (_ = _))

instance (flags : Flags) (content : Bytes) (label : String) :
    Decidable (Answers flags content label) :=
  inferInstanceAs (Decidable (_ ∧ _))

theorem resolvingSection_run (content : Bytes) (state : ProxyState) :
    (resolvingSection content).code.run state =
      (if Swallowed (flagsOf state) content then return some true
      else if AccessLost content then
        if state.out.worldbanjoinmod = true then do
          sendServer (ascii "action|dialog_return\ndialog_name|unaccess")
          return some true
        else return none
      else if Answers (flagsOf state) content "Ok, you will now be able to see chat" then do
        modifyGt fun gt => { gt with resolvingUid2 := false }
        return some true
      else if Answers (flagsOf state) content "`4Stop ignoring" then do
        resolveUid content
        return some true
      else return none : Section).code.run state := by
  unfold resolvingSection
  rw [getGt_bind, getSettings_bind]
  simp only [Bool.and_eq_true, Bool.or_eq_true]
  rfl

theorem resolving_follows (hlength : content.length + 32 < 2 ^ 64) :
    Follows (resolvingSection content) (resolvingStage content) := by
  refine ⟨fun state hthrows => ?_, fun state hfine hdecides => ?_, fun state hfine hpasses => ?_⟩
  · obtain ⟨hswallowed, haccess, hok, hstop, huid⟩ := hthrows
    rw [resolvingSection_run, if_neg hswallowed, if_neg haccess, if_neg hok, if_pos hstop]
    exact Fails.bind (resolveUid_fails hlength huid) state
  · rw [resolvingSection_run]
    by_cases hswallowed : Swallowed (flagsOf state) content
    · rw [if_pos hswallowed]
      exact ⟨true, state, rfl⟩
    rw [if_neg hswallowed]
    rcases hdecides.resolve_left hswallowed with ⟨haccess, hban⟩ | ⟨haccess, hanswers⟩
    · rw [if_pos haccess, if_pos (show state.out.worldbanjoinmod = true from hban)]
      exact Ends.decides ((Ends.sendServer _).bind (.pure _)) state
    · rw [if_neg haccess]
      by_cases hok : Answers (flagsOf state) content "Ok, you will now be able to see chat"
      · rw [if_pos hok]
        exact Ends.decides ((Ends.modifyGt _).bind (.pure _)) state
      · have hstop := hanswers.resolve_left hok
        have huid : UidReadable content := by
          by_contra huid
          exact hfine ⟨hswallowed, haccess, hok, hstop, huid⟩
        rw [if_neg hok, if_pos hstop]
        exact Ends.decides ((resolveUid_ends hlength huid).bind (.pure _)) state
  · refine ⟨state, ?_, rfl⟩
    obtain ⟨hswallowed, hrest⟩ := not_or.mp hpasses
    obtain ⟨hbanned, hanswers⟩ := not_or.mp hrest
    rw [resolvingSection_run, if_neg hswallowed]
    by_cases haccess : AccessLost content
    · have hoff : ¬ state.out.worldbanjoinmod = true := fun hban => hbanned ⟨haccess, hban⟩
      rw [if_pos haccess, if_neg hoff]
      rfl
    · obtain ⟨hok, hstop⟩ := not_or.mp fun hanswer => hanswers ⟨haccess, hanswer⟩
      rw [if_neg haccess, if_neg hok, if_neg hstop]
      rfl

end Following

/-! ## Getting through -/

section Through

variable {varlist : VariantList}

/-- The sections behave as their stages say. -/
theorem sections_follow (hsendable : varlist.Sendable)
    (hstrings : ∀ slot, (varlist slot).mString.length ≤ maximumPacketSize) :
    List.Forall₂ Follows
      [resolvingSection (varlist 1).getString, wltrollSection (varlist 1).getString,
        worldLockSection (varlist 1).getString, dicemodSection (varlist 1).getString,
        captchaSection (varlist 1).getString, gazetteSection varlist (varlist 1).getString,
        taxSection varlist (varlist 1).getString, fastdropSection (varlist 1).getString,
        fastmmodeSection (varlist 1).getString, fasttrashSection (varlist 1).getString,
        wrenchSection varlist (varlist 1).getString]
      (dialogStages (varlist 1).getString) := by
  have hcontent : (varlist 1).getString.length ≤ maximumPacketSize := hstrings 1
  have hlength : (varlist 1).getString.length + 32 < 2 ^ 64 := by
    unfold maximumPacketSize at hcontent
    omega
  exact .cons (resolving_follows hlength) <| .cons (wltroll_follows hlength) <|
    .cons (worldLock_follows hlength) <| .cons (dicemod_follows hlength) <|
    .cons (captcha_follows hlength) <| .cons (gazette_follows hsendable hstrings) <|
    .cons (tax_follows hsendable hstrings hlength) <| .cons (fastdrop_follows hlength) <|
    .cons (fastmmode_follows hlength) <| .cons (fasttrash_follows hlength) <|
    .cons (wrench_follows hsendable hstrings hcontent) .nil

/-- The handler returns exactly if no slice throws before a section has decided. -/
theorem dialog_returns_iff (hsendable : varlist.Sendable)
    (hstrings : ∀ slot, (varlist slot).mString.length ≤ maximumPacketSize) (state : ProxyState) :
    (onDialogRequest varlist).Returns state ↔
      Clears ((dialogStages (varlist 1).getString).map fun stage => stage (flagsOf state)) :=
  returns_iff_clears (sections_follow hsendable hstrings) state

end Through

/-- A dialog request with two bytes. -/
def tinyDialog : VariantList :=
  (VariantList.ofString (ascii "OnDialogRequest")).modify 1 (Variant.setString (ascii "hi"))

/-- A request to drop five of an item. -/
def dropDialog : VariantList :=
  (VariantList.ofString (ascii "OnDialogRequest")).modify 1
    (Variant.setString (ascii "Drop\nembed_data|itemID|2\ncount||5"))

/-- With fast drop it is answered. -/
theorem dialog_returns_drop :
    (onDialogRequest dropDialog).Returns { out := { fastdrop := true } } := by
  have hcontent : (dropDialog 1).getString = ascii "Drop\nembed_data|itemID|2\ncount||5" := rfl
  refine (dialog_returns_iff (by decide) (by decide) _).mpr ?_
  rw [hcontent]
  refine ⟨?_, .inr ⟨?_, .inr ⟨?_, .inr ⟨?_, .inr ⟨?_, .inr ⟨id, .inr ⟨?_, .inr ⟨?_, .inl ?_⟩⟩⟩⟩⟩⟩⟩⟩
  · rintro ⟨-, -, -, ⟨hresolving, -⟩, -⟩
    cases hresolving
  · rintro ⟨⟨htroll, -⟩, -⟩
    cases htroll
  · rintro ⟨hlock, -⟩
    exact not_shows_ofList (by decide) hlock
  · rintro ⟨⟨hdice, -⟩, -⟩
    cases hdice
  · rintro ⟨⟨hcolour, -⟩, -⟩
    exact not_shows_ofList (by decide) hcolour
  · rintro ⟨⟨htax, -⟩, -⟩
    cases htax
  · rintro ⟨-, hslices⟩
    exact hslices ⟨by decide, by decide⟩
  · exact ⟨rfl, by decide, by decide⟩

/-- With fast drop it is sliced behind its end. -/
theorem tinyDialog_throws :
    ¬ (onDialogRequest tinyDialog).Returns { out := { fastdrop := true } } := by
  rintro ⟨verdict, after, hrun⟩
  have hthrow : failureOf ((onDialogRequest tinyDialog).code.run { out := { fastdrop := true } }) =
      some .outOfRange := by decide +kernel
  rw [hrun] at hthrow
  cases hthrow

end SrmotionProxy.Events.In
