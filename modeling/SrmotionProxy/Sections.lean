/-
# The sections of generic texts

`events::out::generictext` runs twenty-six sections over every text before it looks at
anything else. Each is triggered by a substring; without it the section does nothing.
This module says so for all of them at once, and what is left of `generictext` behind
the sections.
-/

import SrmotionProxy.Events.Out

namespace SrmotionProxy.Events

open SrmotionProxy.Lib SrmotionProxy.Proton SrmotionProxy.Handler

/-- The substrings that trigger the sections, in the order of `formSections`. -/
def formTriggers : List String :=
  ["roulette2|", "fastdrop|", "fasttrash|", "visualspin|", "fastmode|", "autotax|",
    "wltroll1|", "taxamount|", "roulette5", "dicespeed|", "worldbanmod|", "wrenchpull|",
    "autohosts|", "countryzz|", "buttonClicked|optionzzz", "xvault111|", "saveworld|",
    "2vault222|", "buttonClicked|iso11pul1", "buttonClicked|bannj", "buttonClicked|kicj",
    "iditemzz1|", "buttonClicked|killall", "buttonClicked|banall", "buttonClicked|pullall",
    "buttonClicked|ubaworld"]

/-- The section does nothing with a text without the trigger. -/
def IdleWithout (trigger : String) (action : Bytes → Handler Unit) : Prop :=
  ∀ packet, contains packet (ascii trigger) = false → action packet = return ()

section Idle

variable {trigger mark : String} {trim : Bool}

theorem idle_ite {body : Bytes → Handler Unit} :
    IdleWithout trigger fun packet =>
      if contains packet (ascii trigger) then body packet else return () := by
  intro packet habsent
  simp only [habsent, Bool.false_eq_true, if_false]

theorem numberField_idle (store : Int → Handler Unit) :
    IdleWithout trigger (numberField trigger mark trim store) := idle_ite

theorem inputField_idle (store : Int → Handler Unit) :
    IdleWithout trigger (inputField trigger mark trim store) := idle_ite

end Idle

/-- Every section is idle without its trigger. -/
theorem sections_idle : List.Forall₂ IdleWithout formTriggers formSections := by
  unfold formTriggers formSections
  refine .cons (numberField_idle _) (.cons (numberField_idle _) (.cons (numberField_idle _)
    (.cons (numberField_idle _) (.cons (numberField_idle _) (.cons (numberField_idle _)
    (.cons (numberField_idle _) (.cons (numberField_idle _) (.cons (numberField_idle _)
    (.cons (numberField_idle _) (.cons (numberField_idle _) (.cons (numberField_idle _)
    (.cons (numberField_idle _) ?_))))))))))))
  exact .cons idle_ite (.cons idle_ite (.cons (inputField_idle _) (.cons idle_ite
    (.cons (inputField_idle _) (.cons idle_ite (.cons idle_ite (.cons idle_ite
    (.cons (inputField_idle _) (.cons idle_ite (.cons idle_ite (.cons idle_ite
    (.cons idle_ite .nil))))))))))))

/-- A text without triggers passes the sections by. -/
theorem runSections_idle {packet : Bytes} {triggers : List String}
    {actions : List (Bytes → Handler Unit)} (hidle : List.Forall₂ IdleWithout triggers actions)
    (habsent : ∀ trigger ∈ triggers, contains packet (ascii trigger) = false)
    (state : ProxyState) : (runSections packet actions).code.run state = .ok () state := by
  induction hidle with
  | nil => rfl
  | cons hfirst _ ih =>
      rw [List.forall_mem_cons] at habsent
      rw [runSections, hfirst packet habsent.1]
      exact ih habsent.2

/-! ## Behind the sections -/

/-- What `generictext` does with a text that is neither a wrench action nor chat. -/
def Out.remainder (out : Settings) (packet : Bytes) : Handler Bool :=
  if contains packet (ascii "game_version|") then
    if out.loggedin = 1 then Out.loginText packet else return false
  else
    return false

/-- The text is a wrench action, and those are answered. -/
def Out.WrenchAction (out : Settings) (packet : Bytes) : Prop :=
  out.wrenchpull = true ∧ contains packet (ascii "action|wrench") = true

/-- The text is chat. -/
def Out.IsInput (packet : Bytes) : Prop :=
  ∃ head, (Rtvar.parse packet).mPairs.head? = some head ∧ head.mKey = ascii "action" ∧
    head.mValue = ascii "input"

theorem Out.not_isInput {packet : Bytes} {head : Pair}
    (hhead : (Rtvar.parse packet).mPairs.head? = some head) (hkey : head.mKey ≠ ascii "action") :
    ¬ Out.IsInput packet := by
  rintro ⟨found, hfound, haction, -⟩
  rw [hhead] at hfound
  cases hfound
  exact hkey haction

theorem Out.generictext_invalid {packet : Bytes} (hinvalid : (Rtvar.parse packet).valid = false) :
    Out.generictext packet = return false := by
  rw [Out.generictext]
  simp only [hinvalid, if_true]

theorem Out.generictext_run {packet : Bytes} {state after : ProxyState}
    (hvalid : (Rtvar.parse packet).valid = true)
    (hsections : (runSections packet formSections).code.run state = .ok () after)
    (hwrench : ¬ Out.WrenchAction after.out packet) (hinput : ¬ Out.IsInput packet) :
    (Out.generictext packet).code.run state = (Out.remainder after.out packet).code.run after := by
  have hfound : (after.out.wrenchpull && contains packet (ascii "action|wrench")) = false := by
    rw [← Bool.not_eq_true, Bool.and_eq_true]
    exact hwrench
  obtain ⟨head, hhead, hindex⟩ : ∃ head, (Rtvar.parse packet).mPairs.head? = some head ∧
      (Rtvar.parse packet).getIndex 0 = .ok head := by
    unfold Rtvar.valid at hvalid
    unfold Rtvar.getIndex
    cases hpairs : (Rtvar.parse packet).mPairs with
    | nil => rw [hpairs] at hvalid; cases hvalid
    | cons head rest => exact ⟨head, rfl, rfl⟩
  have hother : ¬ (head.mKey = ascii "action" ∧ head.mValue = ascii "input") :=
    fun hchat => hinput ⟨head, hhead, hchat⟩
  rw [Out.generictext]
  simp only [hvalid, Bool.true_eq_false, if_false, hindex]
  refine (run_bind_ok state hsections).trans ?_
  change (if (after.out.wrenchpull && contains packet (ascii "action|wrench")) = true then _
    else _ : Handler Bool).code.run after = _
  rw [if_neg (by rw [hfound]; decide)]
  change (if head.mKey = ascii "action" ∧ head.mValue = ascii "input" then _
    else _ : Handler Bool).code.run after = _
  rw [if_neg hother]
  rfl

end SrmotionProxy.Events
