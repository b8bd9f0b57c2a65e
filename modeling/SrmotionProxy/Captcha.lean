/-
# The sum captcha

The server shows two numbers and kicks players who do not send back their sum. This
module shows that `solve_captcha` sends it, for all numbers whose sum is an `int`.
-/

import SrmotionProxy.DialogStages
import SrmotionProxy.Lib.Decimal
import SrmotionProxy.Lib.Marks
import SrmotionProxy.Orders

namespace SrmotionProxy.Events.In

open SrmotionProxy.Lib SrmotionProxy.ENet SrmotionProxy.Handler SrmotionProxy.Roster

/-! ## Replacing a text at an end -/

theorem replace_front (pattern rest : Bytes) : replace (pattern ++ rest) pattern [] = rest := by
  have hfind : Seq.find pattern (pattern ++ rest) = some 0 :=
    Seq.find_eq_zero_iff.mpr (List.prefix_append pattern rest)
  rw [replace, replaceFirst, hfind]
  simp

theorem find_behind {symbol : UInt8} {front : Bytes} (hfree : symbol ∉ front) (body rest : Bytes) :
    Seq.find (symbol :: body) (front ++ symbol :: (body ++ rest)) = some front.length := by
  have hfind := @Seq.find_mark _ _ symbol [] body front List.not_mem_nil hfree (body ++ rest)
  rw [if_pos ⟨List.nil_suffix, List.prefix_append body rest⟩] at hfind
  exact hfind

theorem replace_back {symbol : UInt8} {front : Bytes} (hfree : symbol ∉ front) (body : Bytes) :
    replace (front ++ symbol :: body) (symbol :: body) [] = front := by
  have hfind := find_behind hfree body []
  rw [List.append_nil] at hfind
  rw [replace, replaceFirst, hfind]
  simp

/-! ## The dialog -/

/-- What stands in front of the sum. -/
def captchaHead : Bytes := texts [
  "set_default_color|`o\nadd_label_with_icon|big|`wAre you Human?``|left|206|\n",
  "add_spacer|small|\nadd_textbox|What will be the sum of the following ",
  "numbers|left|\nadd_textbox|"]

/-- What stands behind it. -/
def captchaTail : Bytes := texts [
  "|left|\nadd_text_input|captcha_answer|Answer:||32|\n",
  "end_dialog|captcha_submit||Submit|"]

/-- The question for two numbers. -/
def sumText (a b : Nat) : Bytes := toDecimal a ++ ascii " + " ++ toDecimal b

theorem captchaSum_sumText (a b : Nat) :
    captchaSum (captchaHead ++ sumText a b ++ captchaTail) = sumText a b := by
  have hfree : 124 ∉ sumText a b := by
    rw [sumText, List.mem_append, List.mem_append, not_or, not_or]
    exact ⟨⟨not_mem_toDecimal (by decide) (by decide) a, by decide⟩,
      not_mem_toDecimal (by decide) (by decide) b⟩
  change replace (replace _ captchaHead []) captchaTail [] = _
  rw [List.append_assoc, replace_front]
  exact replace_back hfree _

theorem substr_first (a b : Nat) :
    substr (sumText a b) 0 (findPos (sumText a b) (ascii " +")) = .ok (toDecimal a) := by
  have hfind : Seq.find (ascii " +") (sumText a b) = some (toDecimal a).length := by
    rw [sumText, List.append_assoc]
    exact find_behind (@not_mem_toDecimal 32 (by decide) (by decide) a) (ascii "+")
      (ascii " " ++ toDecimal b)
  rw [substr_zero, findPos, hfind, Option.getD_some, sumText, List.append_assoc, List.take_left]

theorem substr_second (a b : Nat) :
    substr (sumText a b) ((toDecimal a).length + 3) (sumText a b).length = .ok (toDecimal b) := by
  apply substr_append
  · rw [List.length_append]
    rfl
  · rw [sumText, List.length_append]
    omega

theorem atoi_toDecimal {value : Int} (hmin : intMin ≤ value) (hmax : value ≤ intMax) :
    atoi (toDecimal value) = value := by
  have hread := stoi_toDecimal hmin hmax .nil
  rw [List.append_nil] at hread
  exact atoi_of_stoi hread

/-! ## The answer -/

/-- What `server::send` hands over: nothing if a pointer is missing. -/
def sent (state : ProxyState) (client : Bool) (packet : Bytes) : List (Option Peer × Bytes) :=
  match state.target client with
  | none => []
  | some (peer, _) => [(some peer, packet)]

theorem sendText_sent (state : ProxyState) (client : Bool) (text : Bytes) (type : Int) :
    ∃ after, (sendText client text type).code.run state = .ok () after ∧
      after.server = state.server ∧
      handedOver after.trace = sent state client (textPacket text type) ++
        handedOver state.trace := by
  unfold sent
  cases htarget : state.target client with
  | none => exact ⟨state, deliver_run_none htarget _, rfl, rfl⟩
  | some pair =>
      obtain ⟨peer, host⟩ := pair
      exact ⟨_, deliver_run htarget _, rfl, rfl⟩

/-- The proxy answers a captcha with `result`: one reply to the server, behind one log
line for the player. -/
def Answered (state : ProxyState) (text : Bytes) (result : Int) : Prop :=
  ∃ after, (solveCaptcha text).code.run state = .ok () after ∧
    handedOver after.trace =
      sent state false (textPacket (ascii
        "action|dialog_return\ndialog_name|captcha_submit\ncaptcha_answer|" ++
          toDecimal result) NET_MESSAGE_GENERIC_TEXT.toNat) ++
      (sent state true (textPacket (ascii "action|log\nmsg|" ++
          (ascii "Solved captcha as `2" ++ toDecimal result ++ ascii "``"))
            NET_MESSAGE_GAME_MESSAGE.toNat) ++
        handedOver state.trace)

/-- The answer is the sum. -/
theorem solveCaptcha_answers (a b : Nat) (hsum : a + b < 2 ^ 31) (state : ProxyState) :
    Answered state (captchaHead ++ sumText a b ++ captchaTail) (a + b : Nat) := by
  have hresult : wrapInt (atoi (toDecimal a) + atoi (toDecimal b)) = (a + b : Nat) := by
    rw [atoi_toDecimal (by unfold intMin; omega) (by unfold intMax; omega),
      atoi_toDecimal (by unfold intMin; omega) (by unfold intMax; omega), wrapInt]
    omega
  have hfirst : (lift (substr (captchaSum (captchaHead ++ sumText a b ++ captchaTail)) 0
      (findPos (captchaSum (captchaHead ++ sumText a b ++ captchaTail)) (ascii " +")))).code.run
        state = .ok (toDecimal a) state := by
    rw [captchaSum_sumText, substr_first]
    rfl
  have hsecond : (lift (substr (captchaSum (captchaHead ++ sumText a b ++ captchaTail))
      ((toDecimal a).length + 3)
      (captchaSum (captchaHead ++ sumText a b ++ captchaTail)).length)).code.run state =
        .ok (toDecimal b) state := by
    rw [captchaSum_sumText, substr_second]
    rfl
  obtain ⟨logged, hlog, hserver, hlogged⟩ := sendText_sent state true (ascii "action|log\nmsg|" ++
    (ascii "Solved captcha as `2" ++ toDecimal (a + b : Nat) ++ ascii "``"))
      NET_MESSAGE_GAME_MESSAGE.toNat
  obtain ⟨after, hreply, -, hsent⟩ := sendText_sent logged false (ascii
    "action|dialog_return\ndialog_name|captcha_submit\ncaptcha_answer|" ++
      toDecimal (a + b : Nat)) NET_MESSAGE_GENERIC_TEXT.toNat
  have htarget : logged.target false = state.target false := by
    unfold ProxyState.target
    rw [hserver]
  refine ⟨after, ?_, ?_⟩
  · unfold solveCaptcha
    refine (run_bind_ok state hfirst).trans ((run_bind_ok state hsecond).trans ?_)
    simp only [hresult]
    exact (run_bind_ok state hlog).trans hreply
  · rw [hsent, hlogged, sent, htarget]
    rfl

/-- The sum of 5 and 7. -/
theorem solveCaptcha_answers_twelve :
    Answered { server := { mServerPeer := some ⟨1, 0⟩, mRealServer := some 1 } }
      (captchaHead ++ sumText 5 7 ++ captchaTail) (5 + 7 : Nat) :=
  solveCaptcha_answers 5 7 (by decide) _

end SrmotionProxy.Events.In
