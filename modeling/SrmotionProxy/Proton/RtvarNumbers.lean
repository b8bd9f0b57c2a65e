/-
# Validated numbers

`validate_ints` is meant to be asked before `get_int` and `get_long`, which convert
whatever they find. This module compares the texts that `is_number` accepts with the
numerals that the conversions read exactly.
-/

import SrmotionProxy.Lib.Decimal
import SrmotionProxy.Proton.Rtvar

namespace SrmotionProxy.Proton

open SrmotionProxy.Lib

/-! ## Numerals -/

/-- An optional minus sign and at least one digit. -/
structure Numeral where
  negative : Bool
  digits : Bytes
  digits_ne_nil : digits ≠ []
  decimal : ∀ byte ∈ digits, isDigit byte = true

namespace Numeral

def text (numeral : Numeral) : Bytes :=
  if numeral.negative then 45 :: numeral.digits else numeral.digits

/-- The integer a numeral denotes. -/
def value (numeral : Numeral) : Int :=
  if numeral.negative then -(digitsValue numeral.digits : Int) else digitsValue numeral.digits

theorem leadingInteger_text (numeral : Numeral) :
    leadingInteger numeral.text = some numeral.value := by
  unfold text value
  cases numeral.negative with
  | true =>
      have hread := leadingInteger_minus numeral.digits_ne_nil numeral.decimal .nil
      rw [List.append_nil] at hread
      exact hread
  | false =>
      have hread := leadingInteger_digits numeral.digits_ne_nil numeral.decimal .nil
      rw [List.append_nil] at hread
      exact hread

/-- No numeral contains a NUL. -/
theorem cStr_text (numeral : Numeral) : cStr numeral.text = numeral.text := by
  apply List.takeWhile_eq_self_iff.mpr
  intro byte hbyte
  have hdigit : byte = 45 ∨ isDigit byte = true := by
    unfold text at hbyte
    split at hbyte
    · exact (List.mem_cons.mp hbyte).imp_right (numeral.decimal byte)
    · exact .inr (numeral.decimal byte hbyte)
  rcases hdigit with rfl | hdigit
  · decide
  · exact decide_eq_true (digit_facts hdigit).2.2.2

theorem atoll_text (numeral : Numeral) :
    atoll numeral.text = max longMin (min longMax numeral.value) := by
  rw [atoll, cStr_text, leadingInteger_text]

theorem atoi_text (numeral : Numeral) :
    atoi numeral.text = max intMin (min intMax numeral.value) := by
  rw [atoi, cStr_text, leadingInteger_text]

theorem text_ne_sign (numeral : Numeral) : numeral.text ≠ ascii "-" := by
  intro hsign
  unfold text at hsign
  split at hsign
  · exact numeral.digits_ne_nil (List.cons.inj hsign).2
  · have hdigit := numeral.decimal 45 (by rw [hsign]; decide)
    exact absurd hdigit (by decide)

end Numeral

/-- `is_number` accepts the numerals and a sign without digits. -/
theorem isNumber_iff (s : Bytes) :
    isNumber s = true ↔ s = ascii "-" ∨ ∃ numeral : Numeral, s = numeral.text := by
  constructor
  · intro hnumber
    cases s with
    | nil => cases hnumber
    | cons first rest =>
        rw [isNumber] at hnumber
        by_cases hminus : first = 45
        · subst hminus
          rw [if_pos rfl, List.all_eq_true] at hnumber
          by_cases hnone : rest = []
          · subst hnone
            exact .inl rfl
          · exact .inr ⟨⟨true, rest, hnone, hnumber⟩, rfl⟩
        · rw [if_neg hminus, List.all_eq_true] at hnumber
          exact .inr ⟨⟨false, first :: rest, List.cons_ne_nil _ _, hnumber⟩, rfl⟩
  · rintro (rfl | ⟨numeral, rfl⟩)
    · decide
    · unfold Numeral.text
      split
      · rw [isNumber, if_pos rfl, List.all_eq_true]
        exact numeral.decimal
      · obtain ⟨first, rest, hdigits⟩ := List.exists_cons_of_ne_nil numeral.digits_ne_nil
        have hfirst := numeral.decimal first (by rw [hdigits]; exact List.mem_cons_self)
        have hall := List.all_eq_true.mpr numeral.decimal
        rw [hdigits] at hall ⊢
        rw [isNumber, if_neg (digit_facts hfirst).2.1]
        exact hall

/-! ## Reading validated fields -/

namespace Rtvar

/-- The field under `key` is a numeral, `get_long` returns what it denotes, and so does
`get_int` if that is an `int`. -/
def ReadExactly (var : Rtvar) (key : Bytes) : Prop :=
  ∃ (pair : Pair) (numeral : Numeral), var.find key = some pair ∧ pair.mValue = numeral.text ∧
    var.getLong key = .ok numeral.value ∧
    (intMin ≤ numeral.value → numeral.value ≤ intMax → var.getInt key = .ok numeral.value)

/-- The field is not a sign alone, and no numeral outside `long long`. -/
def Representable (var : Rtvar) (key : Bytes) : Prop :=
  var.get key ≠ ascii "-" ∧
    ∀ value, leadingInteger (var.get key) = some value → longMin ≤ value ∧ value ≤ longMax

theorem readExactly_iff {var : Rtvar} {key : Bytes} (hvalid : var.validateInt key = true) :
    var.ReadExactly key ↔ var.Representable key := by
  unfold validateInt at hvalid
  unfold ReadExactly Representable getLong getInt get
  cases hfind : var.find key with
  | none =>
      rw [hfind] at hvalid
      cases hvalid
  | some pair =>
      rw [hfind] at hvalid
      simp only [] at hvalid ⊢
      rcases (isNumber_iff pair.mValue).mp hvalid with hsign | ⟨numeral, htext⟩
      · constructor
        · rintro ⟨_, numeral, hpair, htext, -⟩
          cases hpair
          exact absurd (htext.symm.trans hsign) numeral.text_ne_sign
        · rintro ⟨hother, -⟩
          exact absurd hsign hother
      · constructor
        · rintro ⟨_, other, hpair, hother, hlong, -⟩
          cases hpair
          rw [hother, other.atoll_text, Except.ok.injEq] at hlong
          refine ⟨by rw [hother]; exact other.text_ne_sign, fun value hvalue => ?_⟩
          rw [hother, other.leadingInteger_text, Option.some.injEq] at hvalue
          unfold longMin longMax at *
          omega
        · rintro ⟨-, hrange⟩
          rw [htext] at hrange
          obtain ⟨hlow, hhigh⟩ := hrange _ numeral.leadingInteger_text
          refine ⟨pair, numeral, rfl, htext, ?_, fun hmin hmax => ?_⟩
          · rw [htext, numeral.atoll_text]
            congr 1
            omega
          · rw [htext, numeral.atoi_text]
            congr 1
            omega

/-- Validated fields convert exactly if and only if none of them is a sign alone or
outside `long long`. -/
theorem validated_exact_iff (text : Bytes) (keys : List Bytes) :
    ((parse text).validateInts keys = true → ∀ key ∈ keys, (parse text).ReadExactly key) ↔
      ((parse text).validateInts keys = true → ∀ key ∈ keys, (parse text).Representable key) := by
  apply imp_congr_right
  intro hvalid
  apply forall₂_congr
  intro key hkey
  exact readExactly_iff (List.all_eq_true.mp hvalid key hkey)

/-- A field that is only a sign passes the validation. -/
theorem lone_sign_validated :
    ¬ ((parse (ascii "userID|-")).validateInts [ascii "userID"] = true →
      ∀ key ∈ [ascii "userID"], (parse (ascii "userID|-")).ReadExactly key) := by
  intro hexact
  have hread := hexact (by decide) (ascii "userID") List.mem_cons_self
  have hfield := (readExactly_iff (by decide)).mp hread
  exact hfield.1 (by decide)

end Rtvar

end SrmotionProxy.Proton
