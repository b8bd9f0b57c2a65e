/-
# Printed numbers are read back

`std::stoi` on a text that starts with the output of `std::to_string`: whatever follows,
as long as it does not go on with a digit, the number is read back.
-/

import SrmotionProxy.Lib.Text

namespace SrmotionProxy.Lib

/-! ## Digits -/

/-- The byte of an ASCII character. -/
def byteOf (symbol : Char) : UInt8 := UInt8.ofNat symbol.toNat

theorem toNat_of_isDigit {symbol : Char} (hdigit : symbol.isDigit = true) :
    48 ≤ symbol.toNat ∧ symbol.toNat ≤ 57 := by
  simp only [Char.isDigit, Bool.and_eq_true, decide_eq_true_eq, UInt32.le_iff_toNat_le] at hdigit
  exact hdigit

theorem toNat_byteOf {symbol : Char} (hdigit : symbol.isDigit = true) :
    (byteOf symbol).toNat = symbol.toNat := by
  have hrange := toNat_of_isDigit hdigit
  rw [byteOf, UInt8.toNat_ofNat']
  omega

theorem isDigit_byteOf {symbol : Char} (hdigit : symbol.isDigit = true) :
    isDigit (byteOf symbol) = true := by
  have hrange := toNat_of_isDigit hdigit
  rw [isDigit, Bool.and_eq_true, decide_eq_true_eq, decide_eq_true_eq, UInt8.le_iff_toNat_le,
    UInt8.le_iff_toNat_le, toNat_byteOf hdigit]
  exact hrange

/-- The decimal digits of a number. -/
def digitsOf (n : Nat) : Bytes := (Nat.toDigits 10 n).map byteOf

theorem isDigit_of_mem_digitsOf {n : Nat} {byte : UInt8} (hbyte : byte ∈ digitsOf n) :
    isDigit byte = true := by
  obtain ⟨symbol, hsymbol, rfl⟩ := List.mem_map.mp hbyte
  exact isDigit_byteOf (Nat.isDigit_of_mem_toDigits (by decide) (by decide) hsymbol)

theorem digitsOf_ne_nil (n : Nat) : digitsOf n ≠ [] := by
  rw [digitsOf, Ne, List.map_eq_nil_iff]
  exact Nat.toDigits_ne_nil

theorem digitsValue_digitsOf (n : Nat) : digitsValue (digitsOf n) = n := by
  have hfold (symbols : List Char) (hdigits : ∀ symbol ∈ symbols, symbol.isDigit = true)
      (start : Nat) : (symbols.map byteOf).foldl
        (fun value digit => value * 10 + (digit.toNat - 48)) start =
          Nat.ofDigitChars 10 symbols start := by
    induction symbols generalizing start with
    | nil => rw [Nat.ofDigitChars_nil]; rfl
    | cons symbol symbols ih =>
        rw [List.forall_mem_cons] at hdigits
        rw [List.map_cons, List.foldl_cons, ih hdigits.2, Nat.ofDigitChars_cons,
          toNat_byteOf hdigits.1, Nat.mul_comm]
        rfl
  rw [digitsValue, digitsOf, hfold _ fun symbol hsymbol =>
    Nat.isDigit_of_mem_toDigits (by decide) (by decide) hsymbol]
  exact Nat.ofDigitChars_ten_toDigits

/-- What is printed is a sign, if there is one, and the digits. -/
theorem toDecimal_eq (value : Int) :
    toDecimal value = if value < 0 then 45 :: digitsOf value.natAbs else digitsOf value.natAbs := by
  have hnat (n : Nat) : ascii (toString n) = digitsOf n := by
    rw [ascii, digitsOf, show (toString n) = n.repr from rfl, Nat.toList_repr]
    rfl
  cases value with
  | ofNat n => exact hnat n
  | negSucc n =>
      rw [if_pos (Int.negSucc_lt_zero n)]
      change ascii ("-" ++ toString (n + 1)) = 45 :: digitsOf (n + 1)
      rw [← hnat, ascii, String.toList_append, List.map_append]
      rfl

/-! ## Reading -/

/-- The text does not go on with a digit. -/
def NoDigit (text : Bytes) : Prop := ∀ byte, text.head? = some byte → isDigit byte = false

theorem NoDigit.nil : NoDigit [] := fun _ hbyte => by cases hbyte

theorem takeWhile_digits {digits rest : Bytes} (hdigits : ∀ byte ∈ digits, isDigit byte = true)
    (hrest : NoDigit rest) : (digits ++ rest).takeWhile isDigit = digits := by
  rw [List.takeWhile_append_of_pos hdigits]
  cases rest with
  | nil => rw [List.takeWhile_nil, List.append_nil]
  | cons byte rest =>
      rw [List.takeWhile_cons_of_neg (by rw [hrest byte rfl]; decide), List.append_nil]

/-- A digit is neither white space nor a sign nor a NUL. -/
theorem digit_facts {byte : UInt8} (hdigit : isDigit byte = true) :
    isSpace byte = false ∧ byte ≠ 45 ∧ byte ≠ 43 ∧ byte ≠ 0 := by
  rw [isDigit, Bool.and_eq_true, decide_eq_true_eq, decide_eq_true_eq, UInt8.le_iff_toNat_le,
    UInt8.le_iff_toNat_le] at hdigit
  have hrange : 48 ≤ byte.toNat ∧ byte.toNat ≤ 57 := hdigit
  have hother {symbol : UInt8} (hsmall : symbol.toNat < 48) : byte ≠ symbol := by
    rintro rfl
    omega
  refine ⟨?_, hother (by decide), hother (by decide), hother (by decide)⟩
  have hlarge : ¬ byte.toNat ≤ 13 := by omega
  rw [isSpace, Bool.or_eq_false_iff, beq_eq_false_iff_ne, Bool.and_eq_false_iff,
    decide_eq_false_iff_not, decide_eq_false_iff_not, @UInt8.le_iff_toNat_le byte 13]
  exact ⟨hother (by decide), .inr hlarge⟩

theorem leadingInteger_digits {digits rest : Bytes} (hsome : digits ≠ [])
    (hdigits : ∀ byte ∈ digits, isDigit byte = true) (hrest : NoDigit rest) :
    leadingInteger (digits ++ rest) = some (digitsValue digits : Int) := by
  have htake := takeWhile_digits hdigits hrest
  obtain ⟨first, later, rfl⟩ := List.exists_cons_of_ne_nil hsome
  obtain ⟨hspace, hminus, hplus, -⟩ := digit_facts (hdigits first List.mem_cons_self)
  rw [List.cons_append] at htake ⊢
  unfold leadingInteger
  rw [List.dropWhile_cons_of_neg (by rw [hspace]; decide)]
  split
  case h_1 body hbody =>
      rw [List.cons.injEq] at hbody
      exact absurd hbody.1 hminus
  case h_2 body hbody =>
      rw [List.cons.injEq] at hbody
      exact absurd hbody.1 hplus
  case h_3 => simp only [htake, if_neg hsome, Bool.false_eq_true, if_false]

theorem leadingInteger_minus {digits rest : Bytes} (hsome : digits ≠ [])
    (hdigits : ∀ byte ∈ digits, isDigit byte = true) (hrest : NoDigit rest) :
    leadingInteger (45 :: (digits ++ rest)) = some (-(digitsValue digits : Int)) := by
  unfold leadingInteger
  rw [List.dropWhile_cons_of_neg (by decide)]
  simp only [takeWhile_digits hdigits hrest, if_neg hsome, if_true]

theorem leadingInteger_plus {digits : Bytes} (hsome : digits ≠ [])
    (hdigits : ∀ byte ∈ digits, isDigit byte = true) :
    leadingInteger (43 :: digits) = some (digitsValue digits : Int) := by
  have htake := takeWhile_digits hdigits .nil
  rw [List.append_nil] at htake
  unfold leadingInteger
  rw [List.dropWhile_cons_of_neg (by decide)]
  simp only [htake, if_neg hsome, Bool.false_eq_true, if_false]

/-- White space in front of a number is skipped. -/
theorem leadingInteger_space {byte : UInt8} (hspace : isSpace byte = true) (text : Bytes) :
    leadingInteger (byte :: text) = leadingInteger text := by
  unfold leadingInteger
  rw [List.dropWhile_cons_of_pos hspace]

theorem stoi_space {byte : UInt8} (hspace : isSpace byte = true) (text : Bytes) :
    stoi (byte :: text) = stoi text := by
  rw [stoi, stoi, leadingInteger_space hspace]

/-- The number is read as far as it was printed. -/
theorem leadingInteger_toDecimal (value : Int) {rest : Bytes} (hrest : NoDigit rest) :
    leadingInteger (toDecimal value ++ rest) = some value := by
  rw [toDecimal_eq]
  by_cases hnegative : value < 0
  · rw [if_pos hnegative, List.cons_append, leadingInteger_minus (digitsOf_ne_nil _)
      (fun _ => isDigit_of_mem_digitsOf) hrest, digitsValue_digitsOf]
    congr 1
    omega
  · rw [if_neg hnegative, leadingInteger_digits (digitsOf_ne_nil _)
      (fun _ => isDigit_of_mem_digitsOf) hrest, digitsValue_digitsOf]
    congr 1
    omega

/-- `to_string` and `stoi`. -/
theorem stoi_toDecimal {value : Int} (hmin : intMin ≤ value) (hmax : value ≤ intMax)
    {rest : Bytes} (hrest : NoDigit rest) : stoi (toDecimal value ++ rest) = .ok value := by
  rw [stoi, leadingInteger_toDecimal value hrest]
  simp only [hmin, hmax, and_self, if_true]

/-- Different numbers are printed differently. -/
theorem toDecimal_injective {first second : Int} (hsame : toDecimal first = toDecimal second) :
    first = second := by
  have hfirst := leadingInteger_toDecimal first .nil
  rw [hsame, leadingInteger_toDecimal second .nil] at hfirst
  exact (Option.some.inj hfirst).symm

/-- An `int` has at most ten digits and a sign. -/
theorem length_toDecimal_le {value : Int} (hmin : intMin ≤ value) (hmax : value ≤ intMax) :
    (toDecimal value).length ≤ 11 := by
  rw [intMin] at hmin
  rw [intMax] at hmax
  have hdigits : (digitsOf value.natAbs).length ≤ 10 := by
    rw [digitsOf, List.length_map, Nat.length_toDigits_le_iff (by decide) (by decide)]
    omega
  rw [toDecimal_eq]
  by_cases hnegative : value < 0
  · rw [if_pos hnegative, List.length_cons]
    omega
  · rw [if_neg hnegative]
    omega

/-! ## Trimming -/

/-- Trimming stops at the last byte that is not white space. -/
theorem trimRight_append {front : Bytes} {last : UInt8} (hlast : isSpace last = false)
    (rest : Bytes) : trimRight (front ++ last :: rest) = front ++ last :: trimRight rest := by
  have hstop : (last :: front.reverse).dropWhile isSpace = last :: front.reverse :=
    List.dropWhile_cons_of_neg (by rw [hlast]; decide)
  rw [trimRight, trimRight, List.reverse_append, List.reverse_cons, List.append_assoc,
    List.singleton_append, List.dropWhile_append, hstop]
  cases hrest : rest.reverse.dropWhile isSpace with
  | nil => simp
  | cons first later => simp

theorem trimRight_concat {last : UInt8} (hlast : isSpace last = true) (text : Bytes) :
    trimRight (text ++ [last]) = trimRight text := by
  rw [trimRight, List.reverse_append, List.reverse_singleton, List.singleton_append,
    List.dropWhile_cons_of_pos hlast, trimRight]

/-- Without white space at the end there is nothing to trim. -/
theorem trimRight_eq_self {text : Bytes}
    (hlast : ∀ byte, text.getLast? = some byte → isSpace byte = false) : trimRight text = text := by
  cases List.eq_nil_or_concat text with
  | inl hnil => rw [hnil]; rfl
  | inr hconcat =>
      obtain ⟨front, last, rfl⟩ := hconcat
      rw [List.concat_eq_append] at hlast ⊢
      exact trimRight_append (hlast last List.getLast?_concat) []

theorem toDecimal_concat (value : Int) :
    ∃ front last, toDecimal value = front ++ [last] ∧ isDigit last = true := by
  obtain ⟨front, last, hdigits⟩ :=
    (List.eq_nil_or_concat (digitsOf value.natAbs)).resolve_left (digitsOf_ne_nil _)
  rw [List.concat_eq_append] at hdigits
  have hlast : isDigit last = true :=
    @isDigit_of_mem_digitsOf value.natAbs last (by rw [hdigits]; simp)
  rw [toDecimal_eq, hdigits]
  by_cases hnegative : value < 0
  · exact ⟨45 :: front, last, by rw [if_pos hnegative]; rfl, hlast⟩
  · exact ⟨front, last, by rw [if_neg hnegative], hlast⟩

/-- Only digits and the sign are printed. -/
theorem not_mem_toDecimal {byte : UInt8} (hdigit : isDigit byte = false) (hminus : byte ≠ 45)
    (value : Int) : byte ∉ toDecimal value := by
  have hdigits : byte ∉ digitsOf value.natAbs := by
    intro hmem
    rw [isDigit_of_mem_digitsOf hmem] at hdigit
    cases hdigit
  rw [toDecimal_eq]
  by_cases hnegative : value < 0
  · rw [if_pos hnegative, List.mem_cons, not_or]
    exact ⟨hminus, hdigits⟩
  · rwa [if_neg hnegative]

/-! ## Numbers in front of something else -/

/-- Neither a digit nor a sign is read from the text, whether or not it starts with
white space. -/
def NoNumber (text : Bytes) : Prop :=
  NoDigit text ∧ ∀ byte, (text.dropWhile isSpace).head? = some byte →
    isDigit byte = false ∧ byte ≠ 45 ∧ byte ≠ 43

theorem leadingInteger_unsigned {text body : Bytes} {byte : UInt8}
    (htext : text.dropWhile isSpace = byte :: body) (hminus : byte ≠ 45) (hplus : byte ≠ 43) :
    leadingInteger text = if (byte :: body).takeWhile isDigit = [] then none
      else some (digitsValue ((byte :: body).takeWhile isDigit) : Int) := by
  unfold leadingInteger
  rw [htext]
  split
  case h_1 rest hrest => exact absurd (List.cons.inj hrest).1 hminus
  case h_2 rest hrest => exact absurd (List.cons.inj hrest).1 hplus
  case h_3 => rfl

theorem leadingInteger_noNumber {text : Bytes} (htext : NoNumber text) :
    leadingInteger text = none := by
  cases hrest : text.dropWhile isSpace with
  | nil =>
      unfold leadingInteger
      rw [hrest]
      rfl
  | cons byte rest =>
      obtain ⟨hdigit, hminus, hplus⟩ := htext.2 byte (by rw [hrest]; rfl)
      have hnone : (byte :: rest).takeWhile isDigit = [] :=
        List.takeWhile_cons_of_neg (by rw [hdigit]; decide)
      rw [leadingInteger_unsigned hrest hminus hplus, if_pos hnone]

theorem takeWhile_noDigit {rest : Bytes} (hrest : NoDigit rest) (front : Bytes) :
    (front ++ rest).takeWhile isDigit = front.takeWhile isDigit := by
  have hnone : rest.takeWhile isDigit = [] := by
    cases rest with
    | nil => rfl
    | cons byte rest => exact List.takeWhile_cons_of_neg (by rw [hrest byte rfl]; decide)
  rw [List.takeWhile_append, hnone, List.append_nil]
  by_cases hall : (front.takeWhile isDigit).length = front.length
  · rw [if_pos hall, (List.takeWhile_prefix isDigit).eq_of_length hall]
  · rw [if_neg hall]

/-- What follows matters to a number only if it goes on with one. -/
theorem leadingInteger_append {rest : Bytes} (hrest : NoNumber rest) (front : Bytes) :
    leadingInteger (front ++ rest) = leadingInteger front := by
  cases hfront : front.dropWhile isSpace with
  | nil =>
      have hsame : (front ++ rest).dropWhile isSpace = rest.dropWhile isSpace := by
        rw [List.dropWhile_append, hfront]
        rfl
      have hnone : leadingInteger front = none := by
        unfold leadingInteger
        rw [hfront]
        rfl
      rw [hnone, ← leadingInteger_noNumber hrest]
      unfold leadingInteger
      rw [hsame]
  | cons byte body =>
      have hsame : (front ++ rest).dropWhile isSpace = byte :: (body ++ rest) := by
        rw [List.dropWhile_append, hfront]
        rfl
      by_cases hminus : byte = 45
      · subst hminus
        unfold leadingInteger
        rw [hsame, hfront]
        simp only [takeWhile_noDigit hrest.1]
      · by_cases hplus : byte = 43
        · subst hplus
          unfold leadingInteger
          rw [hsame, hfront]
          simp only [takeWhile_noDigit hrest.1]
        · rw [leadingInteger_unsigned hsame hminus hplus,
            leadingInteger_unsigned hfront hminus hplus, ← List.cons_append,
            takeWhile_noDigit hrest.1]

theorem stoi_append {rest : Bytes} (hrest : NoNumber rest) (front : Bytes) :
    stoi (front ++ rest) = stoi front := by
  rw [stoi, stoi, leadingInteger_append hrest]

/-- A number ends at a NUL in any case. -/
theorem leadingInteger_cStr (text : Bytes) : leadingInteger (cStr text) = leadingInteger text := by
  have hrest : NoNumber (text.dropWhile (· ≠ 0)) := by
    cases hnul : text.dropWhile (· ≠ 0) with
    | nil => exact ⟨.nil, nofun⟩
    | cons byte rest =>
        have hzero : byte = 0 := by
          have hhead := List.head?_dropWhile_not (fun byte : UInt8 => decide (byte ≠ 0)) text
          rw [hnul] at hhead
          simpa using hhead
        subst hzero
        refine ⟨fun byte hbyte => ?_, fun byte hbyte => ?_⟩
        · cases hbyte
          decide
        · rw [List.dropWhile_cons_of_neg (by decide)] at hbyte
          cases hbyte
          decide
  have hsplit := leadingInteger_append hrest (cStr text)
  rwa [cStr, List.takeWhile_append_dropWhile, eq_comm] at hsplit

theorem stoi_cStr (text : Bytes) : stoi (cStr text) = stoi text := by
  rw [stoi, stoi, leadingInteger_cStr]

/-- `stoi` reads what `leadingInteger` does, if it is an `int`. -/
theorem stoi_eq_ok_iff {text : Bytes} {number : Int} : stoi text = .ok number ↔
    leadingInteger text = some number ∧ intMin ≤ number ∧ number ≤ intMax := by
  rw [stoi]
  cases hnumber : leadingInteger text with
  | none =>
      refine iff_of_false (fun hread => ?_) fun hread => ?_
      · cases hread
      · cases hread.1
  | some value =>
      by_cases hrange : intMin ≤ value ∧ value ≤ intMax
      · simp only [if_pos hrange]
        constructor
        · intro hread
          cases hread
          exact ⟨rfl, hrange⟩
        · rintro ⟨hread, -⟩
          cases hread
          rfl
      · simp only [if_neg hrange]
        refine iff_of_false (fun hread => ?_) fun hread => hrange ?_
        · cases hread
        · cases hread.1
          exact hread.2

/-- Every failure of `stoi` is a `std::exception`. -/
theorem stoi_failure {text : Bytes} {failure : Abort} (hread : stoi text = .error failure) :
    failure.isStdException = true := by
  rw [stoi] at hread
  cases hnumber : leadingInteger text with
  | none =>
      rw [hnumber] at hread
      cases hread
      rfl
  | some value =>
      rw [hnumber] at hread
      simp only [] at hread
      split at hread
      case isTrue => cases hread
      case isFalse =>
          cases hread
          rfl

/-- What `stoi` returns, `atoi` returns too. -/
theorem atoi_of_stoi {text : Bytes} {value : Int} (hread : stoi text = .ok value) :
    atoi text = value := by
  obtain ⟨hnumber, hmin, hmax⟩ := stoi_eq_ok_iff.mp hread
  rw [atoi, leadingInteger_cStr, hnumber]
  change max intMin (min intMax value) = value
  omega

/-- White space behind a number is not read. -/
theorem stoi_trimRight (text : Bytes) : stoi (trimRight text) = stoi text := by
  have hspace : ∀ byte ∈ (text.reverse.takeWhile isSpace).reverse, isSpace byte = true :=
    fun byte hbyte => List.mem_takeWhile_imp (List.mem_reverse.mp hbyte)
  have hrest : NoNumber (text.reverse.takeWhile isSpace).reverse := by
    refine ⟨fun byte hbyte => ?_, fun byte hbyte => ?_⟩
    · by_contra hdigit
      rw [Bool.not_eq_false] at hdigit
      have hblank := hspace byte (List.mem_of_head? hbyte)
      rw [(digit_facts hdigit).1] at hblank
      cases hblank
    · rw [List.dropWhile_eq_nil_iff.mpr hspace] at hbyte
      cases hbyte
  have hsplit := stoi_append hrest (trimRight text)
  rwa [trimRight, ← List.reverse_append, List.takeWhile_append_dropWhile, List.reverse_reverse,
    eq_comm] at hsplit

/-- A number in front of more text, as the sections of a text read it. -/
theorem stoi_trimmed {value : Int} (hmin : intMin ≤ value) (hmax : value ≤ intMax)
    {rest : Bytes} (hrest : NoDigit rest) (trim : Bool) :
    stoi (if trim then trimRight (cStr (toDecimal value ++ rest))
      else cStr (toDecimal value ++ rest)) = .ok value := by
  have hnumber : stoi (cStr (toDecimal value ++ rest)) = .ok value :=
    (stoi_cStr _).trans (stoi_toDecimal hmin hmax hrest)
  cases trim with
  | false => exact hnumber
  | true => exact (stoi_trimRight _).trans hnumber

end SrmotionProxy.Lib
