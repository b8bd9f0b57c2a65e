/-
# Byte texts and the C++ string operations on them

A `std::string` is a list of bytes. This module gives the searching, splitting
and number-reading operations of the standard library on such lists: `find` and
`rfind` over any alphabet, the `std::getline` tokeniser, `substr` with its
`out_of_range` failure, and the decimal readers `stoi` and `atoi`.

Positions are natural numbers; `npos` and the wrapping `size_t` arithmetic on it
are explicit, because C++ callers routinely add to the result of a failed search.
-/

import Mathlib.Algebra.Group.Int.Defs
import Mathlib.Algebra.Group.Nat.Defs
import Mathlib.Algebra.GroupWithZero.Nat
import Mathlib.Data.List.Infix
import Mathlib.Data.List.TakeWhile

namespace SrmotionProxy.Lib

/-! ## Sequences over any alphabet -/

namespace Seq

variable {α : Type} [DecidableEq α]

/-- The first position at which `pattern` occurs. -/
def find (pattern : List α) : List α → Option Nat
  | [] => if pattern = [] then some 0 else none
  | symbol :: rest =>
      if pattern.isPrefixOf (symbol :: rest) then some 0
      else (find pattern rest).map (· + 1)

/-- The last position at which `pattern` occurs. -/
def rfind (pattern : List α) : List α → Option Nat
  | [] => if pattern = [] then some 0 else none
  | symbol :: rest =>
      match rfind pattern rest with
      | some position => some (position + 1)
      | none => if pattern.isPrefixOf (symbol :: rest) then some 0 else none

/-- The tokens `std::getline` reads one after another: the text between
separators, where a final empty token is never delivered. -/
def getlines (separator : α) : List α → List (List α)
  | [] => []
  | symbol :: rest =>
      if symbol = separator then [] :: getlines separator rest
      else
        match getlines separator rest with
        | [] => [[symbol]]
        | token :: tokens => (symbol :: token) :: tokens

/-- A single symbol is found where it first occurs. -/
theorem find_singleton_of_not_mem {symbol : α} {before : List α}
    (habsent : symbol ∉ before) (after : List α) :
    find [symbol] (before ++ symbol :: after) = some before.length := by
  induction before with
  | nil => simp [find]
  | cons first rest ih =>
      simp only [List.mem_cons, not_or] at habsent
      have hfirst : ¬ [symbol].isPrefixOf (first :: (rest ++ symbol :: after)) := by
        simpa using habsent.1
      rw [List.cons_append, find, if_neg hfirst, ih habsent.2]
      rfl

/-- A symbol that does not occur is not found. -/
theorem find_singleton_eq_none {symbol : α} {text : List α} (habsent : symbol ∉ text) :
    find [symbol] text = none := by
  induction text with
  | nil => simp [find]
  | cons first rest ih =>
      simp only [List.mem_cons, not_or] at habsent
      have hfirst : ¬ [symbol].isPrefixOf (first :: rest) := by
        simpa using habsent.1
      rw [find, if_neg hfirst, ih habsent.2]
      rfl

/-- A pattern sits at position zero exactly when the text starts with it. -/
theorem find_eq_zero_iff {pattern text : List α} :
    find pattern text = some 0 ↔ pattern <+: text := by
  cases text with
  | nil =>
      by_cases hempty : pattern = [] <;> simp [find, hempty]
  | cons first rest =>
      by_cases hstart : pattern.isPrefixOf (first :: rest)
      · simp [find, hstart, List.isPrefixOf_iff_prefix.mp hstart]
      · have hnot : ¬ pattern <+: first :: rest := fun h =>
          hstart (List.isPrefixOf_iff_prefix.mpr h)
        cases hlater : find pattern rest <;> simp [find, hstart, hnot, hlater]

end Seq

/-! ## Bytes -/

/-- The contents of a `std::string` or of a buffer. -/
abbrev Bytes := List UInt8

/-- The bytes of an ASCII literal. -/
def ascii (literal : String) : Bytes :=
  literal.toList.map fun symbol => UInt8.ofNat symbol.toNat

/-- The text a `char*` denotes: everything before the first NUL. -/
def cStr (text : Bytes) : Bytes := text.takeWhile (· ≠ 0)

theorem cStr_append_nul {text : Bytes} (hfree : (0 : UInt8) ∉ text) (rest : Bytes) :
    cStr (text ++ 0 :: rest) = text := by
  have hall : ∀ byte ∈ text, decide (byte ≠ 0) = true := fun byte hbyte => by
    simpa using fun hzero : byte = 0 => hfree (hzero ▸ hbyte)
  rw [cStr, List.takeWhile_append_of_pos hall]
  simp

/-- `std::isspace` in the C locale. -/
def isSpace (byte : UInt8) : Bool := byte == 32 || (9 ≤ byte && byte ≤ 13)

/-- `std::isdigit`. -/
def isDigit (byte : UInt8) : Bool := 48 ≤ byte && byte ≤ 57

/-- `::tolower` in the C locale. -/
def toLower (byte : UInt8) : UInt8 := if 65 ≤ byte && byte ≤ 90 then byte + 32 else byte

/-- `::toupper` in the C locale. -/
def toUpper (byte : UInt8) : UInt8 := if 97 ≤ byte && byte ≤ 122 then byte - 32 else byte

/-- The loop that erases trailing white space. -/
def trimRight (text : Bytes) : Bytes := (text.reverse.dropWhile isSpace).reverse

/-! ## Positions and `size_t` arithmetic -/

/-- `std::string::npos`. -/
def npos : Nat := 2 ^ 64 - 1

/-- `a + b` on `size_t`. -/
def addSize (a b : Nat) : Nat := (a + b) % 2 ^ 64

/-- `a - b` on `size_t`. -/
def subSize (a b : Nat) : Nat := (a + (2 ^ 64 - b % 2 ^ 64)) % 2 ^ 64

/-- `text.find(pattern)`. -/
def findPos (text pattern : Bytes) : Nat := (Seq.find pattern text).getD npos

/-- `text.rfind(pattern)`. -/
def rfindPos (text pattern : Bytes) : Nat := (Seq.rfind pattern text).getD npos

/-- `text.find(pattern) != -1`. -/
def contains (text pattern : Bytes) : Bool := (Seq.find pattern text).isSome

/-- Replace the first occurrence of `pattern`, if there is one. -/
def replaceFirst (text pattern replacement : Bytes) : Bytes :=
  match Seq.find pattern text with
  | none => text
  | some position =>
      text.take position ++ replacement ++ text.drop (position + pattern.length)

/-! ## How a C++ computation stops early -/

/-- The ways a call can fail to return. The first three are exceptions derived
from `std::exception`; the last stands for undefined behaviour (an access outside
a buffer, a null dereference), after which nothing is promised and which no
`catch` sees. -/
inductive Abort where
  | outOfRange
  | invalidArgument
  | runtimeError
  | undefinedBehaviour
  deriving DecidableEq, Repr

/-- Whether `catch (std::exception)` stops it. -/
def Abort.isStdException : Abort → Bool
  | .undefinedBehaviour => false
  | _ => true

@[simp]
theorem except_ok_bind {ε α β : Type} (value : α) (next : α → Except ε β) :
    (Except.ok value >>= next) = next value := rfl

@[simp]
theorem except_error_bind {ε α β : Type} (failure : ε) (next : α → Except ε β) :
    (Except.error failure >>= next) = .error failure := rfl

theorem bind_of_ok {ε α β : Type} {first : Except ε α} {value : α} (hfirst : first = .ok value)
    (rest : α → Except ε β) : (first >>= rest) = rest value := by
  rw [hfirst, except_ok_bind]

/-- A sequence that succeeds splits at its intermediate value. -/
theorem except_bind_eq_ok {ε α β : Type} {first : Except ε α} {next : α → Except ε β}
    {result : β} (hrun : (first >>= next) = .ok result) :
    ∃ value, first = .ok value ∧ next value = .ok result := by
  cases first with
  | ok value => exact ⟨value, rfl, hrun⟩
  | error failure => cases hrun

/-- `text.substr(position, count)`. -/
def substr (text : Bytes) (position count : Nat) : Except Abort Bytes :=
  if position ≤ text.length then .ok ((text.drop position).take count)
  else .error .outOfRange

/-- `text.substr(position)`. -/
def substrFrom (text : Bytes) (position : Nat) : Except Abort Bytes :=
  if position ≤ text.length then .ok (text.drop position) else .error .outOfRange

theorem substrFrom_of_le {text : Bytes} {position : Nat} (hle : position ≤ text.length) :
    substrFrom text position = .ok (text.drop position) := if_pos hle

theorem substrFrom_of_lt {text : Bytes} {position : Nat} (hlt : text.length < position) :
    substrFrom text position = .error .outOfRange := if_neg (by omega)

/-- The rest of a text behind its front. -/
theorem substrFrom_append {front rest : Bytes} {position : Nat}
    (hposition : position = front.length) : substrFrom (front ++ rest) position = .ok rest := by
  subst hposition
  rw [substrFrom_of_le (by rw [List.length_append]; omega), List.drop_left]

theorem substr_zero (text : Bytes) (count : Nat) :
    substr text 0 count = .ok (text.take count) := by
  simp [substr]

theorem substr_append {front rest : Bytes} {position count : Nat}
    (hposition : position = front.length) (hcount : rest.length ≤ count) :
    substr (front ++ rest) position count = .ok rest := by
  subst hposition
  rw [substr, if_pos (by rw [List.length_append]; omega), List.drop_left,
    List.take_of_length_le hcount]

theorem substr_failure {text : Bytes} {position count : Nat} {failure : Abort}
    (hfailure : substr text position count = .error failure) : failure = .outOfRange := by
  unfold substr at hfailure
  by_cases hinside : position ≤ text.length
  · rw [if_pos hinside] at hfailure
    cases hfailure
  · rw [if_neg hinside] at hfailure
    cases hfailure
    rfl

theorem substrFrom_failure {text : Bytes} {position : Nat} {failure : Abort}
    (hfailure : substrFrom text position = .error failure) : failure = .outOfRange := by
  unfold substrFrom at hfailure
  by_cases hinside : position ≤ text.length
  · rw [if_pos hinside] at hfailure
    cases hfailure
  · rw [if_neg hinside] at hfailure
    cases hfailure
    rfl

/-! ## Reading and printing decimal numbers -/

/-- The number a run of decimal digits denotes. -/
def digitsValue (digits : Bytes) : Nat :=
  digits.foldl (fun value digit => value * 10 + (digit.toNat - 48)) 0

/-- The integer at the start of `text`, as `strtol` reads it: white space, an
optional sign, then at least one digit. -/
def leadingInteger (text : Bytes) : Option Int :=
  let read (negative : Bool) (body : Bytes) : Option Int :=
    let digits := body.takeWhile isDigit
    if digits = [] then none
    else some (if negative then -(digitsValue digits : Int) else digitsValue digits)
  match text.dropWhile isSpace with
  | 45 :: body => read true body
  | 43 :: body => read false body
  | body => read false body

def intMin : Int := -2147483648

def intMax : Int := 2147483647

/-- Reduce to the value a 32-bit `int` holds. -/
def wrapInt (value : Int) : Int := (value + 2 ^ 31) % 2 ^ 32 - 2 ^ 31

/-- `std::stoi`. -/
def stoi (text : Bytes) : Except Abort Int :=
  match leadingInteger text with
  | none => .error .invalidArgument
  | some value =>
      if intMin ≤ value ∧ value ≤ intMax then .ok value else .error .outOfRange

/-- `atoi`; a value outside `int` saturates, as the Microsoft runtime documents. -/
def atoi (text : Bytes) : Int :=
  match leadingInteger (cStr text) with
  | none => 0
  | some value => max intMin (min intMax value)

def longMin : Int := -9223372036854775808

def longMax : Int := 9223372036854775807

/-- `atoll`, which saturates at the ends of `long long`. -/
def atoll (text : Bytes) : Int :=
  match leadingInteger (cStr text) with
  | none => 0
  | some value => max longMin (min longMax value)

/-- `std::to_string` of an integer. -/
def toDecimal (value : Int) : Bytes := ascii (toString value)

example : stoi (ascii " -12|x") = .ok (-12) := by decide

example : Seq.getlines 124 (ascii "a||b|") = [ascii "a", [], ascii "b"] := by decide

end SrmotionProxy.Lib
