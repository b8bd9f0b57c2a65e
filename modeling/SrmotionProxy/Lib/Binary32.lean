/-
# Single precision bit patterns

The two conversions the proxy makes between `int` and `float`, on the bit patterns:
an integer rounded to the nearest float with ties to even, and a float divided by a
power of two and cut off to an `int`.
-/

import SrmotionProxy.Lib.Text

namespace SrmotionProxy.Lib.Binary32

/-- The magnitude bits of the float nearest to a natural number. A mantissa that
rounds up to 2^24 carries into the exponent by itself. -/
def ofNat (n : Nat) : Nat :=
  if n = 0 then 0
  else
    let exponent := Nat.log2 n
    let mantissa :=
      if exponent ≤ 23 then n * 2 ^ (23 - exponent)
      else
        let shift := exponent - 23
        let quotient := n / 2 ^ shift
        let remainder := n % 2 ^ shift
        let half := 2 ^ (shift - 1)
        if half < remainder ∨ (remainder = half ∧ quotient % 2 = 1) then quotient + 1
        else quotient
    (exponent + 127) * 2 ^ 23 + (mantissa - 2 ^ 23)

/-- `float(x)`. -/
def ofInt (x : Int) : UInt32 :=
  if x < 0 then UInt32.ofNat (2 ^ 31 + ofNat x.natAbs) else UInt32.ofNat (ofNat x.natAbs)

/-- `int(x / 2^k)`. What does not fit an `int` gives the value the processor returns
for it, the smallest `int`. -/
def truncScaled (bits : UInt32) (k : Nat) : Int :=
  let exponent := bits.toNat / 2 ^ 23 % 256
  let fraction := bits.toNat % 2 ^ 23
  if exponent = 255 then intMin
  else if exponent = 0 then 0
  else
    let mantissa := 2 ^ 23 + fraction
    let magnitude : Nat :=
      if 150 + k ≤ exponent then mantissa * 2 ^ (exponent - 150 - k)
      else mantissa / 2 ^ (150 + k - exponent)
    let value : Int := if 2 ^ 31 ≤ bits.toNat then -magnitude else magnitude
    if intMin ≤ value ∧ value ≤ intMax then value else intMin

example : ofInt 16777217 = 0x4B800000 ∧ ofInt (-5) = 0xC0A00000 := by decide

example : truncScaled (ofInt (-100)) 5 = -3 := by decide

end SrmotionProxy.Lib.Binary32
