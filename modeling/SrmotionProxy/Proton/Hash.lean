/-
# Hashes

`hs::hash32` of `proton/hash.hpp`, by which function calls are told apart, and
`utils::hash`, by which a hardware address is fingerprinted.
-/

import SrmotionProxy.Lib.Text

namespace SrmotionProxy.Proton

open SrmotionProxy.Lib

/-- `uint32_t(str[0])` for a signed `char`. -/
def signExtend (symbol : UInt8) : UInt32 :=
  if symbol < 128 then symbol.toUInt32 else 0xFFFFFF00 ||| symbol.toUInt32

/-- `hs::hash32` on a C string. -/
def hash32 (str : Bytes) : UInt32 :=
  (cStr str).foldl (fun value symbol => (value ^^^ signExtend symbol) * 0x1000193) 0x811c9dc5

/-- `fnv32` on a literal. -/
def fnv32 (literal : String) : UInt32 := hash32 (ascii literal)

/-- `utils::hash`; a length of zero means up to the NUL. -/
def hash (str : Bytes) (len : Nat) : UInt32 :=
  let bytes := if len = 0 then cStr str else str.take len
  bytes.foldl (fun acc symbol => (acc >>> 27) + (acc <<< 5) + symbol.toUInt32) 0x55555555

/-- `utils::hex_str`. -/
def hexStr (data : UInt8) : Bytes :=
  let digit (nibble : Nat) : UInt8 := (ascii "0123456789abcdef").getD nibble 48
  [digit (data.toNat / 16), digit (data.toNat % 16)]

end SrmotionProxy.Proton
