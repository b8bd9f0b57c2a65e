/-
# Variants and variant lists

`variant_t` and `variantlist_t` of `proton/variant.hpp`: a tagged value with a
16-byte scalar space and a separate string, and the seven slots in which a game
function call carries its name and arguments. The serializer and the parser are
translated with their size computations and their cursor; a read outside the
received bytes or a store outside the seven slots is undefined behaviour.
-/

import SrmotionProxy.Lib.Buffer
import Mathlib.Data.List.FinRange

namespace SrmotionProxy.Proton

open SrmotionProxy.Lib

/-! ## One variant -/

/-- `variant_t::vartype_t`, in the order of the enumeration. -/
inductive VarType where
  | unused | float | string | vector2 | vector3 | uint32 | entity | component | rect | int32
  deriving DecidableEq, Repr

namespace VarType

/-- The byte that stands for a type on the wire. -/
def code : VarType → UInt8
  | .unused => 0 | .float => 1 | .string => 2 | .vector2 => 3 | .vector3 => 4
  | .uint32 => 5 | .entity => 6 | .component => 7 | .rect => 8 | .int32 => 9

/-- `variant_t::vartype_t(type)`; a byte above 9 names no enumerator. -/
def ofCode (code : UInt8) : Option VarType :=
  match code with
  | 0 => some .unused | 1 => some .float | 2 => some .string | 3 => some .vector2
  | 4 => some .vector3 | 5 => some .uint32 | 6 => some .entity | 7 => some .component
  | 8 => some .rect | 9 => some .int32 | _ => none

@[simp]
theorem ofCode_code (type : VarType) : ofCode type.code = some type := by
  cases type <;> rfl

theorem code_of_ofCode {code : UInt8} {type : VarType} (hcode : ofCode code = some type) :
    code = type.code := by
  unfold ofCode at hcode
  split at hcode <;> first | cases hcode; rfl | cases hcode

end VarType

/-- The 16 bytes of `m_var`, as the four words every stored type is made of. -/
structure VarSpace where
  w0 : UInt32 := 0
  w1 : UInt32 := 0
  w2 : UInt32 := 0
  w3 : UInt32 := 0
  deriving DecidableEq, Repr

/-- The words in address order. -/
def VarSpace.words (space : VarSpace) : List UInt32 := [space.w0, space.w1, space.w2, space.w3]

/-- `variant_t`. Floats are kept as their bit patterns. The string survives a later
`set` of another type, as it does in the source. -/
structure Variant where
  mType : VarType := .unused
  mVar : VarSpace := {}
  mString : Bytes := []
  deriving DecidableEq, Repr

namespace Variant

def setFloat (x : UInt32) (v : Variant) : Variant :=
  { v with mType := .float, mVar := { v.mVar with w0 := x } }

def setUint32 (x : UInt32) (v : Variant) : Variant :=
  { v with mType := .uint32, mVar := { v.mVar with w0 := x } }

/-- `set(int32_t)`; the argument is the two's complement word. -/
def setInt32 (x : UInt32) (v : Variant) : Variant :=
  { v with mType := .int32, mVar := { v.mVar with w0 := x } }

def setString (text : Bytes) (v : Variant) : Variant :=
  { v with mType := .string, mString := text }

def setVector2 (x y : UInt32) (v : Variant) : Variant :=
  { v with mType := .vector2, mVar := { v.mVar with w0 := x, w1 := y } }

def setVector3 (x y z : UInt32) (v : Variant) : Variant :=
  { v with mType := .vector3, mVar := { v.mVar with w0 := x, w1 := y, w2 := z } }

def setRect (x y w h : UInt32) (v : Variant) : Variant :=
  { v with mType := .rect, mVar := ⟨x, y, w, h⟩ }

/-- The non-const `get_uint32()`: an unused variant becomes the number zero first. -/
def getUint32 (v : Variant) : UInt32 × Variant :=
  let read := if v.mType = .unused then v.setUint32 0 else v
  (read.mVar.w0, read)

/-- `get_string()`: the string member, whatever the type is. -/
def getString (v : Variant) : Bytes := v.mString

end Variant

/-! ## Seven of them -/

/-- `variantlist_t::m_variant`; there are `C_MAX_VARIANT_LIST_PARMS` slots. -/
abbrev VariantList := Fin 7 → Variant

/-- The literals `0` to `6` are slots. -/
instance slotsExist : NeZero 7 := ⟨by decide⟩

namespace VariantList

/-- A list whose slots are all unused. -/
def fresh : VariantList := fun _ => {}

/-- `varlist[index] = ...` -/
def modify (list : VariantList) (index : Fin 7) (update : Variant → Variant) : VariantList :=
  Function.update list index (update (list index))

/-- `variantlist_t varlist{ name }`. -/
def ofString (name : Bytes) : VariantList := fresh.modify 0 (Variant.setString name)

@[simp]
theorem modify_same (list : VariantList) (index : Fin 7) (update : Variant → Variant) :
    list.modify index update index = update (list index) := by
  simp [modify]

theorem modify_of_ne (list : VariantList) {index other : Fin 7} (update : Variant → Variant)
    (hne : other ≠ index) : list.modify index update other = list other := by
  simp [modify, hne]

end VariantList

/-! ## Sizes -/

/-- `size_of_variant`. -/
def sizeOfVariant : VarType → Nat
  | .unused | .component | .entity => 0
  | .uint32 | .int32 | .float => 4
  | .vector2 => 8
  | .vector3 => 12
  | .rect => 16
  | .string => 0

/-- `var_size` of one slot, an `int`. -/
def varSize (v : Variant) : Int :=
  if v.mType = .string then wrapInt (v.getString.length + 4) else sizeOfVariant v.mType

/-- The two counters of the sizing loop. -/
structure MemCount where
  varsUsed : Int := 0
  memNeeded : Int := 0
  deriving DecidableEq, Repr

/-- One iteration of the sizing loop. -/
def MemCount.add (count : MemCount) (v : Variant) : MemCount :=
  if 0 < varSize v then
    { varsUsed := count.varsUsed + 1, memNeeded := wrapInt (count.memNeeded + varSize v) }
  else count

/-- The sizing loop, which `get_mem_needed` and `serialize_to_mem` both contain. -/
def memCount (list : VariantList) : MemCount :=
  (List.finRange 7).foldl (fun count index => count.add (list index)) {}

/-- `total`. -/
def MemCount.total (count : MemCount) : Int := wrapInt (count.memNeeded + 1 + count.varsUsed * 2)

/-- `variantlist_t::get_mem_needed`. -/
def getMemNeeded (list : VariantList) : UInt32 := UInt32.ofInt (memCount list).total

/-! ## Writing -/

/-- What the writing loop stores for one slot. -/
def itemBytes (index : Nat) (v : Variant) : Bytes :=
  if v.mType = .string then
    let len := UInt32.ofNat v.getString.length
    [UInt8.ofNat index, v.mType.code] ++ le32 len ++ v.getString.take len.toNat
  else if 0 < varSize v then
    [UInt8.ofNat index, v.mType.code] ++
      (v.mVar.words.take (sizeOfVariant v.mType / 4)).flatMap le32
  else []

/-- Everything `serialize_to_mem` stores through `p`. -/
def storedBytes (list : VariantList) : Bytes :=
  UInt8.ofNat (memCount list).varsUsed.toNat ::
    (List.finRange 7).flatMap fun index : Fin 7 => itemBytes index.val (list index)

/-- `variantlist_t::serialize_to_mem(&size, nullptr)`: the data and `*size`. The
buffer has `total` bytes, so a loop that stores another number has left it. -/
def serializeToMem (list : VariantList) : Except Abort (Bytes × UInt32) :=
  let total := (memCount list).total
  let stored := storedBytes list
  if total = stored.length then .ok (stored, UInt32.ofInt total)
  else .error .undefinedBehaviour

/-! ## Reading -/

/-- The switch of `serialize_from_mem`: the setter to apply and the advanced
cursor, or `none` in the `default` case. -/
def readVariant (type : UInt8) (p : Bytes) : Except Abort (Option ((Variant → Variant) × Bytes)) :=
  match VarType.ofCode type with
  | some .string => do
      let (len, p) ← readWord p
      let (v, p) ← readBytes len.toNat p
      return some (Variant.setString v, p)
  | some .uint32 => do
      let (v, p) ← readWord p
      return some (Variant.setUint32 v, p)
  | some .int32 => do
      let (v, p) ← readWord p
      return some (Variant.setInt32 v, p)
  | some .float => do
      let (v, p) ← readWord p
      return some (Variant.setFloat v, p)
  | some .vector2 => do
      let (x, p) ← readWord p
      let (y, p) ← readWord p
      return some (Variant.setVector2 x y, p)
  | some .vector3 => do
      let (x, p) ← readWord p
      let (y, p) ← readWord p
      let (z, p) ← readWord p
      return some (Variant.setVector3 x y z, p)
  | some .rect => do
      let (x, p) ← readWord p
      let (y, p) ← readWord p
      let (w, p) ← readWord p
      let (h, p) ← readWord p
      return some (Variant.setRect x y w h, p)
  | _ => return none

/-- `m_variant[index].set(v)` for an index byte from the packet. -/
def storeVariant (list : VariantList) (index : UInt8) (update : Variant → Variant) :
    Except Abort VariantList :=
  if hindex : index.toNat < 7 then .ok (list.modify ⟨index.toNat, hindex⟩ update)
  else .error .undefinedBehaviour

/-- The loop of `serialize_from_mem` with `count` items to go: its verdict, the
cursor it stops at and the list as filled so far. -/
def readItems : Nat → Bytes → VariantList → Except Abort (Bool × Bytes × VariantList)
  | 0, p, list => .ok (true, p, list)
  | count + 1, p, list => do
      let (index, p) ← readByte p
      let (type, p) ← readByte p
      match ← readVariant type p with
      | none => return (false, p, list)
      | some (update, p) => readItems count p (← storeVariant list index update)

/-- What a call of `serialize_from_mem` leaves behind. -/
structure Parsed where
  accepted : Bool
  read : Nat
  list : VariantList

/-- `variantlist_t::serialize_from_mem(data, &read)` on the list `list`. -/
def serializeFromMem (data : Bytes) (list : VariantList) : Except Abort Parsed := do
  let (count, p) ← readByte data
  let (accepted, p, list) ← readItems count.toNat p list
  return { accepted, read := if accepted then data.length - p.length else 0, list }

end SrmotionProxy.Proton
