/-
# The wire format of variant lists

The abstract side of the serializer: the value a variant denotes, the bytes that
carry it, and payloads as sequences of `(slot, value)` items. Both directions are
proved for the parser of `Variant`: it inverts the items it is given, and whatever
it accepts is a sequence of items. Encoding a list and parsing it into a fresh one
therefore returns the same values, whatever follows in the buffer.
-/

import SrmotionProxy.Proton.Variant
import Mathlib.Tactic.Ring

namespace SrmotionProxy.Proton

open SrmotionProxy.Lib

/-! ## Values -/

/-- What a variant denotes; two variants are equal for the game when their values
are. Floating point numbers count by bit pattern. -/
inductive Value where
  | unused
  | entity
  | component
  | float (x : UInt32)
  | string (text : Bytes)
  | vector2 (x y : UInt32)
  | vector3 (x y z : UInt32)
  | uint32 (x : UInt32)
  | rect (x y w h : UInt32)
  | int32 (x : UInt32)
  deriving DecidableEq, Repr

/-- The value of a variant: the members its type selects. -/
def Variant.value (v : Variant) : Value :=
  match v.mType with
  | .unused => .unused
  | .entity => .entity
  | .component => .component
  | .float => .float v.mVar.w0
  | .string => .string v.mString
  | .vector2 => .vector2 v.mVar.w0 v.mVar.w1
  | .vector3 => .vector3 v.mVar.w0 v.mVar.w1 v.mVar.w2
  | .uint32 => .uint32 v.mVar.w0
  | .rect => .rect v.mVar.w0 v.mVar.w1 v.mVar.w2 v.mVar.w3
  | .int32 => .int32 v.mVar.w0

/-- The values of all slots. -/
def VariantList.values (list : VariantList) : Fin 7 → Value := fun slot => (list slot).value

namespace Value

def type : Value → VarType
  | .unused => .unused
  | .entity => .entity
  | .component => .component
  | .float _ => .float
  | .string _ => .string
  | .vector2 _ _ => .vector2
  | .vector3 _ _ _ => .vector3
  | .uint32 _ => .uint32
  | .rect _ _ _ _ => .rect
  | .int32 _ => .int32

/-- The bytes that follow slot and type. -/
def payload : Value → Bytes
  | .unused | .entity | .component => []
  | .float x | .uint32 x | .int32 x => le32 x
  | .string text => le32 (UInt32.ofNat text.length) ++ text
  | .vector2 x y => le32 x ++ le32 y
  | .vector3 x y z => le32 x ++ (le32 y ++ le32 z)
  | .rect x y w h => le32 x ++ (le32 y ++ (le32 w ++ le32 h))

/-- The setter that stores a value. -/
def write : Value → Variant → Variant
  | .unused | .entity | .component => id
  | .float x => Variant.setFloat x
  | .string text => Variant.setString text
  | .vector2 x y => Variant.setVector2 x y
  | .vector3 x y z => Variant.setVector3 x y z
  | .uint32 x => Variant.setUint32 x
  | .rect x y w h => Variant.setRect x y w h
  | .int32 x => Variant.setInt32 x

/-- The values a packet can carry: those of the seven types with a wire form, with
strings whose length fits the 32-bit length field. -/
def Carried : Value → Prop
  | .unused | .entity | .component => False
  | .string text => text.length < 2 ^ 32
  | _ => True

instance (value : Value) : Decidable value.Carried := by
  unfold Carried
  split <;> infer_instance

theorem value_write {value : Value} (hcarried : value.Carried) (v : Variant) :
    (value.write v).value = value := by
  cases value <;> first | rfl | exact hcarried.elim

end Value

@[simp]
theorem value_type (v : Variant) : v.value.type = v.mType := by
  unfold Variant.value
  split <;> simp_all [Value.type]

/-- Whether a type has a wire form. -/
def VarType.carried : VarType → Bool
  | .unused | .entity | .component => false
  | _ => true

/-- Whether a type byte names a type with a wire form. -/
def carriedCode (code : UInt8) : Bool := (VarType.ofCode code).any VarType.carried

theorem Value.carriedCode_type {value : Value} (hcarried : value.Carried) :
    carriedCode value.type.code = true := by
  cases value <;> first | rfl | exact hcarried.elim

/-! ## One item -/

/-- The switch reads back the payload it is given. -/
theorem readVariant_payload {value : Value} (hcarried : value.Carried) (rest : Bytes) :
    readVariant value.type.code (value.payload ++ rest) = .ok (some (value.write, rest)) := by
  cases value with
  | unused | entity | component => exact hcarried.elim
  | float x | uint32 x | int32 x =>
      simp only [readVariant, Value.type, VarType.ofCode_code, Value.payload,
        readWord_le32_append]
      rfl
  | vector2 x y =>
      simp only [readVariant, Value.type, VarType.ofCode_code, Value.payload,
        List.append_assoc, readWord_le32_append, except_ok_bind]
      rfl
  | vector3 x y z =>
      simp only [readVariant, Value.type, VarType.ofCode_code, Value.payload,
        List.append_assoc, readWord_le32_append, except_ok_bind]
      rfl
  | rect x y w h =>
      simp only [readVariant, Value.type, VarType.ofCode_code, Value.payload,
        List.append_assoc, readWord_le32_append, except_ok_bind]
      rfl
  | string text =>
      have hlength : text.length = (UInt32.ofNat text.length).toNat := by
        rw [UInt32.toNat_ofNat', Nat.mod_eq_of_lt hcarried]
      simp only [readVariant, Value.type, VarType.ofCode_code, Value.payload,
        List.append_assoc, readWord_le32_append, except_ok_bind,
        readBytes_append hlength rest]
      rfl

/-- Exactness of the switch: what it accepts is a payload of that type. -/
theorem readVariant_eq_some {code : UInt8} {p rest : Bytes} {update : Variant → Variant}
    (hread : readVariant code p = .ok (some (update, rest))) :
    ∃ value : Value, value.Carried ∧ code = value.type.code ∧ p = value.payload ++ rest ∧
      update = value.write := by
  unfold readVariant at hread
  split at hread
  case h_1 hcode =>
      obtain ⟨⟨len, cursor⟩, hlen, hread⟩ := except_bind_eq_ok hread
      obtain ⟨⟨text, after⟩, htext, hread⟩ := except_bind_eq_ok hread
      cases hread
      obtain ⟨rfl, hlength⟩ := readBytes_eq_ok htext
      have hword : UInt32.ofNat text.length = len := by rw [hlength, UInt32.ofNat_toNat]
      refine ⟨.string text, ?_, VarType.code_of_ofCode hcode, ?_, rfl⟩
      · rw [Value.Carried, hlength]
        exact len.toNat_lt
      · rw [readWord_eq_ok hlen, Value.payload, hword, List.append_assoc]
  case h_2 hcode =>
      obtain ⟨⟨x, afterX⟩, hx, hread⟩ := except_bind_eq_ok hread
      cases hread
      exact ⟨.uint32 x, trivial, VarType.code_of_ofCode hcode, readWord_eq_ok hx, rfl⟩
  case h_3 hcode =>
      obtain ⟨⟨x, afterX⟩, hx, hread⟩ := except_bind_eq_ok hread
      cases hread
      exact ⟨.int32 x, trivial, VarType.code_of_ofCode hcode, readWord_eq_ok hx, rfl⟩
  case h_4 hcode =>
      obtain ⟨⟨x, afterX⟩, hx, hread⟩ := except_bind_eq_ok hread
      cases hread
      exact ⟨.float x, trivial, VarType.code_of_ofCode hcode, readWord_eq_ok hx, rfl⟩
  case h_5 hcode =>
      obtain ⟨⟨x, afterX⟩, hx, hread⟩ := except_bind_eq_ok hread
      obtain ⟨⟨y, afterY⟩, hy, hread⟩ := except_bind_eq_ok hread
      cases hread
      refine ⟨.vector2 x y, trivial, VarType.code_of_ofCode hcode, ?_, rfl⟩
      rw [readWord_eq_ok hx, readWord_eq_ok hy, Value.payload, List.append_assoc]
  case h_6 hcode =>
      obtain ⟨⟨x, afterX⟩, hx, hread⟩ := except_bind_eq_ok hread
      obtain ⟨⟨y, afterY⟩, hy, hread⟩ := except_bind_eq_ok hread
      obtain ⟨⟨z, afterZ⟩, hz, hread⟩ := except_bind_eq_ok hread
      cases hread
      refine ⟨.vector3 x y z, trivial, VarType.code_of_ofCode hcode, ?_, rfl⟩
      rw [readWord_eq_ok hx, readWord_eq_ok hy, readWord_eq_ok hz, Value.payload]
      simp only [List.append_assoc]
  case h_7 hcode =>
      obtain ⟨⟨x, afterX⟩, hx, hread⟩ := except_bind_eq_ok hread
      obtain ⟨⟨y, afterY⟩, hy, hread⟩ := except_bind_eq_ok hread
      obtain ⟨⟨w, afterW⟩, hw, hread⟩ := except_bind_eq_ok hread
      obtain ⟨⟨h, afterH⟩, hh, hread⟩ := except_bind_eq_ok hread
      cases hread
      refine ⟨.rect x y w h, trivial, VarType.code_of_ofCode hcode, ?_, rfl⟩
      rw [readWord_eq_ok hx, readWord_eq_ok hy, readWord_eq_ok hw, readWord_eq_ok hh,
        Value.payload]
      simp only [List.append_assoc]
  case h_8 => cases hread

/-- A byte that names no carried type takes the `default` case. -/
theorem readVariant_of_not_carried {code : UInt8} (hcode : carriedCode code = false)
    (p : Bytes) : readVariant code p = .ok none := by
  unfold carriedCode at hcode
  unfold readVariant
  cases htype : VarType.ofCode code with
  | none => rfl
  | some type =>
      rw [htype] at hcode
      cases type <;> first | rfl | cases hcode

/-- A carried type never takes the `default` case. -/
theorem not_carried_of_readVariant {code : UInt8} {p : Bytes}
    (hread : readVariant code p = .ok none) : carriedCode code = false := by
  unfold readVariant at hread
  unfold carriedCode
  cases htype : VarType.ofCode code with
  | none => rfl
  | some type =>
      rw [htype] at hread
      cases type with
      | unused | entity | component => rfl
      | float | uint32 | int32 =>
          obtain ⟨_, _, hread⟩ := except_bind_eq_ok hread
          cases hread
      | vector2 | string =>
          obtain ⟨_, _, hread⟩ := except_bind_eq_ok hread
          obtain ⟨_, _, hread⟩ := except_bind_eq_ok hread
          cases hread
      | vector3 =>
          obtain ⟨_, _, hread⟩ := except_bind_eq_ok hread
          obtain ⟨_, _, hread⟩ := except_bind_eq_ok hread
          obtain ⟨_, _, hread⟩ := except_bind_eq_ok hread
          cases hread
      | rect =>
          obtain ⟨_, _, hread⟩ := except_bind_eq_ok hread
          obtain ⟨_, _, hread⟩ := except_bind_eq_ok hread
          obtain ⟨_, _, hread⟩ := except_bind_eq_ok hread
          obtain ⟨_, _, hread⟩ := except_bind_eq_ok hread
          cases hread

/-! ## Sequences of items -/

/-- A slot and the value a packet stores in it. -/
structure Item where
  slot : Fin 7
  value : Value
  deriving DecidableEq, Repr

/-- Slot, type, payload. -/
def Item.bytes (item : Item) : Bytes :=
  UInt8.ofNat item.slot.val :: item.value.type.code :: item.value.payload

/-- Store one item. -/
def Item.store (list : VariantList) (item : Item) : VariantList :=
  list.modify item.slot item.value.write

/-- Store items in the order in which they arrive. -/
def storeItems (list : VariantList) (items : List Item) : VariantList :=
  items.foldl Item.store list

/-- Every item has a wire form. -/
def CarriedItems (items : List Item) : Prop := ∀ item ∈ items, item.value.Carried

theorem storeVariant_slot (list : VariantList) (slot : Fin 7) (update : Variant → Variant) :
    storeVariant list (UInt8.ofNat slot.val) update = .ok (list.modify slot update) := by
  have hslot : (UInt8.ofNat slot.val).toNat = slot.val := by
    rw [UInt8.toNat_ofNat']
    omega
  have hbound : (UInt8.ofNat slot.val).toNat < 7 := by rw [hslot]; exact slot.isLt
  have hindex : (⟨(UInt8.ofNat slot.val).toNat, hbound⟩ : Fin 7) = slot := Fin.ext hslot
  rw [storeVariant, dif_pos hbound, hindex]

theorem storeVariant_eq_ok {list after : VariantList} {index : UInt8}
    {update : Variant → Variant} (hstore : storeVariant list index update = .ok after) :
    ∃ slot : Fin 7, index = UInt8.ofNat slot.val ∧ after = list.modify slot update := by
  unfold storeVariant at hstore
  split at hstore
  case isTrue hbound =>
      refine ⟨⟨index.toNat, hbound⟩, ?_, ?_⟩
      · exact (UInt8.ofNat_toNat).symm
      · exact (Except.ok.inj hstore).symm
  case isFalse => cases hstore

/-- The loop stores the items it is given and goes on behind them. -/
theorem readItems_items (items : List Item) (hcarried : CarriedItems items) (count : Nat)
    (rest : Bytes) (list : VariantList) :
    readItems (count + items.length) (items.flatMap Item.bytes ++ rest) list =
      readItems count rest (storeItems list items) := by
  induction items generalizing list with
  | nil => rfl
  | cons item items ih =>
      have hitem : item.value.Carried := hcarried item List.mem_cons_self
      have hitems : CarriedItems items := fun later hlater =>
        hcarried later (List.mem_cons_of_mem item hlater)
      rw [List.length_cons, ← Nat.add_assoc, List.flatMap_cons, List.append_assoc, readItems]
      simp only [Item.bytes, List.cons_append, readByte_cons, except_ok_bind,
        readVariant_payload hitem, storeVariant_slot]
      exact ih hitems _

/-- What the loop accepts is a sequence of items. -/
theorem readItems_accepted {count : Nat} {p rest : Bytes} {list after : VariantList}
    (hread : readItems count p list = .ok (true, rest, after)) :
    ∃ items, items.length = count ∧ CarriedItems items ∧
      p = items.flatMap Item.bytes ++ rest ∧ after = storeItems list items := by
  induction count generalizing p list with
  | zero =>
      cases hread
      exact ⟨[], rfl, nofun, rfl, rfl⟩
  | succ count ih =>
      rw [readItems] at hread
      obtain ⟨⟨index, p₁⟩, hindex, hread⟩ := except_bind_eq_ok hread
      obtain ⟨⟨type, p₂⟩, htype, hread⟩ := except_bind_eq_ok hread
      obtain ⟨found, hfound, hread⟩ := except_bind_eq_ok hread
      cases found with
      | none => cases hread
      | some pair =>
          obtain ⟨update, p₃⟩ := pair
          obtain ⟨stored, hstored, hread⟩ := except_bind_eq_ok hread
          obtain ⟨value, hvalue, rfl, rfl, rfl⟩ := readVariant_eq_some hfound
          obtain ⟨slot, rfl, rfl⟩ := storeVariant_eq_ok hstored
          obtain ⟨items, hlength, hitems, rfl, rfl⟩ := ih hread
          refine ⟨⟨slot, value⟩ :: items, by simp [hlength], ?_, ?_, rfl⟩
          · intro item hitem
            rcases List.mem_cons.mp hitem with rfl | hlater
            · exact hvalue
            · exact hitems item hlater
          · rw [readByte_eq_ok hindex, readByte_eq_ok htype]
            simp [Item.bytes]

/-- What the loop rejects is a shorter sequence of items and then an item whose type
byte names no carried type. -/
theorem readItems_rejected {count : Nat} {p rest : Bytes} {list after : VariantList}
    (hread : readItems count p list = .ok (false, rest, after)) :
    ∃ items index type, items.length < count ∧ CarriedItems items ∧
      carriedCode type = false ∧ p = items.flatMap Item.bytes ++ index :: type :: rest ∧
      after = storeItems list items := by
  induction count generalizing p list with
  | zero => cases hread
  | succ count ih =>
      rw [readItems] at hread
      obtain ⟨⟨index, p₁⟩, hindex, hread⟩ := except_bind_eq_ok hread
      obtain ⟨⟨type, p₂⟩, htype, hread⟩ := except_bind_eq_ok hread
      obtain ⟨found, hfound, hread⟩ := except_bind_eq_ok hread
      cases found with
      | none =>
          cases hread
          refine ⟨[], index, type, Nat.succ_pos count, nofun,
            not_carried_of_readVariant hfound, ?_, rfl⟩
          rw [readByte_eq_ok hindex, readByte_eq_ok htype]
          rfl
      | some pair =>
          obtain ⟨update, p₃⟩ := pair
          obtain ⟨stored, hstored, hread⟩ := except_bind_eq_ok hread
          obtain ⟨value, hvalue, rfl, rfl, rfl⟩ := readVariant_eq_some hfound
          obtain ⟨slot, rfl, rfl⟩ := storeVariant_eq_ok hstored
          obtain ⟨items, badIndex, badType, hlength, hitems, hbad, rfl, rfl⟩ := ih hread
          refine ⟨⟨slot, value⟩ :: items, badIndex, badType, by simpa using hlength, ?_, hbad,
            ?_, rfl⟩
          · intro item hitem
            rcases List.mem_cons.mp hitem with rfl | hlater
            · exact hvalue
            · exact hitems item hlater
          · rw [readByte_eq_ok hindex, readByte_eq_ok htype]
            simp [Item.bytes]

/-- An item with an unknown type stops the loop. -/
theorem readItems_bad_type {count : Nat} (hcount : 0 < count) {index type : UInt8}
    (htype : carriedCode type = false) (rest : Bytes) (list : VariantList) :
    readItems count (index :: type :: rest) list = .ok (false, rest, list) := by
  obtain ⟨count, rfl⟩ : ∃ less, count = less + 1 := ⟨count - 1, by omega⟩
  rw [readItems]
  simp only [readByte_cons, except_ok_bind, readVariant_of_not_carried htype]
  rfl

/-! ## Encoding a list -/

/-- The item a slot contributes to the encoding. -/
def VariantList.itemAt (list : VariantList) (slot : Fin 7) : Option Item :=
  if (list slot).mType.carried then some ⟨slot, (list slot).value⟩ else none

/-- The items of a list, by increasing slot. -/
def VariantList.usedItems (list : VariantList) : List Item :=
  (List.finRange 7).filterMap list.itemAt

/-- The bytes that stand for a list. -/
def VariantList.encoding (list : VariantList) : Bytes :=
  UInt8.ofNat list.usedItems.length :: list.usedItems.flatMap Item.bytes

/-- Every slot is unused or holds a value of one of the seven types with a wire form. -/
def VariantList.Sendable (list : VariantList) : Prop :=
  ∀ slot, (list slot).mType = .unused ∨ (list slot).mType.carried = true

instance (list : VariantList) : Decidable list.Sendable := by
  unfold VariantList.Sendable
  infer_instance

theorem Item.length_bytes (item : Item) :
    item.bytes.length = item.value.payload.length + 2 := rfl

/-- A value of a carried type is carried, up to the length of its string. -/
theorem carried_value {v : Variant} (htype : v.mType.carried = true)
    (hlength : v.value.payload.length < 2 ^ 32) : v.value.Carried := by
  unfold Variant.value at hlength ⊢
  cases hv : v.mType with
  | unused | entity | component => rw [hv] at htype; cases htype
  | string =>
      simp only [hv, Value.payload, List.length_append, length_le32] at hlength
      simp only [Value.Carried]
      omega
  | float | vector2 | vector3 | uint32 | rect | int32 => simp only [Value.Carried]

/-- `var_size` is the payload length as long as that fits an `int`. -/
theorem varSize_eq {v : Variant} (htype : v.mType.carried = true)
    (hlength : v.value.payload.length < 2 ^ 31) : varSize v = v.value.payload.length := by
  unfold varSize Variant.value at *
  cases hv : v.mType with
  | unused | entity | component => rw [hv] at htype; cases htype
  | string =>
      simp only [hv, Value.payload, List.length_append, length_le32] at hlength
      simp only [if_pos, Variant.getString, wrapInt, Value.payload, List.length_append,
        length_le32]
      omega
  | float | vector2 | vector3 | uint32 | rect | int32 =>
      simp [sizeOfVariant, Value.payload, length_le32]

theorem varSize_of_not_carried {v : Variant} (htype : v.mType.carried = false) :
    varSize v = 0 := by
  unfold varSize
  cases hv : v.mType <;> simp_all [VarType.carried, sizeOfVariant]

theorem payload_length_pos {value : Value} (hcarried : value.Carried) :
    0 < value.payload.length := by
  cases value <;> simp_all [Value.payload, Value.Carried]

/-- The writing loop stores the item of the slot. -/
theorem itemBytes_eq (list : VariantList) (slot : Fin 7)
    (hlength : (list slot).value.payload.length < 2 ^ 31) :
    itemBytes slot.val (list slot) = ((list.itemAt slot).map Item.bytes).getD [] := by
  by_cases htype : (list slot).mType.carried = true
  · have hcarried := carried_value htype (by omega)
    have hsize := varSize_eq htype hlength
    have hpositive : 0 < varSize (list slot) := by
      rw [hsize]
      exact_mod_cast payload_length_pos hcarried
    rw [VariantList.itemAt, if_pos htype, itemBytes]
    unfold Variant.value at hlength ⊢
    cases hv : (list slot).mType with
    | unused | entity | component => rw [hv] at htype; cases htype
    | string =>
        simp only [hv, Value.payload, List.length_append, length_le32] at hlength
        have hword : (UInt32.ofNat (list slot).mString.length).toNat =
            (list slot).mString.length := by
          rw [UInt32.toNat_ofNat', Nat.mod_eq_of_lt (by omega)]
        simp only [if_pos, Variant.getString, hword, List.take_length]
        rfl
    | float | vector2 | vector3 | uint32 | rect | int32 =>
        simp [hpositive, sizeOfVariant, VarSpace.words, Item.bytes, Value.payload, Value.type]
  · have hzero := varSize_of_not_carried (Bool.not_eq_true _ ▸ htype)
    rw [VariantList.itemAt, if_neg htype, itemBytes, if_neg (fun hstring => htype (by
      rw [hstring]; rfl)), hzero, if_neg (by omega)]
    rfl

/-- The payload bytes of a sequence of items. -/
def payloadTotal : List Item → Nat
  | [] => 0
  | item :: items => item.value.payload.length + payloadTotal items

/-- The sizing loop over some of the slots counts their items and adds up their
payloads. -/
theorem foldl_add (list : VariantList) (slots : List (Fin 7)) (count : MemCount)
    (hstart : 0 ≤ count.memNeeded)
    (hfits : count.memNeeded + payloadTotal (slots.filterMap list.itemAt) < 2 ^ 31) :
    slots.foldl (fun count slot => count.add (list slot)) count =
      { varsUsed := count.varsUsed + (slots.filterMap list.itemAt).length,
        memNeeded := count.memNeeded + payloadTotal (slots.filterMap list.itemAt) } := by
  induction slots generalizing count with
  | nil => simp [payloadTotal]
  | cons slot slots ih =>
      by_cases htype : (list slot).mType.carried = true
      · have hitem : list.itemAt slot = some ⟨slot, (list slot).value⟩ := if_pos htype
        have htotal : payloadTotal ((slot :: slots).filterMap list.itemAt) =
            (list slot).value.payload.length + payloadTotal (slots.filterMap list.itemAt) := by
          rw [List.filterMap_cons_some hitem, payloadTotal]
        rw [htotal] at hfits
        have hsize := varSize_eq htype (by omega)
        have hpositive := payload_length_pos (carried_value htype (by omega))
        have hadd : count.add (list slot) =
            { varsUsed := count.varsUsed + 1,
              memNeeded := count.memNeeded + (list slot).value.payload.length } := by
          rw [MemCount.add, hsize, if_pos (by omega), wrapInt]
          congr 1
          omega
        rw [List.foldl_cons, hadd, ih _ (by simp only []; omega) (by simp only []; omega),
          htotal, List.filterMap_cons_some hitem, List.length_cons]
        congr 1 <;> push_cast <;> ring
      · have hitem : list.itemAt slot = none := if_neg htype
        have hadd : count.add (list slot) = count := by
          rw [MemCount.add, varSize_of_not_carried (Bool.not_eq_true _ ▸ htype),
            if_neg (by omega)]
        rw [List.filterMap_cons_none hitem] at hfits
        rw [List.foldl_cons, hadd, ih count hstart hfits, List.filterMap_cons_none hitem]

theorem length_flatMap_bytes (items : List Item) :
    (items.flatMap Item.bytes).length = payloadTotal items + items.length * 2 := by
  induction items with
  | nil => rfl
  | cons item items ih =>
      rw [List.flatMap_cons, List.length_append, ih, Item.length_bytes, payloadTotal,
        List.length_cons]
      omega

theorem payload_le_payloadTotal {item : Item} {items : List Item} (hmem : item ∈ items) :
    item.value.payload.length ≤ payloadTotal items := by
  induction items with
  | nil => cases hmem
  | cons first rest ih =>
      rw [payloadTotal]
      rcases List.mem_cons.mp hmem with rfl | hlater
      · omega
      · have := ih hlater
        omega

theorem length_encoding (list : VariantList) :
    list.encoding.length = payloadTotal list.usedItems + list.usedItems.length * 2 + 1 := by
  rw [VariantList.encoding, List.length_cons, length_flatMap_bytes]

theorem payload_le_length_encoding (list : VariantList) {slot : Fin 7}
    (htype : (list slot).mType.carried = true) :
    (list slot).value.payload.length ≤ list.encoding.length := by
  have hmem : (⟨slot, (list slot).value⟩ : Item) ∈ list.usedItems :=
    List.mem_filterMap.mpr ⟨slot, List.mem_finRange slot, if_pos htype⟩
  have hle := payload_le_payloadTotal hmem
  rw [length_encoding]
  exact hle.trans (by omega)

theorem payload_of_not_carried {v : Variant} (htype : v.mType.carried = false) :
    v.value.payload = [] := by
  unfold Variant.value
  cases hv : v.mType <;> simp_all [VarType.carried, Value.payload]

theorem payload_lt_of_encoding (list : VariantList) (hfits : list.encoding.length < 2 ^ 31)
    (slot : Fin 7) : (list slot).value.payload.length < 2 ^ 31 := by
  by_cases htype : (list slot).mType.carried = true
  · exact (payload_le_length_encoding list htype).trans_lt hfits
  · rw [payload_of_not_carried (Bool.not_eq_true _ ▸ htype)]
    simp

theorem carriedItems_usedItems (list : VariantList) (hfits : list.encoding.length < 2 ^ 31) :
    CarriedItems list.usedItems := by
  intro item hitem
  obtain ⟨slot, -, hslot⟩ := List.mem_filterMap.mp hitem
  unfold VariantList.itemAt at hslot
  split at hslot
  case isTrue htype =>
      cases hslot
      have := payload_lt_of_encoding list hfits slot
      exact carried_value htype (by omega)
  case isFalse => cases hslot

theorem length_usedItems_le (list : VariantList) : list.usedItems.length ≤ 7 :=
  (List.length_filterMap_le _ _).trans (by simp)

/-- The writing loop stores the encoding of the slots it goes through. -/
theorem flatMap_itemBytes (list : VariantList) (hfits : list.encoding.length < 2 ^ 31)
    (slots : List (Fin 7)) :
    slots.flatMap (fun slot => itemBytes slot.val (list slot)) =
      (slots.filterMap list.itemAt).flatMap Item.bytes := by
  induction slots with
  | nil => rfl
  | cons slot slots ih =>
      rw [List.flatMap_cons, ih, itemBytes_eq list slot (payload_lt_of_encoding list hfits slot)]
      cases hitem : list.itemAt slot with
      | none => rw [List.filterMap_cons_none hitem]; rfl
      | some item => rw [List.filterMap_cons_some hitem, List.flatMap_cons]; rfl

/-- The sizing loop counts the items and adds up their payloads. -/
theorem memCount_eq (list : VariantList) (hfits : list.encoding.length < 2 ^ 31) :
    memCount list =
      { varsUsed := list.usedItems.length, memNeeded := payloadTotal list.usedItems } := by
  have hlength := length_encoding list
  have hfold := foldl_add list (List.finRange 7) {} (by decide) (by
    rw [← VariantList.usedItems]
    simp only []
    omega)
  rw [memCount, hfold, ← VariantList.usedItems]
  simp

/-- The two loops agree: `total` is the length of the encoding. -/
theorem total_eq (list : VariantList) (hfits : list.encoding.length < 2 ^ 31) :
    (memCount list).total = list.encoding.length := by
  have hlength := length_encoding list
  rw [memCount_eq list hfits, MemCount.total, wrapInt]
  simp only []
  omega

theorem storedBytes_eq (list : VariantList) (hfits : list.encoding.length < 2 ^ 31) :
    storedBytes list = list.encoding := by
  rw [storedBytes, flatMap_itemBytes list hfits, memCount_eq list hfits]
  rfl

/-- The serializer produces the encoding and reports its length. -/
theorem serializeToMem_eq (list : VariantList) (hfits : list.encoding.length < 2 ^ 31) :
    serializeToMem list = .ok (list.encoding, UInt32.ofNat list.encoding.length) := by
  have hword : UInt32.ofInt (list.encoding.length : Int) =
      UInt32.ofNat list.encoding.length := by
    rw [UInt32.ofInt]
    congr 1
    omega
  rw [serializeToMem, storedBytes_eq list hfits, total_eq list hfits, hword]
  exact if_pos rfl

/-! ## Parsing an encoding -/

theorem storeItems_other {slot : Fin 7} (items : List Item) (list : VariantList)
    (hother : ∀ item ∈ items, item.slot ≠ slot) : storeItems list items slot = list slot := by
  induction items generalizing list with
  | nil => rfl
  | cons item items ih =>
      have hlater := ih (item.store list) fun later hlater =>
        hother later (List.mem_cons_of_mem item hlater)
      refine hlater.trans (VariantList.modify_of_ne list _ ?_)
      exact (hother item List.mem_cons_self).symm

theorem itemAt_slot {list : VariantList} {slot : Fin 7} {item : Item}
    (hitem : list.itemAt slot = some item) : item.slot = slot := by
  unfold VariantList.itemAt at hitem
  split at hitem
  · cases hitem; rfl
  · cases hitem

/-- Storing the items of distinct slots gives each of them its value. -/
theorem storeItems_filterMap (list target : VariantList) (slots : List (Fin 7))
    (hnodup : slots.Nodup) (hcarried : CarriedItems (slots.filterMap list.itemAt))
    {slot : Fin 7} (hslot : slot ∈ slots) (htype : (list slot).mType.carried = true) :
    (storeItems target (slots.filterMap list.itemAt) slot).value = (list slot).value := by
  induction slots generalizing target with
  | nil => cases hslot
  | cons first rest ih =>
      obtain ⟨hfirst, hrest⟩ := List.nodup_cons.mp hnodup
      by_cases hsame : slot = first
      · subst hsame
        have hitem : list.itemAt slot = some ⟨slot, (list slot).value⟩ := if_pos htype
        rw [List.filterMap_cons_some hitem] at hcarried ⊢
        have hother : ∀ item ∈ rest.filterMap list.itemAt, item.slot ≠ slot := by
          intro item hmem heq
          obtain ⟨other, hotherMem, hother⟩ := List.mem_filterMap.mp hmem
          exact hfirst ((heq ▸ itemAt_slot hother : slot = other) ▸ hotherMem)
        have hstore := storeItems_other (rest.filterMap list.itemAt)
          (Item.store target ⟨slot, (list slot).value⟩) hother
        rw [storeItems, List.foldl_cons, ← storeItems, hstore, Item.store,
          VariantList.modify_same]
        exact Value.value_write (hcarried _ List.mem_cons_self) _
      · have hmem : slot ∈ rest := (List.mem_cons.mp hslot).resolve_left hsame
        cases hitem : list.itemAt first with
        | none =>
            rw [List.filterMap_cons_none hitem] at hcarried ⊢
            exact ih target hrest hcarried hmem
        | some item =>
            rw [List.filterMap_cons_some hitem] at hcarried ⊢
            exact ih (Item.store target item) hrest
              (fun later hlater => hcarried later (List.mem_cons_of_mem item hlater)) hmem

/-- The list obtained by storing the items of a sendable list has its values. -/
theorem values_storeItems_usedItems (list : VariantList) (hsendable : list.Sendable)
    (hfits : list.encoding.length < 2 ^ 31) :
    (storeItems .fresh list.usedItems).values = list.values := by
  funext slot
  rcases hsendable slot with hunused | hcarried
  · have hother : ∀ item ∈ list.usedItems, item.slot ≠ slot := by
      rintro item hitem rfl
      obtain ⟨other, -, hother⟩ := List.mem_filterMap.mp hitem
      obtain rfl := itemAt_slot hother
      rw [VariantList.itemAt, hunused] at hother
      cases hother
    have hvalue : (list slot).value = .unused := by rw [Variant.value, hunused]
    rw [VariantList.values, VariantList.values, hvalue, storeItems_other _ _ hother]
    rfl
  · exact storeItems_filterMap list .fresh (List.finRange 7) (List.nodup_finRange 7)
      (carriedItems_usedItems list hfits) (List.mem_finRange slot) hcarried

/-- Parsing an encoding accepts it, reads it to its end and stores the items. -/
theorem serializeFromMem_encoding (list : VariantList) (hfits : list.encoding.length < 2 ^ 31)
    (trailing : Bytes) :
    serializeFromMem (list.encoding ++ trailing) .fresh =
      .ok { accepted := true, read := list.encoding.length,
            list := storeItems .fresh list.usedItems } := by
  have hcount : (UInt8.ofNat list.usedItems.length).toNat = list.usedItems.length := by
    have := length_usedItems_le list
    rw [UInt8.toNat_ofNat']
    omega
  have hread := readItems_items list.usedItems (carriedItems_usedItems list hfits) 0 trailing
    .fresh
  rw [Nat.zero_add] at hread
  rw [serializeFromMem, VariantList.encoding, List.cons_append]
  simp only [readByte_cons, except_ok_bind, hcount, hread, readItems, if_pos]
  rw [← List.cons_append, List.length_append, Nat.add_sub_cancel]
  rfl

end SrmotionProxy.Proton
