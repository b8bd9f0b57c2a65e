/-
# The decoder and the bounds of the packet

`serialize_from_mem` is not told where the payload ends. This module says which byte
sequences are malformed (cut off, with an oversized string, or with a slot outside
the list), shows that the decoder leaves its buffer on exactly these, and derives
when a received call packet is decoded inside its bounds.
-/

import SrmotionProxy.Framing

namespace SrmotionProxy

open SrmotionProxy.Lib SrmotionProxy.Proton

/-! ## Malformed payloads -/

/-- The bytes an item of a type has at least, behind slot and type. -/
def fixedSize (type : VarType) : Nat := if type = .string then 4 else sizeOfVariant type

/-- The ways in which the bytes where an item should start are not one. -/
inductive BadItem : Bytes → Prop
  | noIndex : BadItem []
  | noType (index : UInt8) : BadItem [index]
  | truncated (index : UInt8) (type : VarType) (rest : Bytes) (htype : type.carried = true)
      (hshort : rest.length < fixedSize type) : BadItem (index :: type.code :: rest)
  | longString (index : UInt8) (len : UInt32) (rest : Bytes)
      (hshort : rest.length < len.toNat) :
      BadItem (index :: VarType.string.code :: (le32 len ++ rest))
  | badSlot (index : UInt8) (value : Value) (rest : Bytes) (hcarried : value.Carried)
      (hindex : 7 ≤ index.toNat) :
      BadItem (index :: value.type.code :: (value.payload ++ rest))

/-- A payload that breaks off or goes wrong before its announced number of items. -/
inductive Malformed : Bytes → Prop
  | noCount : Malformed []
  | badItem (count : UInt8) (items : List Item) (rest : Bytes)
      (hcount : items.length < count.toNat) (hcarried : CarriedItems items)
      (hbad : BadItem rest) : Malformed (count :: (items.flatMap Item.bytes ++ rest))

/-- The announced number of items, complete, and whatever follows. -/
def Complete (payload : Bytes) : Prop :=
  ∃ (count : UInt8) (items : List Item) (rest : Bytes), items.length = count.toNat ∧
    CarriedItems items ∧ payload = count :: (items.flatMap Item.bytes ++ rest)

/-- Fewer items than announced, then one with an unknown type byte. -/
def UnknownType (payload : Bytes) : Prop :=
  ∃ (count : UInt8) (items : List Item) (index type : UInt8) (rest : Bytes),
    items.length < count.toNat ∧ CarriedItems items ∧ carriedCode type = false ∧
    payload = count :: (items.flatMap Item.bytes ++ index :: type :: rest)

/-! ## What the decoder rejects by leaving its buffer -/

/-- A sequence that starts with a word read fails at the word or behind it. -/
theorem readWord_bind_eq_error {α : Type} {p : Bytes} {failure : Abort}
    {next : UInt32 × Bytes → Except Abort α}
    (hrun : (readWord p >>= next) = .error failure) :
    (failure = .undefinedBehaviour ∧ p.length < 4) ∨
      ∃ word rest, p = le32 word ++ rest ∧ next (word, rest) = .error failure := by
  match p with
  | [] | [_] | [_, _] | [_, _, _] =>
      cases hrun
      exact .inl ⟨rfl, by simp⟩
  | b0 :: b1 :: b2 :: b3 :: rest =>
      refine .inr ⟨word32 b0 b1 b2 b3, rest, ?_, hrun⟩
      rw [le32_word32]
      rfl

theorem readBytes_bind_eq_error {α : Type} {count : Nat} {p : Bytes} {failure : Abort}
    {next : Bytes × Bytes → Except Abort α}
    (hnext : ∀ text rest, next (text, rest) ≠ .error failure)
    (hrun : (readBytes count p >>= next) = .error failure) :
    failure = .undefinedBehaviour ∧ p.length < count := by
  by_cases hcount : count ≤ p.length
  · rw [readBytes, if_pos hcount] at hrun
    exact absurd hrun (hnext _ _)
  · rw [readBytes, if_neg hcount] at hrun
    cases hrun
    exact ⟨rfl, by omega⟩

/-- The switch leaves the buffer only on a value that is cut off. -/
theorem readVariant_eq_error {code : UInt8} {p : Bytes} {failure : Abort}
    (hread : readVariant code p = .error failure) :
    failure = .undefinedBehaviour ∧
      ((∃ type : VarType, type.carried = true ∧ code = type.code ∧ p.length < fixedSize type) ∨
        (code = VarType.string.code ∧
          ∃ len rest, p = le32 len ++ rest ∧ rest.length < len.toNat)) := by
  have hword {word : UInt32} {q rest : Bytes} (hq : q = le32 word ++ rest) :
      q.length = 4 + rest.length := by rw [hq, List.length_append, length_le32]
  unfold readVariant at hread
  split at hread
  case h_1 hcode =>
      rcases readWord_bind_eq_error hread with ⟨hfailure, hshort⟩ | ⟨len, rest, hp, htext⟩
      · exact ⟨hfailure, .inl ⟨.string, rfl, VarType.code_of_ofCode hcode, hshort⟩⟩
      · obtain ⟨hfailure, hshort⟩ := readBytes_bind_eq_error (by intros; exact nofun) htext
        exact ⟨hfailure, .inr ⟨VarType.code_of_ofCode hcode, len, rest, hp, hshort⟩⟩
  case h_2 hcode =>
      rcases readWord_bind_eq_error hread with ⟨hfailure, hshort⟩ | ⟨_, _, _, hend⟩
      · exact ⟨hfailure, .inl ⟨.uint32, rfl, VarType.code_of_ofCode hcode, hshort⟩⟩
      · cases hend
  case h_3 hcode =>
      rcases readWord_bind_eq_error hread with ⟨hfailure, hshort⟩ | ⟨_, _, _, hend⟩
      · exact ⟨hfailure, .inl ⟨.int32, rfl, VarType.code_of_ofCode hcode, hshort⟩⟩
      · cases hend
  case h_4 hcode =>
      rcases readWord_bind_eq_error hread with ⟨hfailure, hshort⟩ | ⟨_, _, _, hend⟩
      · exact ⟨hfailure, .inl ⟨.float, rfl, VarType.code_of_ofCode hcode, hshort⟩⟩
      · cases hend
  case h_5 hcode =>
      have hshort : failure = .undefinedBehaviour ∧ p.length < 8 := by
        rcases readWord_bind_eq_error hread with ⟨hfailure, hp⟩ | ⟨x, restX, hp, hy⟩
        · exact ⟨hfailure, by omega⟩
        rcases readWord_bind_eq_error hy with ⟨hfailure, hx⟩ | ⟨y, restY, hx, hend⟩
        · exact ⟨hfailure, by rw [hword hp]; omega⟩
        cases hend
      exact ⟨hshort.1, .inl ⟨.vector2, rfl, VarType.code_of_ofCode hcode, hshort.2⟩⟩
  case h_6 hcode =>
      have hshort : failure = .undefinedBehaviour ∧ p.length < 12 := by
        rcases readWord_bind_eq_error hread with ⟨hfailure, hp⟩ | ⟨x, restX, hp, hy⟩
        · exact ⟨hfailure, by omega⟩
        rcases readWord_bind_eq_error hy with ⟨hfailure, hx⟩ | ⟨y, restY, hx, hz⟩
        · exact ⟨hfailure, by rw [hword hp]; omega⟩
        rcases readWord_bind_eq_error hz with ⟨hfailure, hy⟩ | ⟨z, restZ, hy, hend⟩
        · exact ⟨hfailure, by rw [hword hp, hword hx]; omega⟩
        cases hend
      exact ⟨hshort.1, .inl ⟨.vector3, rfl, VarType.code_of_ofCode hcode, hshort.2⟩⟩
  case h_7 hcode =>
      have hshort : failure = .undefinedBehaviour ∧ p.length < 16 := by
        rcases readWord_bind_eq_error hread with ⟨hfailure, hp⟩ | ⟨x, restX, hp, hy⟩
        · exact ⟨hfailure, by omega⟩
        rcases readWord_bind_eq_error hy with ⟨hfailure, hx⟩ | ⟨y, restY, hx, hw⟩
        · exact ⟨hfailure, by rw [hword hp]; omega⟩
        rcases readWord_bind_eq_error hw with ⟨hfailure, hy⟩ | ⟨w, restW, hy, hh⟩
        · exact ⟨hfailure, by rw [hword hp, hword hx]; omega⟩
        rcases readWord_bind_eq_error hh with ⟨hfailure, hw⟩ | ⟨h, restH, hw, hend⟩
        · exact ⟨hfailure, by rw [hword hp, hword hx, hword hy]; omega⟩
        cases hend
      exact ⟨hshort.1, .inl ⟨.rect, rfl, VarType.code_of_ofCode hcode, hshort.2⟩⟩
  case h_8 => cases hread

/-- A value is at least as long as the fixed part of its type. -/
theorem fixedSize_le_payload {value : Value} (hcarried : value.Carried) :
    fixedSize value.type ≤ value.payload.length := by
  cases value <;> first
    | exact hcarried.elim
    | simp [fixedSize, Value.type, sizeOfVariant, Value.payload, length_le32]

/-- The switch never reads a value that is cut off. -/
theorem readVariant_truncated {type : VarType} (htype : type.carried = true) {rest : Bytes}
    (hshort : rest.length < fixedSize type) :
    readVariant type.code rest = .error .undefinedBehaviour := by
  cases hread : readVariant type.code rest with
  | error failure => rw [(readVariant_eq_error hread).1]
  | ok found =>
      cases found with
      | none =>
          have hnot := not_carried_of_readVariant hread
          rw [carriedCode, VarType.ofCode_code] at hnot
          exact absurd htype (by simpa using hnot)
      | some pair =>
          obtain ⟨value, hcarried, hcode, rfl, -⟩ := readVariant_eq_some hread
          have hsame : type = value.type := by
            have := congrArg VarType.ofCode hcode
            simpa using this
          have hlong := fixedSize_le_payload hcarried
          rw [hsame, List.length_append] at hshort
          omega

/-- The switch never reads a string that is cut off. -/
theorem readVariant_longString {len : UInt32} {rest : Bytes}
    (hshort : rest.length < len.toNat) :
    readVariant VarType.string.code (le32 len ++ rest) = .error .undefinedBehaviour := by
  simp only [readVariant, VarType.ofCode_code, readWord_le32_append, except_ok_bind]
  rw [readBytes, if_neg (by omega)]
  rfl

theorem storeVariant_eq_error {list : VariantList} {index : UInt8}
    {update : Variant → Variant} {failure : Abort}
    (hstore : storeVariant list index update = .error failure) :
    failure = .undefinedBehaviour ∧ 7 ≤ index.toNat := by
  unfold storeVariant at hstore
  split at hstore
  · cases hstore
  · cases hstore
    exact ⟨rfl, by omega⟩

/-- A bad item takes the loop out of its buffer or out of the list. -/
theorem readItems_badItem {rest : Bytes} (hbad : BadItem rest) (count : Nat)
    (list : VariantList) :
    readItems (count + 1) rest list = .error .undefinedBehaviour := by
  cases hbad with
  | noIndex => rfl
  | noType index => rfl
  | truncated index type rest htype hshort =>
      rw [readItems]
      simp only [readByte_cons, except_ok_bind, readVariant_truncated htype hshort,
        except_error_bind]
  | longString index len rest hshort =>
      rw [readItems]
      simp only [readByte_cons, except_ok_bind, readVariant_longString hshort,
        except_error_bind]
  | badSlot index value rest hcarried hindex =>
      have hstore : storeVariant list index value.write = .error .undefinedBehaviour := by
        rw [storeVariant, dif_neg (by omega)]
      rw [readItems]
      simp only [readByte_cons, except_ok_bind, readVariant_payload hcarried, hstore,
        except_error_bind]

/-- The loop leaves its buffer only at a bad item. -/
theorem readItems_eq_error {count : Nat} {p : Bytes} {list : VariantList} {failure : Abort}
    (hread : readItems count p list = .error failure) :
    failure = .undefinedBehaviour ∧ ∃ items rest, items.length < count ∧
      CarriedItems items ∧ p = items.flatMap Item.bytes ++ rest ∧ BadItem rest := by
  induction count generalizing p list with
  | zero => cases hread
  | succ count ih =>
      have hfirst (hbad : BadItem p) : ∃ items rest, items.length < count + 1 ∧
          CarriedItems items ∧ p = items.flatMap Item.bytes ++ rest ∧ BadItem rest :=
        ⟨[], p, Nat.succ_pos count, nofun, rfl, hbad⟩
      rcases p with _ | ⟨index, _ | ⟨type, cursor⟩⟩
      · cases hread
        exact ⟨rfl, hfirst .noIndex⟩
      · cases hread
        exact ⟨rfl, hfirst (.noType index)⟩
      · rw [readItems] at hread
        simp only [readByte_cons, except_ok_bind] at hread
        cases hfound : readVariant type cursor with
        | error failure' =>
            rw [hfound] at hread
            cases hread
            obtain ⟨rfl, hshort⟩ := readVariant_eq_error hfound
            rcases hshort with ⟨type, htype, rfl, hshort⟩ | ⟨rfl, len, rest, rfl, hshort⟩
            · exact ⟨rfl, hfirst (.truncated index type cursor htype hshort)⟩
            · exact ⟨rfl, hfirst (.longString index len rest hshort)⟩
        | ok found =>
            rw [hfound, except_ok_bind] at hread
            cases found with
            | none => cases hread
            | some pair =>
                obtain ⟨update, after⟩ := pair
                obtain ⟨value, hcarried, rfl, rfl, rfl⟩ := readVariant_eq_some hfound
                simp only [] at hread
                cases hstore : storeVariant list index value.write with
                | error failure' =>
                    rw [hstore] at hread
                    cases hread
                    obtain ⟨rfl, hindex⟩ := storeVariant_eq_error hstore
                    exact ⟨rfl, hfirst (.badSlot index value after hcarried hindex)⟩
                | ok stored =>
                    rw [hstore, except_ok_bind] at hread
                    obtain ⟨slot, rfl, -⟩ := storeVariant_eq_ok hstore
                    obtain ⟨hfailure, items, rest, hcount, hitems, rfl, hbad⟩ := ih hread
                    refine ⟨hfailure, ⟨slot, value⟩ :: items, rest, by simpa using hcount, ?_,
                      ?_, hbad⟩
                    · intro item hitem
                      rcases List.mem_cons.mp hitem with rfl | hlater
                      · exact hcarried
                      · exact hitems item hlater
                    · simp [Item.bytes]

/-! ## Three kinds of byte sequences -/

theorem serializeFromMem_cons (count : UInt8) (p : Bytes) (list : VariantList) :
    serializeFromMem (count :: p) list =
      (readItems count.toNat p list >>= fun (accepted, rest, list) =>
        .ok { accepted, read := if accepted then p.length + 1 - rest.length else 0, list }) :=
  rfl

/-- The decoder leaves its buffer or the list exactly on malformed payloads. -/
theorem malformed_iff (p : Bytes) (list : VariantList) :
    Malformed p ↔ serializeFromMem p list = .error .undefinedBehaviour := by
  constructor
  · intro hmalformed
    cases hmalformed with
    | noCount => rfl
    | badItem count items rest hcount hcarried hbad =>
        obtain ⟨more, hmore⟩ : ∃ more, count.toNat = more + 1 + items.length :=
          ⟨count.toNat - items.length - 1, by omega⟩
        rw [serializeFromMem_cons, hmore, readItems_items items hcarried,
          readItems_badItem hbad, except_error_bind]
  · intro herror
    cases p with
    | nil => exact .noCount
    | cons count p =>
        rw [serializeFromMem_cons] at herror
        cases hread : readItems count.toNat p list with
        | error failure =>
            obtain ⟨-, items, rest, hcount, hcarried, rfl, hbad⟩ := readItems_eq_error hread
            exact .badItem count items rest hcount hcarried hbad
        | ok result =>
            rw [hread] at herror
            cases herror

theorem serializeFromMem_complete {p : Bytes} (hcomplete : Complete p) (list : VariantList) :
    ∃ parsed, serializeFromMem p list = .ok parsed ∧ parsed.accepted = true := by
  obtain ⟨count, items, rest, hcount, hcarried, rfl⟩ := hcomplete
  have hread := readItems_items items hcarried 0 rest list
  rw [Nat.zero_add, hcount] at hread
  rw [serializeFromMem_cons, hread]
  exact ⟨_, rfl, rfl⟩

theorem serializeFromMem_unknown {p : Bytes} (hunknown : UnknownType p) (list : VariantList) :
    ∃ parsed, serializeFromMem p list = .ok parsed ∧ parsed.accepted = false := by
  obtain ⟨count, items, index, type, rest, hcount, hcarried, htype, rfl⟩ := hunknown
  obtain ⟨more, hmore⟩ : ∃ more, count.toNat = more + 1 + items.length :=
    ⟨count.toNat - items.length - 1, by omega⟩
  rw [serializeFromMem_cons, hmore, readItems_items items hcarried,
    readItems_bad_type (Nat.succ_pos more) htype]
  exact ⟨_, rfl, rfl⟩

/-- What the decoder says about a sequence it stays inside of. -/
theorem serializeFromMem_verdict {p : Bytes} {list : VariantList} {parsed : Parsed}
    (hparse : serializeFromMem p list = .ok parsed) :
    (parsed.accepted = true ∧ Complete p) ∨ (parsed.accepted = false ∧ UnknownType p) := by
  cases p with
  | nil => cases hparse
  | cons count p =>
      rw [serializeFromMem_cons] at hparse
      obtain ⟨⟨accepted, rest, after⟩, hread, hresult⟩ := except_bind_eq_ok hparse
      cases hresult
      cases accepted with
      | true =>
          obtain ⟨items, hcount, hcarried, rfl, -⟩ := readItems_accepted hread
          exact .inl ⟨rfl, count, items, rest, hcount, hcarried, rfl⟩
      | false =>
          obtain ⟨items, index, type, hcount, hcarried, htype, rfl, -⟩ :=
            readItems_rejected hread
          exact .inr ⟨rfl, count, items, index, type, rest, hcount, hcarried, htype, rfl⟩

theorem Complete.append {p : Bytes} (hcomplete : Complete p) (more : Bytes) :
    Complete (p ++ more) := by
  obtain ⟨count, items, rest, hcount, hcarried, rfl⟩ := hcomplete
  exact ⟨count, items, rest ++ more, hcount, hcarried, by simp⟩

theorem UnknownType.append {p : Bytes} (hunknown : UnknownType p) (more : Bytes) :
    UnknownType (p ++ more) := by
  obtain ⟨count, items, index, type, rest, hcount, hcarried, htype, rfl⟩ := hunknown
  exact ⟨count, items, index, type, rest ++ more, hcount, hcarried, htype, by simp⟩

/-- Decoding a payload together with the bytes behind it stays inside them, and rejects
what is malformed, exactly if the payload is complete or an unknown type comes first. -/
theorem decode_contained_iff (payload more : Bytes) (list : VariantList) :
    (∃ parsed, serializeFromMem (payload ++ more) list = .ok parsed ∧
        (Malformed payload → parsed.accepted = false)) ↔
      Complete payload ∨ UnknownType (payload ++ more) := by
  constructor
  · rintro ⟨parsed, hparse, hreject⟩
    rcases serializeFromMem_verdict hparse with ⟨haccepted, -⟩ | ⟨-, hunknown⟩
    · left
      cases halone : serializeFromMem payload list with
      | error failure =>
          have hmalformed : Malformed payload := by
            cases payload with
            | nil => exact .noCount
            | cons count p =>
                rw [serializeFromMem_cons] at halone
                cases hread : readItems count.toNat p list with
                | ok result => rw [hread] at halone; cases halone
                | error failure' =>
                    rw [malformed_iff _ list, serializeFromMem_cons, hread,
                      (readItems_eq_error hread).1]
                    rfl
          rw [hreject hmalformed] at haccepted
          cases haccepted
      | ok alone =>
          rcases serializeFromMem_verdict halone with ⟨-, hcomplete⟩ | ⟨-, hunknown⟩
          · exact hcomplete
          · obtain ⟨parsed', hparse', hrejected⟩ :=
              serializeFromMem_unknown (hunknown.append more) list
            rw [hparse] at hparse'
            cases hparse'
            rw [hrejected] at haccepted
            cases haccepted
    · exact .inr hunknown
  · rintro (hcomplete | hunknown)
    · obtain ⟨parsed, hparse, -⟩ := serializeFromMem_complete (hcomplete.append more) list
      refine ⟨parsed, hparse, fun hmalformed => ?_⟩
      obtain ⟨alone, halone, -⟩ := serializeFromMem_complete hcomplete list
      rw [(malformed_iff payload list).mp hmalformed] at halone
      cases halone
    · obtain ⟨parsed, hparse, hrejected⟩ := serializeFromMem_unknown hunknown list
      exact ⟨parsed, hparse, fun _ => hrejected⟩

/-! ## Received packets -/

/-- The number of payload bytes a packet announces. -/
def declaredSize (packet : Bytes) : Nat :=
  if Packet.mPacketFlags packet &&& 8 ≠ 0 then (Packet.mDataSize packet).toNat else 0

/-- `get_struct` keeps the bytes behind the header and reports the announced size. -/
theorem getStruct_eq_some {packet struct : Bytes} (hstruct : getStruct packet = .ok (some struct)) :
    60 ≤ packet.length ∧ struct.length = packet.length ∧
      (getExtended struct).drop 4 = packet.drop 60 ∧
      (Packet.mDataSize struct).toNat = declaredSize packet := by
  unfold getStruct at hstruct
  split at hstruct
  · cases hstruct
  split at hstruct
  · cases hstruct
  case isFalse hlong =>
    split at hstruct
    case isTrue hflag =>
        split at hstruct
        · cases hstruct
        · cases hstruct
          refine ⟨by omega, rfl, ?_, by rw [declaredSize, if_pos hflag]⟩
          rw [getExtended, List.drop_drop]
    case isFalse hflag =>
        cases hstruct
        have hprefix : (packet.take 56).length = 56 := by
          rw [List.length_take]
          omega
        have hlayout : Packet.setDataSize packet 0 =
            packet.take 56 ++ (le32 0 ++ packet.drop 60) := by
          rw [Packet.setDataSize, overwrite, List.append_assoc]
          rfl
        refine ⟨by omega, length_overwrite (by rw [length_le32]; omega), ?_, ?_⟩
        · rw [hlayout, getExtended, List.drop_left' hprefix]
          rfl
        · rw [hlayout, Packet.mDataSize, wordAt_skip 56 hprefix, wordAt_here, declaredSize,
            if_neg hflag]
          rfl

/-- The decoder run for a received call stays inside the packet and the list, and it
rejects malformed payloads. -/
def DecodedInside (packet : Bytes) : Prop :=
  ∃ struct parsed, getStruct packet = .ok (some struct) ∧
    serializeFromMem ((getExtended struct).drop 4) .fresh = .ok parsed ∧
    (Malformed (((getExtended struct).drop 4).take (Packet.mDataSize struct).toNat) →
      parsed.accepted = false)

/-- A call that `get_struct` does not turn away is decoded inside its packet exactly if
its payload is complete, or the packet holds an item of unknown type before the
announced number of items. -/
theorem decodedInside_iff {packet : Bytes} (hcall : getStruct packet ≠ .ok none) :
    DecodedInside packet ↔
      Complete ((packet.drop 60).take (declaredSize packet)) ∨
        UnknownType (packet.drop 60) := by
  have hiff := decode_contained_iff ((packet.drop 60).take (declaredSize packet))
    ((packet.drop 60).drop (declaredSize packet)) .fresh
  rw [List.take_append_drop] at hiff
  rw [← hiff]
  constructor
  · rintro ⟨struct, parsed, hstruct, hparse, hreject⟩
    obtain ⟨-, -, hdata, hsize⟩ := getStruct_eq_some hstruct
    rw [hdata, hsize] at hreject
    rw [hdata] at hparse
    exact ⟨parsed, hparse, hreject⟩
  · rintro ⟨parsed, hparse, hreject⟩
    cases hresult : getStruct packet with
    | error failure =>
        -- the packet ends inside the data size, so there is no byte to decode
        have hshort : packet.length < 60 := by
          by_contra hlong
          unfold getStruct at hresult
          rw [if_neg (by simp only [sizeofGameUpdatePacket]; omega), if_neg hlong] at hresult
          split at hresult
          · split at hresult <;> cases hresult
          · cases hresult
        rw [List.drop_eq_nil_of_le (by omega)] at hparse
        cases hparse
    | ok result =>
        cases result with
        | none => exact absurd hresult hcall
        | some struct =>
            obtain ⟨-, -, hdata, hsize⟩ := getStruct_eq_some hresult
            exact ⟨struct, parsed, hresult, by rw [hdata]; exact hparse,
              by rw [hdata, hsize]; exact hreject⟩

/-- A number, a text and a position, and a byte behind them: a complete payload, decoded inside
its packet. -/
theorem decodedInside_mixed :
    DecodedInside (callPacket (-1) 0 26 [3, 1, 9, 7, 0, 0, 0, 0, 2, 2, 0, 0, 0, 72, 105,
      4, 3, 0, 0, 128, 63, 0, 0, 0, 64, 255]) := by
  have hstruct := CallPacket.getStruct_eq (-1) 0 26 [3, 1, 9, 7, 0, 0, 0, 0, 2, 2, 0, 0, 0, 72, 105,
    4, 3, 0, 0, 128, 63, 0, 0, 0, 64, 255] (by decide) (by decide)
  refine (decodedInside_iff (by rw [hstruct]; exact nofun)).mpr (.inl ?_)
  exact ⟨3, [⟨1, .int32 7⟩, ⟨0, .string (ascii "Hi")⟩, ⟨4, .vector2 0x3F800000 0x40000000⟩], [255],
    rfl, by unfold CarriedItems; decide, by decide⟩

/-- A packet whose one payload byte announces an item that is not there is accepted, and
the decoder reads on behind its end. -/
theorem truncated_call_read_past_end :
    let packet := callPacket (-1) 0 1 [1]
    getStruct packet = .ok (some packet) ∧ Packet.mType packet = PACKET_CALL_FUNCTION ∧
      ¬ DecodedInside packet := by
  have hstruct := CallPacket.getStruct_eq (-1) 0 1 [1] (by decide) (by decide)
  refine ⟨hstruct, rfl, ?_⟩
  rintro ⟨struct, parsed, haccept, hparse, -⟩
  rw [hstruct] at haccept
  cases haccept
  rw [CallPacket.extended_eq] at hparse
  cases hparse

end SrmotionProxy
