/-
# The two decoders of call packets

`events::in::variantlist` decodes behind the data size, `events::out::variantlist` at
the data size. This module compares the two on packets that carry the encoding of a
list: the outgoing side takes the four size bytes for an item count, a slot, a type
and the first data byte.
-/

import SrmotionProxy.Decoder
import SrmotionProxy.Events.In
import SrmotionProxy.Events.Out

namespace SrmotionProxy

open SrmotionProxy.Lib SrmotionProxy.ENet SrmotionProxy.Proton

/-! ## Lists a decoder can produce -/

/-- The bytes hold these items: all that are announced, or all in front of an unknown
type. -/
def Holds (bytes : Bytes) (items : List Item) : Prop :=
  CarriedItems items ∧ ∃ count : UInt8,
    (items.length = count.toNat ∧ ∃ rest, bytes = count :: (items.flatMap Item.bytes ++ rest)) ∨
    (items.length < count.toNat ∧ ∃ index type rest, carriedCode type = false ∧
      bytes = count :: (items.flatMap Item.bytes ++ index :: type :: rest))

/-- A decoded list is what the items in the bytes store. -/
theorem decoded_iff_holds (bytes : Bytes) (list after : VariantList) :
    (∃ parsed, serializeFromMem bytes list = .ok parsed ∧ parsed.list = after) ↔
      ∃ items, Holds bytes items ∧ after = storeItems list items := by
  constructor
  · rintro ⟨parsed, hparse, rfl⟩
    cases bytes with
    | nil => cases hparse
    | cons count p =>
        rw [serializeFromMem_cons] at hparse
        obtain ⟨⟨accepted, rest, after⟩, hread, hresult⟩ := except_bind_eq_ok hparse
        cases hresult
        cases accepted with
        | true =>
            obtain ⟨items, hcount, hcarried, rfl, hstored⟩ := readItems_accepted hread
            exact ⟨items, ⟨hcarried, count, .inl ⟨hcount, rest, rfl⟩⟩, hstored⟩
        | false =>
            obtain ⟨items, index, type, hcount, hcarried, htype, rfl, hstored⟩ :=
              readItems_rejected hread
            exact ⟨items, ⟨hcarried, count, .inr ⟨hcount, index, type, rest, htype, rfl⟩⟩,
              hstored⟩
  · rintro ⟨items, ⟨hcarried, count, hshape⟩, rfl⟩
    rcases hshape with ⟨hcount, rest, rfl⟩ | ⟨hcount, index, type, rest, htype, rfl⟩
    · have hread := readItems_items items hcarried 0 rest list
      rw [Nat.zero_add, hcount] at hread
      exact ⟨_, by rw [serializeFromMem_cons, hread]; rfl, rfl⟩
    · obtain ⟨more, hmore⟩ : ∃ more, count.toNat = more + 1 + items.length :=
        ⟨count.toNat - items.length - 1, by omega⟩
      have hread := readItems_items items hcarried (more + 1) (index :: type :: rest) list
      rw [← hmore, readItems_bad_type (Nat.succ_pos more) htype] at hread
      exact ⟨_, by rw [serializeFromMem_cons, hread]; rfl, rfl⟩

/-- The outgoing side decodes from the size field on and ignores the verdict. -/
theorem outgoing_eq_ok (struct : Bytes) (outgoing : VariantList) :
    Events.Out.variantlist struct = .ok outgoing ↔
      ∃ parsed, serializeFromMem (getExtended struct) .fresh = .ok parsed ∧
        parsed.list = outgoing := by
  unfold Events.Out.variantlist
  constructor
  · intro hrun
    obtain ⟨parsed, hparse, hresult⟩ := except_bind_eq_ok hrun
    cases hresult
    exact ⟨parsed, hparse, rfl⟩
  · rintro ⟨parsed, hparse, rfl⟩
    rw [hparse]
    rfl

/-- The items of a list restore its values exactly if every slot can be sent. -/
theorem values_usedItems_iff (list : VariantList) (hfits : list.encoding.length < 2 ^ 31) :
    (storeItems .fresh list.usedItems).values = list.values ↔ list.Sendable := by
  refine ⟨fun hvalues slot => ?_, fun hsendable =>
    values_storeItems_usedItems list hsendable hfits⟩
  by_cases hcarried : (list slot).mType.carried = true
  · exact .inr hcarried
  left
  have hother : ∀ item ∈ list.usedItems, item.slot ≠ slot := by
    rintro item hitem rfl
    obtain ⟨other, -, hother⟩ := List.mem_filterMap.mp hitem
    obtain rfl := itemAt_slot hother
    rw [VariantList.itemAt, if_neg hcarried] at hother
    cases hother
  have hslot := congrFun hvalues slot
  rw [VariantList.values, VariantList.values, storeItems_other _ _ hother] at hslot
  have htype := congrArg Value.type hslot
  rw [value_type, value_type] at htype
  exact htype.symm

theorem usedItems_eq_nil_iff {list : VariantList} (hsendable : list.Sendable) :
    list.usedItems = [] ↔ VariantList.fresh.values = list.values := by
  constructor
  · intro hnone
    funext slot
    have hitem : list.itemAt slot = none :=
      List.filterMap_eq_nil_iff.mp hnone slot (List.mem_finRange slot)
    have hunused : (list slot).mType = .unused := by
      rcases hsendable slot with hunused | hcarried
      · exact hunused
      · rw [VariantList.itemAt, if_pos hcarried] at hitem
        cases hitem
    rw [VariantList.values, VariantList.values, Variant.value, Variant.value, hunused]
    rfl
  · intro hvalues
    refine List.filterMap_eq_nil_iff.mpr fun slot _ => if_neg ?_
    have htype := congrArg Value.type (congrFun hvalues slot)
    rw [VariantList.values, VariantList.values, value_type, value_type] at htype
    rw [← htype]
    exact Bool.false_ne_true

/-! ## A packet with an encoded list -/

section Encoded

variable {packet struct : Bytes} {list : VariantList}

/-- The bytes at the data size of a packet that carries `list`. -/
theorem extended_of_payload (hstruct : getStruct packet = .ok (some struct))
    (hpayload : ((getExtended struct).drop 4).take (Packet.mDataSize struct).toNat =
      list.encoding) :
    ∃ trailing, getExtended struct =
      le32 (Packet.mDataSize struct) ++ (list.encoding ++ trailing) := by
  obtain ⟨hlong, hlength, -, -⟩ := getStruct_eq_some hstruct
  refine ⟨((getExtended struct).drop 4).drop (Packet.mDataSize struct).toNat, ?_⟩
  rw [← hpayload, List.take_append_drop, getExtended, List.drop_drop]
  exact drop_eq_word_append (by omega)

/-- A received packet that carries an encoding carries a short one. -/
theorem encoding_lt_of_packet (hstruct : getStruct packet = .ok (some struct))
    (hpacket : packet.length ≤ maximumPacketSize)
    (hpayload : ((getExtended struct).drop 4).take (Packet.mDataSize struct).toNat =
      list.encoding) : list.encoding.length < 2 ^ 31 := by
  obtain ⟨-, hlength, -, -⟩ := getStruct_eq_some hstruct
  have hle : list.encoding.length ≤ struct.length := by
    rw [← hpayload, getExtended]
    simp only [List.length_take, List.length_drop]
    omega
  unfold maximumPacketSize at hpacket
  omega

/-- The incoming side stores the items of the list. -/
theorem decodeCall_of_payload (hstruct : getStruct packet = .ok (some struct))
    (hpacket : packet.length ≤ maximumPacketSize)
    (hpayload : ((getExtended struct).drop 4).take (Packet.mDataSize struct).toNat =
      list.encoding) :
    Events.In.decodeCall struct = .ok (storeItems .fresh list.usedItems) := by
  obtain ⟨trailing, hextended⟩ := extended_of_payload hstruct hpayload
  have hdata : (getExtended struct).drop 4 = list.encoding ++ trailing := by
    rw [hextended]
    rfl
  rw [Events.In.decodeCall, hdata,
    serializeFromMem_encoding list (encoding_lt_of_packet hstruct hpacket hpayload) trailing]
  rfl

end Encoded

/-! ## Agreement -/

/-- No slot of the list holds a value. -/
def Unused (list : VariantList) : Prop := ∀ slot, (list slot).mType = .unused

instance (list : VariantList) : Decidable (Unused list) := by
  unfold Unused
  infer_instance

/-- Both sides decode the packet, and both get the list. -/
def DecodersAgree (struct : Bytes) (list : VariantList) : Prop :=
  ∃ outgoing incoming, Events.Out.variantlist struct = .ok outgoing ∧
    Events.In.decodeCall struct = .ok incoming ∧
    outgoing.values = list.values ∧ incoming.values = list.values

/-- A size whose bytes can be taken for the start of the list itself: for a count that is not
below the number of its items, for one of the slots it uses, and for a type. -/
structure DisguisedSize (list : VariantList) (size : Nat) : Prop where
  large : 65536 ≤ size
  count : list.usedItems.length ≤ size % 256
  slot : ∃ slot : Fin 7, size / 256 % 256 = slot.val ∧ (list slot).mType.carried = true
  type : carriedCode (UInt8.ofNat (size / 65536)) = true

theorem Unused.sendable {list : VariantList} (hunused : Unused list) : list.Sendable :=
  fun slot => .inl (hunused slot)

theorem Unused.usedItems {list : VariantList} (hunused : Unused list) : list.usedItems = [] :=
  List.filterMap_eq_nil_iff.mpr fun slot _ => if_neg (by rw [hunused slot]; exact Bool.false_ne_true)

theorem Unused.of_usedItems {list : VariantList} (hsendable : list.Sendable)
    (hnone : list.usedItems = []) : Unused list := by
  intro slot
  have hvalues := congrFun ((usedItems_eq_nil_iff hsendable).mp hnone) slot
  have htype := congrArg Value.type hvalues
  rw [VariantList.values, VariantList.values, value_type, value_type] at htype
  exact htype.symm

/-- A slot that some item is stored in holds a value of a carried type from then on. -/
theorem storeItems_carried {items : List Item} (hcarried : CarriedItems items)
    (target : VariantList) {slot : Fin 7}
    (hslot : (target slot).mType.carried = true ∨ ∃ item ∈ items, item.slot = slot) :
    (storeItems target items slot).mType.carried = true := by
  induction items generalizing target with
  | nil => exact hslot.resolve_right (by simp)
  | cons item items ih =>
      refine ih (fun later hlater => hcarried later (List.mem_cons_of_mem item hlater))
        (item.store target) ?_
      by_cases hhere : item.slot = slot
      · subst hhere
        have hitem := hcarried item List.mem_cons_self
        have hvalue := congrArg Value.type (Value.value_write hitem (target item.slot))
        rw [value_type] at hvalue
        rw [Item.store, VariantList.modify_same, hvalue]
        left
        cases hkind : item.value <;> first | rfl | (rw [hkind] at hitem; exact hitem.elim)
      · rcases hslot with htarget | ⟨later, hlater, hsame⟩
        · rw [Item.store, VariantList.modify_of_ne target _ (Ne.symm hhere)]
          exact .inl htarget
        · rcases List.mem_cons.mp hlater with rfl | hrest
          · exact absurd hsame hhere
          · exact .inr ⟨later, hrest, hsame⟩

/-- Items that rebuild a list have one for every slot it uses. -/
theorem length_usedItems_le_of_rebuilt {list : VariantList} {items : List Item}
    (hvalues : (storeItems .fresh items).values = list.values) :
    list.usedItems.length ≤ items.length := by
  have hnodup : (list.usedItems.map Item.slot).Nodup := by
    have hslots : list.usedItems.map Item.slot =
        (List.finRange 7).filter fun slot => (list slot).mType.carried := by
      rw [VariantList.usedItems, List.map_filterMap, ← List.filterMap_eq_filter]
      refine List.filterMap_congr fun slot _ => ?_
      by_cases hcarried : (list slot).mType.carried = true
      · simp [VariantList.itemAt, Option.guard, hcarried]
      · simp [VariantList.itemAt, Option.guard, hcarried]
    rw [hslots]
    exact (List.nodup_finRange 7).filter _
  have hsubset : list.usedItems.map Item.slot ⊆ items.map Item.slot := by
    intro slot hslot
    obtain ⟨item, hitem, rfl⟩ := List.mem_map.mp hslot
    obtain ⟨slot, -, hitemAt⟩ := List.mem_filterMap.mp hitem
    obtain rfl := itemAt_slot hitemAt
    by_contra habsent
    have hother := storeItems_other items .fresh fun other hmem hsame =>
      habsent (List.mem_map.mpr ⟨other, hmem, hsame⟩)
    have htype := congrArg Value.type (congrFun hvalues item.slot)
    rw [VariantList.values, VariantList.values, hother, value_type, value_type] at htype
    rw [VariantList.itemAt, ← htype] at hitemAt
    cases hitemAt
  have hle := (List.subperm_of_subset hnodup hsubset).length_le
  rwa [List.length_map, List.length_map] at hle

section Encoded

variable {packet struct : Bytes} {list : VariantList}

/-- The outgoing side gets a list with values from no packet but one with a disguised size. -/
theorem disguisedSize_of_items (hstruct : getStruct packet = .ok (some struct))
    (hpayload : ((getExtended struct).drop 4).take (Packet.mDataSize struct).toNat =
      list.encoding) {item : Item} {items : List Item}
    (hholds : Holds (getExtended struct) (item :: items))
    (hvalues : (storeItems .fresh (item :: items)).values = list.values) :
    DisguisedSize list (Packet.mDataSize struct).toNat := by
  obtain ⟨trailing, hextended⟩ := extended_of_payload hstruct hpayload
  obtain ⟨hcarried, count, hshape⟩ := hholds
  have hstart : ∃ rest, getExtended struct =
      count :: UInt8.ofNat item.slot.val :: item.value.type.code :: rest ∧
        (item :: items).length ≤ count.toNat := by
    rcases hshape with ⟨hcount, rest, hbytes⟩ | ⟨hcount, index, type, rest, -, hbytes⟩
    · exact ⟨_, hbytes, hcount.le⟩
    · exact ⟨_, hbytes, hcount.le⟩
  obtain ⟨rest, hbytes, hcount⟩ := hstart
  rw [hextended, le32] at hbytes
  simp only [List.cons_append, List.nil_append, List.cons.injEq] at hbytes
  obtain ⟨hcountByte, hslotByte, htypeByte, -⟩ := hbytes
  have htype : carriedCode (UInt8.ofNat ((Packet.mDataSize struct).toNat / 65536)) = true := by
    rw [htypeByte]
    exact Value.carriedCode_type (hcarried item List.mem_cons_self)
  refine ⟨?_, ?_, ⟨item.slot, ?_, ?_⟩, htype⟩
  · by_contra hsmall
    rw [Nat.div_eq_of_lt (by omega)] at htype
    exact absurd htype (by decide)
  · have hbyte := congrArg UInt8.toNat hcountByte
    rw [UInt8.toNat_ofNat'] at hbyte
    rw [hbyte]
    exact (length_usedItems_le_of_rebuilt hvalues).trans hcount
  · have hbyte := congrArg UInt8.toNat hslotByte
    rw [UInt8.toNat_ofNat', UInt8.toNat_ofNat'] at hbyte
    have hslot := item.slot.isLt
    omega
  · have hstored := @storeItems_carried _ hcarried .fresh item.slot
      (.inr ⟨item, List.mem_cons_self, rfl⟩)
    have hsame := congrArg Value.type (congrFun hvalues item.slot)
    rw [VariantList.values, VariantList.values, value_type, value_type] at hsame
    rw [← hsame]
    exact hstored

/-- Both decoders of a packet with the encoding of a list return that list if no slot of it is
used, and if they do for a list with values, then only since the bytes of its size look like the
start of the list: at 65536 bytes or more. -/
theorem decodersAgree_unused (hstruct : getStruct packet = .ok (some struct))
    (hpacket : packet.length ≤ maximumPacketSize)
    (hsize : (Packet.mDataSize struct).toNat = list.encoding.length)
    (hpayload : ((getExtended struct).drop 4).take (Packet.mDataSize struct).toNat =
      list.encoding) :
    (Unused list → DecodersAgree struct list) ∧
      (DecodersAgree struct list → Unused list ∨
        DisguisedSize list (Packet.mDataSize struct).toNat) := by
  have hfits := encoding_lt_of_packet hstruct hpacket hpayload
  have hincoming := decodeCall_of_payload hstruct hpacket hpayload
  constructor
  · intro hunused
    have hsendable := hunused.sendable
    have hnone := hunused.usedItems
    -- the encoding is one zero byte, its size reads as one item of unknown type
    obtain ⟨trailing, hextended⟩ := extended_of_payload hstruct hpayload
    have hone : Packet.mDataSize struct = 1 := by
      apply UInt32.toNat_inj.mp
      rw [hsize, VariantList.encoding, hnone]
      rfl
    have hholds : Holds (getExtended struct) [] := by
      refine ⟨fun _ hmem => absurd hmem List.not_mem_nil, 1,
        .inr ⟨by decide, 0, 0, 0 :: (list.encoding ++ trailing), rfl, ?_⟩⟩
      rw [hextended, hone]
      rfl
    obtain ⟨parsed, hparse⟩ :=
      (decoded_iff_holds (getExtended struct) .fresh .fresh).mpr ⟨[], hholds, rfl⟩
    exact ⟨.fresh, _, (outgoing_eq_ok struct .fresh).mpr ⟨parsed, hparse⟩, hincoming,
      (usedItems_eq_nil_iff hsendable).mp hnone, (values_usedItems_iff list hfits).mpr hsendable⟩
  · rintro ⟨outgoing, incoming, hout, hin, houtValues, hinValues⟩
    rw [hincoming] at hin
    cases hin
    have hsendable := (values_usedItems_iff list hfits).mp hinValues
    obtain ⟨items, hholds, rfl⟩ :=
      (decoded_iff_holds _ _ _).mp ((outgoing_eq_ok struct outgoing).mp hout)
    cases items with
    | nil => exact .inl (.of_usedItems hsendable ((usedItems_eq_nil_iff hsendable).mpr houtValues))
    | cons item items => exact .inr (disguisedSize_of_items hstruct hpayload hholds houtValues)

end Encoded

/-- The list with the function name `A`. -/
def namesA : VariantList := VariantList.ofString (ascii "A")

/-- The decoders do not agree on the packet of a list with one value. -/
theorem decodersAgree_unused_named :
    ¬ DecodersAgree (callPacket (-1) 0 (UInt32.ofNat namesA.encoding.length) namesA.encoding)
      namesA := by
  intro hagree
  have hdecided := (@decodersAgree_unused
    (callPacket (-1) 0 (UInt32.ofNat namesA.encoding.length) namesA.encoding) _ namesA (by decide)
    (by decide) (by decide) (by decide)).2 hagree
  rcases hdecided with hunused | hdisguised
  · exact absurd hunused (by decide)
  · exact absurd hdisguised.large (by decide)

/-- A call that names the function `A`: the incoming side decodes it, the outgoing side
finds nothing in it. -/
theorem decoders_disagree :
    let list := VariantList.ofString (ascii "A")
    let struct := callPacket (-1) 0 (UInt32.ofNat list.encoding.length) list.encoding
    getStruct struct = .ok (some struct) ∧
      ((getExtended struct).drop 4).take (Packet.mDataSize struct).toNat = list.encoding ∧
      ∃ outgoing incoming, Events.Out.variantlist struct = .ok outgoing ∧
        Events.In.decodeCall struct = .ok incoming ∧
        incoming.values = list.values ∧ outgoing.values ≠ incoming.values := by
  intro list struct
  have hstruct : getStruct struct = .ok (some struct) := by decide
  have hpayload : ((getExtended struct).drop 4).take (Packet.mDataSize struct).toNat =
      list.encoding := by decide
  have hincoming := decodeCall_of_payload hstruct (by decide) hpayload
  have hvalues : (storeItems .fresh list.usedItems).values = list.values :=
    (values_usedItems_iff list (by decide)).mpr (by decide)
  -- the size 8 reads as eight items, the first of them of type 0
  have hnothing : Holds (getExtended struct) [] :=
    ⟨nofun, 8, .inr ⟨by decide, 0, 0, 0 :: list.encoding, rfl, by decide⟩⟩
  obtain ⟨parsed, hparse⟩ := (decoded_iff_holds _ .fresh .fresh).mpr ⟨[], hnothing, rfl⟩
  refine ⟨hstruct, hpayload, .fresh, _, (outgoing_eq_ok _ _).mpr ⟨parsed, hparse⟩,
    hincoming, hvalues, fun hsame => ?_⟩
  rw [hvalues] at hsame
  exact absurd (congrArg Value.type (congrFun hsame 0)) (by decide)

/-! ## A disguised size

The exception is real: a text that repeats the bytes in front of it is found again, a few bytes
later, by the side that starts at the size. -/

/-- One string in slot 2. -/
def inSlotTwo (text : Bytes) : VariantList := VariantList.fresh.modify 2 (Variant.setString text)

/-- What the other side takes the encoding for: a float, a string and the text, in the same
slot. -/
def misreadItems (text : Bytes) : List Item :=
  [⟨2, .float 0x02020100⟩, ⟨2, .string [65]⟩, ⟨2, .string text⟩]

section

variable (text : Bytes)

theorem encoding_inSlotTwo : (inSlotTwo text).encoding =
    1 :: 2 :: 2 :: (le32 (UInt32.ofNat text.length) ++ text) := by
  have hbytes : (inSlotTwo text).encoding =
      1 :: 2 :: 2 :: (le32 (UInt32.ofNat text.length) ++ text ++ []) := rfl
  rw [hbytes, List.append_nil]

theorem flatMap_misreadItems : (misreadItems text).flatMap Item.bytes =
    [2, 1, 0, 1, 2, 2, 2, 2, 1, 0, 0, 0, 65, 2, 2] ++
      (le32 (UInt32.ofNat text.length) ++ text) := by
  have hbytes : (misreadItems text).flatMap Item.bytes =
      [2, 1, 0, 1, 2, 2, 2, 2, 1, 0, 0, 0, 65, 2, 2] ++
        (le32 (UInt32.ofNat text.length) ++ text ++ []) := rfl
  rw [hbytes, List.append_nil]

theorem not_unused_inSlotTwo : ¬ Unused (inSlotTwo text) := fun hunused => by
  have hslot := hunused 2
  cases hslot

theorem sendable_inSlotTwo : (inSlotTwo text).Sendable := by
  intro slot
  by_cases hslot : slot = 2
  · subst hslot
    exact .inr rfl
  · exact .inl (congrArg Variant.mType (VariantList.modify_of_ne .fresh _ hslot))

theorem values_misreadItems :
    (storeItems .fresh (misreadItems text)).values = (inSlotTwo text).values := by
  funext slot
  by_cases hslot : slot = 2
  · subst hslot
    rfl
  · have hother : ∀ item ∈ misreadItems text, item.slot ≠ slot := by
      simpa [misreadItems] using Ne.symm hslot
    rw [VariantList.values, VariantList.values, storeItems_other _ _ hother]
    exact congrArg Variant.value (VariantList.modify_of_ne .fresh _ hslot).symm

end

/-- What repeats: the end of a one-byte string, then slot, type and length of the text. -/
def period : Bytes := [0, 0, 65, 2, 2, 2, 2, 1, 0]

@[irreducible] def periodicText : Bytes := (List.replicate 7338 period).flatten ++ period.take 8

theorem length_periodicText : periodicText.length = 66050 := by
  have hperiod : period.length = 9 := rfl
  rw [periodicText, List.length_append, List.length_flatten, List.map_replicate, hperiod,
    List.sum_replicate_nat]
  rfl

/-- The last bytes that the shifted text needs. -/
def behindText : Bytes := period.drop 8 ++ period.take 8

theorem periodicText_shift : periodicText ++ behindText = period ++ periodicText := by
  have hperiod : period.take 8 ++ behindText = period ++ period.take 8 := rfl
  have hturn (count : Nat) : (List.replicate count period).flatten ++ period =
      period ++ (List.replicate count period).flatten := by
    have hflat (words : List Bytes) : words.flatten ++ period = (words ++ [period]).flatten := by
      simp
    rw [hflat, ← List.replicate_succ', List.replicate_succ, List.flatten_cons]
  rw [periodicText, List.append_assoc, hperiod, ← List.append_assoc, hturn, List.append_assoc]

/-- The packet of the text, with the bytes the shifted text needs and an unknown type behind. -/
def disguisedPacket : Bytes :=
  callPacket (-1) 0 66057 ((inSlotTwo periodicText).encoding ++ (behindText ++ [0, 0]))

theorem length_disguised : (inSlotTwo periodicText).encoding.length = 66057 := by
  rw [encoding_inSlotTwo, List.length_cons, List.length_cons, List.length_cons,
    List.length_append, length_le32, length_periodicText]

theorem mDataSize_disguisedPacket : Packet.mDataSize disguisedPacket = 66057 :=
  CallPacket.mDataSize_eq ..

theorem length_disguisedPacket : disguisedPacket.length = 66128 := by
  have hbehind : (behindText ++ [0, 0]).length = 11 := rfl
  rw [disguisedPacket, CallPacket.length, List.length_append, length_disguised, hbehind]

theorem getStruct_disguisedPacket : getStruct disguisedPacket = .ok (some disguisedPacket) := by
  have hflags : Packet.mPacketFlags disguisedPacket &&& 8 ≠ 0 := by
    rw [Packet.mPacketFlags, disguisedPacket, (CallPacket.words _ _ _ _).2.1]
    decide
  rw [getStruct, length_disguisedPacket, if_neg (by decide), if_neg (by decide), if_pos hflags,
    mDataSize_disguisedPacket, if_neg (by decide)]

/-- The bytes from the size on, as the outgoing side reads them. -/
theorem getExtended_disguisedPacket : getExtended disguisedPacket =
    9 :: ((misreadItems periodicText).flatMap Item.bytes ++ 0 :: 0 :: []) := by
  have hextended : getExtended disguisedPacket =
      le32 66057 ++ ((inSlotTwo periodicText).encoding ++ (behindText ++ [0, 0])) := rfl
  have hlength : le32 (UInt32.ofNat 66050) = [2, 2, 1, 0] := by decide
  have hsize : le32 66057 = [9, 2, 1, 0] := by decide
  have hfront : ([2, 1, 0, 1, 2, 2, 2, 2, 1, 0, 0, 0, 65, 2, 2] : Bytes) ++ [2, 2, 1, 0] =
      [2, 1, 0, 1, 2, 2, 2, 2, 1, 0] ++ period := rfl
  rw [hextended, encoding_inSlotTwo, flatMap_misreadItems, length_periodicText, hlength, hsize,
    ← List.append_assoc _ [2, 2, 1, 0], hfront, List.append_assoc _ period,
    ← periodicText_shift]
  simp only [List.cons_append, List.nil_append, List.append_assoc]

/-- Both decoders get this list, although it has a value. -/
theorem decodersAgree_disguised :
    getStruct disguisedPacket = .ok (some disguisedPacket) ∧
      disguisedPacket.length ≤ maximumPacketSize ∧
      (Packet.mDataSize disguisedPacket).toNat = (inSlotTwo periodicText).encoding.length ∧
      ((getExtended disguisedPacket).drop 4).take (Packet.mDataSize disguisedPacket).toNat =
        (inSlotTwo periodicText).encoding ∧
      ¬ Unused (inSlotTwo periodicText) ∧
      DecodersAgree disguisedPacket (inSlotTwo periodicText) := by
  have hpacket : disguisedPacket.length ≤ maximumPacketSize := by
    rw [length_disguisedPacket]
    decide
  have hsize : (Packet.mDataSize disguisedPacket).toNat = 66057 := by
    rw [mDataSize_disguisedPacket]
    rfl
  have hpayload : ((getExtended disguisedPacket).drop 4).take
      (Packet.mDataSize disguisedPacket).toNat = (inSlotTwo periodicText).encoding := by
    have hbehind : (getExtended disguisedPacket).drop 4 =
        (inSlotTwo periodicText).encoding ++ (behindText ++ [0, 0]) := CallPacket.extended_eq ..
    rw [hbehind, hsize]
    exact List.take_left' length_disguised
  have hcarried : CarriedItems (misreadItems periodicText) := by
    simp only [misreadItems, CarriedItems, List.forall_mem_cons, Value.Carried,
      length_periodicText]
    exact ⟨trivial, by decide, by decide, by simp⟩
  have hfits := encoding_lt_of_packet getStruct_disguisedPacket hpacket hpayload
  obtain ⟨parsed, hparse⟩ := (decoded_iff_holds (getExtended disguisedPacket) .fresh _).mpr
    ⟨_, ⟨hcarried, 9, .inr ⟨by simp [misreadItems], 0, 0, [], by decide,
      getExtended_disguisedPacket⟩⟩, rfl⟩
  exact ⟨getStruct_disguisedPacket, hpacket, by rw [hsize, length_disguised], hpayload,
    not_unused_inSlotTwo _, _, _, (outgoing_eq_ok disguisedPacket _).mpr ⟨parsed, hparse⟩,
    decodeCall_of_payload getStruct_disguisedPacket hpacket hpayload, values_misreadItems _,
    (values_usedItems_iff _ hfits).mpr (sendable_inSlotTwo _)⟩

end SrmotionProxy
