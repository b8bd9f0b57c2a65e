/-
# The encoding as a canonical form

The decoder accepts many payloads for one list: items in any order, slots stored twice,
bytes behind the last item. This module shows that the sizes the serializer computes are
the bytes it stores, that re-encoding what was decoded is a normal form, and which
payloads are in normal form already.
-/

import SrmotionProxy.Decoder
import Mathlib.Data.List.Flatten
import Mathlib.Data.List.Sort

namespace SrmotionProxy

open SrmotionProxy.Lib SrmotionProxy.Proton

/-! ## Sizes -/

/-- The items that the writing loop stores: the slots it does not skip. -/
def itemsWritten (list : VariantList) : Nat :=
  ((List.finRange 7).filter fun slot : Fin 7 => itemBytes slot.val (list slot) ≠ []).length

/-- The loop skips the slots that contribute no item. -/
theorem itemsWritten_eq (list : VariantList) (hfits : list.encoding.length < 2 ^ 31) :
    itemsWritten list = list.usedItems.length := by
  have hslot (slot : Fin 7) :
      (itemBytes slot.val (list slot) ≠ []) ↔ (list.itemAt slot).isSome = true := by
    rw [itemBytes_eq list slot (payload_lt_of_encoding list hfits slot)]
    cases list.itemAt slot with
    | none => simp
    | some item => simp [Item.bytes]
  rw [itemsWritten, VariantList.usedItems, List.length_filterMap_eq_countP,
    List.countP_eq_length_filter]
  congr 1
  apply List.filter_congr
  intro slot _
  rw [Bool.eq_iff_iff, decide_eq_true_iff]
  exact hslot slot

/-- `get_mem_needed`, the allocated total, the reported size and the bytes stored agree,
and the count byte is the number of items stored. -/
theorem sizes_agree (list : VariantList) (hfits : list.encoding.length < 2 ^ 31) :
    ∃ size, serializeToMem list = .ok (storedBytes list, size) ∧
      (memCount list).total = (storedBytes list).length ∧
      size.toNat = (storedBytes list).length ∧ getMemNeeded list = size ∧
      (storedBytes list).head?.map UInt8.toNat = some (itemsWritten list) := by
  have hcount : (UInt8.ofNat list.usedItems.length).toNat = list.usedItems.length := by
    have := length_usedItems_le list
    rw [UInt8.toNat_ofNat']
    omega
  refine ⟨UInt32.ofNat list.encoding.length, ?_, ?_, ?_, ?_, ?_⟩
  · rw [storedBytes_eq list hfits]
    exact serializeToMem_eq list hfits
  · rw [storedBytes_eq list hfits]
    exact total_eq list hfits
  · rw [storedBytes_eq list hfits, UInt32.toNat_ofNat']
    omega
  · rw [getMemNeeded, total_eq list hfits, UInt32.ofInt]
    congr 1
    omega
  · rw [storedBytes_eq list hfits, itemsWritten_eq list hfits, VariantList.encoding,
      List.head?_cons, Option.map_some, hcount]

/-- A list with a string and a rectangle. -/
theorem sizes_agree_mixed :
    let list : VariantList := (VariantList.ofString (ascii "A")).modify 2
      (Variant.setRect 1 2 3 4)
    ∃ size, serializeToMem list = .ok (storedBytes list, size) ∧
      (memCount list).total = (storedBytes list).length ∧
      size.toNat = (storedBytes list).length ∧ getMemNeeded list = size ∧
      (storedBytes list).head?.map UInt8.toNat = some (itemsWritten list) :=
  sizes_agree _ (by decide)

/-! ## What a decoded list holds -/

theorem storeItems_concat (list : VariantList) (items : List Item) (item : Item) :
    storeItems list (items ++ [item]) = (storeItems list items).modify item.slot
      item.value.write := by
  rw [storeItems, List.foldl_append]
  rfl

/-- A slot of a decoded list is unused or holds the value of one of the items. -/
theorem storeItems_fresh_slot {items : List Item} (hcarried : CarriedItems items)
    (slot : Fin 7) : (storeItems .fresh items slot).mType = .unused ∨
      (⟨slot, (storeItems .fresh items slot).value⟩ : Item) ∈ items := by
  induction items using List.reverseRecOn with
  | nil => exact .inl rfl
  | append_singleton items item ih =>
      rw [storeItems_concat]
      by_cases hslot : slot = item.slot
      · -- the last writer wins
        right
        subst hslot
        have hitem : item.value.Carried := hcarried item (by simp)
        rw [VariantList.modify_same, Value.value_write hitem]
        exact List.mem_append_right items List.mem_cons_self
      · rw [VariantList.modify_of_ne _ _ hslot]
        rcases ih fun earlier hearlier => hcarried earlier (List.mem_append_left _ hearlier)
          with hunused | hmem
        · exact .inl hunused
        · exact .inr (List.mem_append_left _ hmem)

/-- The type of a carried value has a wire form. -/
theorem Value.carried_type {value : Value} (hcarried : value.Carried) :
    value.type.carried = true := by
  cases value <;> first | rfl | exact hcarried.elim

theorem storeItems_fresh_sendable {items : List Item} (hcarried : CarriedItems items) :
    (storeItems .fresh items).Sendable := by
  intro slot
  rcases storeItems_fresh_slot hcarried slot with hunused | hmem
  · exact .inl hunused
  · right
    have htype := Value.carried_type (hcarried _ hmem)
    rw [value_type] at htype
    exact htype

/-- The items a decoded list is encoded with are among those it was decoded from. -/
theorem usedItems_storeItems_subset {items : List Item} (hcarried : CarriedItems items) :
    (storeItems .fresh items).usedItems ⊆ items := by
  intro item hitem
  obtain ⟨slot, -, hslot⟩ := List.mem_filterMap.mp hitem
  unfold VariantList.itemAt at hslot
  split at hslot
  case isTrue htype =>
      cases hslot
      rcases storeItems_fresh_slot hcarried slot with hunused | hmem
      · rw [hunused] at htype
        cases htype
      · exact hmem
  case isFalse => cases hslot

/-- A list is encoded by increasing slots. -/
theorem usedItems_sorted (list : VariantList) :
    list.usedItems.Pairwise fun first second => first.slot < second.slot := by
  unfold VariantList.usedItems
  apply (List.pairwise_lt_finRange 7).filterMap
  intro slot later hless item hitem other hother
  rw [itemAt_slot hitem, itemAt_slot hother]
  exact hless

theorem nodup_usedItems (list : VariantList) : list.usedItems.Nodup := by
  apply (usedItems_sorted list).imp
  intro first second hless hsame
  exact absurd (hsame ▸ hless) (lt_irrefl _)

/-- Encoding what was decoded never takes more bytes than the items did. -/
theorem length_encoding_storeItems {items : List Item} (hcarried : CarriedItems items) :
    (storeItems .fresh items).encoding.length ≤ (items.flatMap Item.bytes).length + 1 := by
  obtain ⟨some, hperm, hsublist⟩ := List.subperm_of_subset (nodup_usedItems _)
    (usedItems_storeItems_subset hcarried)
  have hsame := (hperm.flatMap_right Item.bytes).length_eq
  have hle := (hsublist.flatMap Item.bytes).length_le
  rw [VariantList.encoding, List.length_cons]
  omega

/-- Items of distinct slots all stay. -/
theorem value_storeItems_of_sorted {items : List Item} (hcarried : CarriedItems items)
    (hsorted : items.Pairwise fun first second => first.slot < second.slot) {item : Item}
    (hitem : item ∈ items) : (storeItems .fresh items item.slot).value = item.value := by
  induction items using List.reverseRecOn with
  | nil => cases hitem
  | append_singleton items last ih =>
      obtain ⟨hfront, -, hbelow⟩ := List.pairwise_append.mp hsorted
      rw [storeItems_concat]
      rcases List.mem_append.mp hitem with hearlier | hlast
      · have hless := hbelow item hearlier last List.mem_cons_self
        rw [VariantList.modify_of_ne _ _ (ne_of_lt hless)]
        exact ih (fun other hother => hcarried other (List.mem_append_left _ hother)) hfront
          hearlier
      · obtain rfl := List.mem_singleton.mp hlast
        rw [VariantList.modify_same]
        exact Value.value_write (hcarried item hitem) _

/-- Items by increasing slot are the items of the list they store. -/
theorem usedItems_storeItems_of_sorted {items : List Item} (hcarried : CarriedItems items)
    (hsorted : items.Pairwise fun first second => first.slot < second.slot) :
    (storeItems .fresh items).usedItems = items := by
  have hnodup : items.Nodup := by
    apply hsorted.imp
    intro first second hless hsame
    exact absurd (hsame ▸ hless) (lt_irrefl _)
  have hsubset : items ⊆ (storeItems .fresh items).usedItems := by
    intro item hitem
    have hvalue := value_storeItems_of_sorted hcarried hsorted hitem
    have htype := Value.carried_type (hcarried item hitem)
    rw [← hvalue, value_type] at htype
    apply List.mem_filterMap.mpr
    refine ⟨item.slot, List.mem_finRange _, ?_⟩
    rw [VariantList.itemAt, if_pos htype, hvalue]
  have hperm := (List.perm_ext_iff_of_nodup (nodup_usedItems _) hnodup).mpr fun item =>
    ⟨fun hitem => usedItems_storeItems_subset hcarried hitem, fun hitem => hsubset hitem⟩
  exact hperm.eq_of_pairwise (fun first second _ _ hless hmore => absurd hmore hless.asymm)
    (usedItems_sorted _) hsorted

/-! ## Items are a prefix code -/

/-- Slot, type and payload tell where an item ends. -/
theorem item_bytes_inj {first second : Item} {rest after : Bytes}
    (hfirst : first.value.Carried) (hsecond : second.value.Carried)
    (hbytes : first.bytes ++ rest = second.bytes ++ after) : first = second ∧ rest = after := by
  obtain ⟨slot, value⟩ := first
  obtain ⟨otherSlot, otherValue⟩ := second
  simp only [Item.bytes, List.cons_append, List.cons.injEq] at hbytes
  obtain ⟨hslot, htype, hpayload⟩ := hbytes
  have hread := readVariant_payload hfirst rest
  rw [htype, hpayload, readVariant_payload hsecond after] at hread
  obtain ⟨hwrite, hrest⟩ := Prod.mk.inj (Option.some.inj (Except.ok.inj hread))
  have hvalue : value = otherValue :=
    calc
      value = (value.write {}).value := (Value.value_write hfirst {}).symm
      _ = (otherValue.write {}).value := congrArg (fun write => (write {}).value) hwrite.symm
      _ = otherValue := Value.value_write hsecond {}
  have hslots : slot = otherSlot := by
    apply Fin.ext
    have := congrArg UInt8.toNat hslot
    rw [UInt8.toNat_ofNat', UInt8.toNat_ofNat'] at this
    omega
  exact ⟨by rw [hslots, hvalue], hrest.symm⟩

/-- So do sequences of items of one length. -/
theorem items_bytes_inj {items others : List Item} {rest after : Bytes}
    (hitems : CarriedItems items) (hothers : CarriedItems others)
    (hlength : items.length = others.length)
    (hbytes : items.flatMap Item.bytes ++ rest = others.flatMap Item.bytes ++ after) :
    items = others ∧ rest = after := by
  induction items generalizing others with
  | nil =>
      obtain rfl := List.eq_nil_of_length_eq_zero hlength.symm
      exact ⟨rfl, hbytes⟩
  | cons item items ih =>
      cases others with
      | nil => cases hlength
      | cons other others =>
          simp only [List.flatMap_cons, List.append_assoc] at hbytes
          obtain ⟨rfl, htail⟩ := item_bytes_inj (hitems item List.mem_cons_self)
            (hothers other List.mem_cons_self) hbytes
          obtain ⟨rfl, rfl⟩ := ih
            (fun later hlater => hitems later (List.mem_cons_of_mem _ hlater))
            (fun later hlater => hothers later (List.mem_cons_of_mem _ hlater))
            (Nat.succ.inj hlength) htail
          exact ⟨rfl, rfl⟩

/-! ## Slot indices of a payload -/

/-- The index bytes of the next `count` items, up to the first that cannot be read. -/
def indicesFrom : Nat → Bytes → List Nat
  | 0, _ => []
  | _ + 1, [] => []
  | _ + 1, [_] => []
  | count + 1, index :: type :: p =>
      match readVariant type p with
      | .ok (some (_, p)) => index.toNat :: indicesFrom count p
      | _ => []

/-- The slot indices in a payload, in the order in which they arrive. -/
def slotIndices : Bytes → List Nat
  | [] => []
  | count :: p => indicesFrom count.toNat p

theorem indicesFrom_items {items : List Item} (hcarried : CarriedItems items) (rest : Bytes) :
    indicesFrom items.length (items.flatMap Item.bytes ++ rest) =
      items.map fun item => item.slot.val := by
  induction items with
  | nil => rfl
  | cons item items ih =>
      have hitem : item.value.Carried := hcarried item List.mem_cons_self
      have hslot : (UInt8.ofNat item.slot.val).toNat = item.slot.val := by
        rw [UInt8.toNat_ofNat']
        omega
      rw [List.flatMap_cons, List.append_assoc]
      simp only [List.length_cons, Item.bytes, List.cons_append, indicesFrom,
        readVariant_payload hitem, List.map_cons, hslot]
      rw [ih fun later hlater => hcarried later (List.mem_cons_of_mem _ hlater)]

theorem slotIndices_sorted_iff {count : UInt8} {items : List Item} {rest : Bytes}
    (hcount : items.length = count.toNat) (hcarried : CarriedItems items) :
    (slotIndices (count :: (items.flatMap Item.bytes ++ rest))).Pairwise (· < ·) ↔
      items.Pairwise fun first second => first.slot < second.slot := by
  rw [slotIndices, ← hcount, indicesFrom_items hcarried rest, List.pairwise_map]
  exact Iff.rfl

/-! ## Re-encoding -/

/-- The encoder returns the payload exactly if its items came by increasing slot and
nothing followed them. -/
theorem encoding_storeItems_iff {count : UInt8} {items : List Item} {rest : Bytes}
    (hcount : items.length = count.toNat) (hcarried : CarriedItems items)
    (hfits : (storeItems .fresh items).encoding.length < 2 ^ 31) :
    (storeItems .fresh items).encoding = count :: (items.flatMap Item.bytes ++ rest) ↔
      (items.Pairwise fun first second => first.slot < second.slot) ∧ rest = [] := by
  constructor
  · intro hsame
    rw [VariantList.encoding, List.cons.injEq] at hsame
    obtain ⟨hused, hbytes⟩ := hsame
    have hlength : (storeItems .fresh items).usedItems.length = items.length := by
      have := length_usedItems_le (storeItems .fresh items)
      rw [hcount, ← hused, UInt8.toNat_ofNat']
      omega
    rw [← List.append_nil (List.flatMap _ _)] at hbytes
    obtain ⟨hitems, hrest⟩ := items_bytes_inj (carriedItems_usedItems _ hfits) hcarried hlength
      hbytes
    have hsorted := usedItems_sorted (storeItems .fresh items)
    rw [hitems] at hsorted
    exact ⟨hsorted, hrest.symm⟩
  · rintro ⟨hsorted, rfl⟩
    rw [VariantList.encoding, usedItems_storeItems_of_sorted hcarried hsorted, hcount,
      UInt8.ofNat_toNat, List.append_nil]

/-- What was decoded is encoded in a normal form: the encoding decodes to the same values
and is encoded as itself again, and it is the payload exactly if the slot indices in the
payload increase and the decoder consumed all of it. -/
theorem reencode_canonical {payload : Bytes} {parsed : Parsed}
    (hsize : payload.length < 2 ^ 31)
    (hparse : serializeFromMem payload .fresh = .ok parsed) (haccepted : parsed.accepted = true) :
    ∃ encoded size, serializeToMem parsed.list = .ok (encoded, size) ∧
      (∃ again, serializeFromMem encoded .fresh = .ok again ∧ again.accepted = true ∧
        again.read = encoded.length ∧ again.list.values = parsed.list.values ∧
        serializeToMem again.list = .ok (encoded, size)) ∧
      (encoded = payload ↔
        (slotIndices payload).Pairwise (· < ·) ∧ parsed.read = payload.length) := by
  cases payload with
  | nil => cases hparse
  | cons count p =>
      rw [serializeFromMem_cons] at hparse
      obtain ⟨⟨accepted, rest, list⟩, hread, hresult⟩ := except_bind_eq_ok hparse
      cases hresult
      obtain rfl : accepted = true := haccepted
      obtain ⟨items, hcount, hcarried, rfl, rfl⟩ := readItems_accepted hread
      have hshorter := length_encoding_storeItems hcarried
      rw [List.length_cons, List.length_append] at hsize
      have hfits : (storeItems .fresh items).encoding.length < 2 ^ 31 := by omega
      have hcarriedUsed := carriedItems_usedItems _ hfits
      have hencode := serializeToMem_eq _ hfits
      have hdecode := serializeFromMem_encoding _ hfits []
      rw [List.append_nil] at hdecode
      have hvalues := values_storeItems_usedItems _ (storeItems_fresh_sendable hcarried) hfits
      -- the slots of an encoding increase, so its list is encoded as itself
      have hagain : (storeItems .fresh (storeItems .fresh items).usedItems).encoding =
          (storeItems .fresh items).encoding := by
        rw [VariantList.encoding, VariantList.encoding,
          usedItems_storeItems_of_sorted hcarriedUsed (usedItems_sorted _)]
      have hencodeAgain := serializeToMem_eq (storeItems .fresh (storeItems .fresh items).usedItems)
        (by rw [hagain]; exact hfits)
      rw [hagain] at hencodeAgain
      refine ⟨_, _, hencode, ⟨_, hdecode, rfl, rfl, hvalues, hencodeAgain⟩, ?_⟩
      rw [encoding_storeItems_iff hcount hcarried hfits, slotIndices_sorted_iff hcount hcarried]
      have hconsumed : rest = [] ↔ (if true = true then
          (items.flatMap Item.bytes ++ rest).length + 1 - rest.length else 0) =
            (count :: (items.flatMap Item.bytes ++ rest)).length := by
        rw [if_pos rfl, List.length_cons, List.length_append, ← List.length_eq_zero_iff]
        omega
      rw [hconsumed]

/-- Two numbers for slot 3 and then one for slot 0, with a byte behind them. -/
theorem reencode_canonical_repeated :
    let payload : Bytes := [3, 3, 5, 1, 0, 0, 0, 3, 9, 2, 0, 0, 0, 0, 5, 7, 0, 0, 0, 255]
    ∃ parsed, serializeFromMem payload .fresh = .ok parsed ∧
    ∃ encoded size, serializeToMem parsed.list = .ok (encoded, size) ∧
      (∃ again, serializeFromMem encoded .fresh = .ok again ∧ again.accepted = true ∧
        again.read = encoded.length ∧ again.list.values = parsed.list.values ∧
        serializeToMem again.list = .ok (encoded, size)) ∧
      (encoded = payload ↔
        (slotIndices payload).Pairwise (· < ·) ∧ parsed.read = payload.length) :=
  ⟨_, rfl, reencode_canonical (by decide) rfl rfl⟩

end SrmotionProxy
