/-
# What the compressor writes

Each byte takes the shares that the prediction gives it, and the table follows. So the output
is the stream of all shares, or nothing if the stream is too long.
-/

import SrmotionProxy.ENet.Streams
import SrmotionProxy.ENet.SymbolChains

namespace SrmotionProxy.ENet.Compress

open SrmotionProxy.Lib
open SrmotionProxy.Lib.RangeCoder (Interval Slot Settled Emits stream)

/-! ## One byte -/

/-- The lines of `compressByte` behind the loop: the root, if no subcontext had the byte. -/
def encodeRoot (limit value : Nat) (reached : Contexts × Encoder × Option Nat × Bool) :
    Except Stop (Contexts × Encoder) := do
  let (contexts, encoder, parent, found) := reached
  if found then Except.ok (contexts, encoder)
  else do
    let ⟨symbol, under, count, coder⟩ ← contextEncode contexts.coder 0 value
      ENET_CONTEXT_SYMBOL_DELTA ENET_CONTEXT_SYMBOL_MINIMUM
    let contexts := ({ contexts with coder := coder } : Contexts).store parent symbol
    let root ← contexts.coder.context 0
    let encoder ← encoder.encode limit (root.escapes + under) count root.total
    let contexts ← contexts.countRoot count
    Except.ok (contexts, encoder)

theorem compressByte_eq (limit : Nat) (contexts : Contexts) (order : Nat) (encoder : Encoder)
    (value : Nat) : compressByte limit ⟨contexts, order, encoder⟩ value = (do
      let (contexts, encoder) ←
        encodeSubcontexts limit value symbolLimit contexts encoder contexts.predicted none >>=
          encodeRoot limit value
      let (contexts, order) ← contexts.nextInput order
      return ⟨contexts, order, encoder⟩) := by
  rw [compressByte]
  cases encodeSubcontexts limit value symbolLimit contexts encoder contexts.predicted none with
  | error stop => rfl
  | ok reached =>
      obtain ⟨contexts, encoder, parent, found⟩ := reached
      cases found with
      | true => rfl
      | false =>
          simp only [except_ok_bind, encodeRoot, Bool.false_eq_true, if_false, bind_assoc]

section Byte

variable {limit fuel value length : Nat} {contexts : Contexts} {interval : Interval}
  {predictor : Predictor} {place : List Nat → Nat} {up : Option (List Nat) → Nat}
  {history : List Nat} {owner : Option (List Nat)}

/-- A byte is written: these shares, unless they do not fit, and the table knows it. -/
def WritesByte (limit : Nat) (interval : Interval) (slots : List Slot) (size : Nat)
    (predictor : Predictor) (history : List Nat)
    (write : Encoder → Except Stop (Contexts × Encoder)) : Prop :=
  ∃ bytes after contexts place up, Emits interval slots bytes after ∧
    (∀ encoder : Encoder, encoder.interval = interval → encoder.out.length ≤ limit →
      write encoder = (encoder.emit limit bytes after).map (fun encoder => (contexts, encoder))) ∧
    Ready contexts predictor place up history ∧ contexts.coder.symbols.length = size

theorem encodeRoot_writes
    (hpending : Pending contexts predictor place up history value 0 owner) (hsound : predictor.Sound)
    (hvalue : value < 256) (hroom : contexts.coder.symbols.length < symbolLimit)
    (hsettled : Settled interval) :
    WritesByte limit interval (predictor.slots history value 0)
      (contexts.coder.symbols.length + predictor.created history value 0)
      (predictor.learn history value 0) (value :: history)
      (fun encoder => encodeRoot limit value (contexts, encoder, owner.map place, false)) := by
  obtain ⟨coder, symbol, entry, after, place', up', hencode, hentry, hescapes, htotal, hcount, hready,
    hlength⟩ := @Pending.meet_ready _ _ _ _ _ _ _ ENET_CONTEXT_SYMBOL_MINIMUM _
      ENET_CONTEXT_SYMBOL_DELTA
      (0xFF - 2 * ENET_CONTEXT_SYMBOL_DELTA + ENET_CONTEXT_SYMBOL_MINIMUM) [] hpending
      hsound.empty trivial (.inr rfl) hsound.root.toSound hvalue le_rfl le_rfl hroom
      (hsound.root.meetRoot hvalue).toSound rfl
  rw [hpending.holds.root] at hencode hentry hcount
  obtain ⟨bytes, next, hsettle, -, hwrite⟩ :=
    Encoder.encode_eq limit hsettled (hsound.root.rootSlot_fits hvalue)
  refine ⟨bytes, next, after, place', up', Emits.single hsettle, ?_, hready, ?_⟩
  · intro encoder hinterval hout
    simp only [encodeRoot, Bool.false_eq_true, if_false]
    rw [hencode, except_ok_bind, hentry, except_ok_bind, hescapes, htotal]
    exact Encoder.bind_emit_ok (hwrite encoder hinterval hout) fun behind => bind_of_ok hcount _
  · rw [hlength]
    rfl

/-- The loop goes on where the table waits. -/
theorem encode_writes
    (hpending : Pending contexts predictor place up history value length owner)
    (hsound : predictor.Sound) (hvalue : value < 256) (hfuel : length < fuel)
    (hroom : contexts.coder.symbols.length + length < symbolLimit) (hsettled : Settled interval) :
    WritesByte limit interval (predictor.slots history value length)
      (contexts.coder.symbols.length + predictor.created history value length)
      (predictor.learn history value length) (value :: history)
      (fun encoder => encodeSubcontexts limit value fuel contexts encoder
        (place (history.take length)) (owner.map place) >>= encodeRoot limit value) := by
  induction length generalizing contexts interval predictor place up owner fuel with
  | zero =>
      obtain ⟨fuel, rfl⟩ := Nat.exists_eq_add_of_lt hfuel
      simp only [Nat.zero_add, List.take_zero, hpending.holds.root, encodeSubcontexts, if_true,
        except_ok_bind]
      exact encodeRoot_writes hpending hsound hvalue hroom hsettled
  | succ length ih =>
      obtain ⟨fuel, rfl⟩ : ∃ rest, fuel = rest + 1 := ⟨fuel - 1, by omega⟩
      have hinside := hpending.inside
      have hcontext := Predictor.take_succ_ne_nil hinside
      have hknown := hpending.known (length + 1)
      have hsubcontext := hsound.subcontexts _ hcontext
      have hplace : place (history.take (length + 1)) ≠ 0 := fun hzero =>
        hcontext (hpending.holds.apart _ _ hknown trivial (hzero.trans hpending.holds.root.symm))
      simp only [encodeSubcontexts, if_neg hplace]
      rw [Predictor.slots, Predictor.created, Predictor.learn]
      by_cases hhas : (predictor (history.take (length + 1))).tree.Has value
      · simp only [if_pos hhas]
        obtain ⟨coder, symbol, entry, after, place', up', hencode, hentry, hescapes, htotal, hcount,
          hready, hlength⟩ := @Pending.meet_ready _ _ _ _ _ _ _ 0 _ ENET_SUBCONTEXT_SYMBOL_DELTA
            (0xFF - 2 * ENET_SUBCONTEXT_SYMBOL_DELTA) _ hpending hsound.empty hknown (.inl hhas)
            hsubcontext.toSound hvalue (Nat.zero_le _) le_rfl (by omega)
            (by rw [Nat.zero_add]; exact (hsubcontext.meet hvalue hhas).toSound) rfl
        rw [Nat.mul_zero, Nat.zero_add, Nat.zero_add] at hencode
        rw [Nat.zero_add] at hcount hready
        have hnumber := (FrequencyTree.count_pos_iff hsubcontext.ordered hsubcontext.counts).mpr hhas
        obtain ⟨bytes, next, hsettle, -, hwrite⟩ :=
          Encoder.encode_eq limit hsettled (hsubcontext.slot_fits hhas)
        refine ⟨bytes, next, after, place', up', Emits.single hsettle, ?_, hready, ?_⟩
        · intro encoder hinterval hout
          simp only [hencode, except_ok_bind, hentry, if_pos hnumber, hescapes, htotal, bind_assoc]
          exact Encoder.bind_emit_ok (hwrite encoder hinterval hout) fun behind => bind_of_ok hcount _
        · rw [hlength, if_pos hhas]
      · simp only [if_neg hhas]
        obtain ⟨coder, symbol, under, entry, after, last, place', up', hencode, hentry, hescapes, htotal,
          hcount, hlast, hparent, hsymbol, hmissed, hplaces, hlength⟩ :=
            hpending.miss_count hsound.empty hsubcontext hvalue (by omega) hhas
        have hsame (shorter : Nat) (hshorter : shorter ≤ length) :
            Function.update predictor (history.take (length + 1))
              ((predictor (history.take (length + 1))).miss value) (history.take shorter) =
                predictor (history.take shorter) :=
          Function.update_of_ne (Predictor.take_ne_take hshorter hinside) _ _
        have hmissSound := hsound.miss hvalue hknown hcontext hhas
        -- What is left to do once the escape has been written.
        have hrest (next : Interval) (hnext : Settled next) :=
          @ih fuel after next _ place' up' _ hmissed hmissSound (by omega) (by omega) hnext
        simp only [Predictor.slots_congr hsame, Predictor.created_congr hsame] at hrest
        have hcontinue (encoder : Encoder) : (do
            let contexts ← ((({ contexts with coder := coder } : Contexts).store (owner.map place)
              symbol).escape (place (history.take (length + 1)))).countSubcontext
                (place (history.take (length + 1))) 0
            let entry ← contexts.coder.context (place (history.take (length + 1)))
            encodeSubcontexts limit value fuel contexts encoder entry.parent (some symbol) >>=
              encodeRoot limit value) =
            (encodeSubcontexts limit value fuel after encoder (place' (history.take length))
              ((some (value :: history.take (length + 1))).map place') >>= encodeRoot limit value) := by
          rw [bind_of_ok hcount, bind_of_ok hlast, hparent, hsymbol]
        by_cases hescapable : 0 < (predictor (history.take (length + 1))).escapes ∧
            (predictor (history.take (length + 1))).escapes <
              (predictor (history.take (length + 1))).total
        · obtain ⟨bytes, next, hsettle, hnext, hwrite⟩ := Encoder.encode_eq limit hsettled
            (hsubcontext.escapeSlots_fit (predictor (history.take (length + 1))).escapeSlot
              (by rw [Statistics.escapeSlots, if_pos hescapable, List.mem_singleton]))
          obtain ⟨tail, last', contexts', place'', up'', hemits, hwriteRest, hready, hsize⟩ :=
            hrest next hnext
          refine ⟨bytes ++ tail, last', contexts', place'', up'', ?_, fun encoder hinterval hout => ?_,
            hready, ?_⟩
          · rw [Statistics.escapeSlots, if_pos hescapable]
            exact (Emits.single hsettle).append hemits
          · simp only [hencode, except_ok_bind, hentry, lt_irrefl, if_false, hescapes, htotal,
              if_pos hescapable, bind_assoc]
            exact Encoder.bind_emit (hwrite encoder hinterval hout) fun behind hbehind hfits =>
              (hcontinue behind).trans (hwriteRest behind hbehind hfits)
          · rw [hsize, hlength]
            omega
        · obtain ⟨tail, last', contexts', place'', up'', hemits, hwriteRest, hready, hsize⟩ :=
            hrest interval hsettled
          refine ⟨tail, last', contexts', place'', up'', ?_, fun encoder hinterval hout => ?_,
            hready, ?_⟩
          · rw [Statistics.escapeSlots, if_neg hescapable]
            exact hemits
          · simp only [hencode, except_ok_bind, hentry, lt_irrefl, if_false, hescapes, htotal,
              if_neg hescapable, bind_assoc]
            exact (hcontinue encoder).trans (hwriteRest encoder hinterval hout)
          · rw [hsize, hlength]
            omega

end Byte

theorem compressByte_writes {limit order value : Nat} {contexts : Contexts} {interval : Interval}
    {prediction : Prediction} (htable : Table contexts order prediction) (hvalue : value < 256)
    (hsettled : Settled interval) :
    ∃ bytes after contexts' order', Emits interval (prediction.slots value) bytes after ∧
      Table contexts' order' (prediction.next value) ∧
      ∀ encoder : Encoder, encoder.interval = interval → encoder.out.length ≤ limit →
        compressByte limit ⟨contexts, order, encoder⟩ value =
          (encoder.emit limit bytes after).map fun encoder => ⟨contexts', order', encoder⟩ := by
  obtain ⟨place, up, hready⟩ := htable.ready
  have hlength := htable.length
  have hshort := htable.short
  have hroom := htable.room
  have hsymbols := htable.symbols
  have horder : ENET_SUBCONTEXT_ORDER + symbolLimit - ENET_SUBCONTEXT_ORDER ≤ symbolLimit := by decide
  obtain ⟨bytes, after, contexts', place', up', hemits, hwrite, hready', hsize⟩ :=
    @encode_writes limit symbolLimit value prediction.history.length contexts interval _ _ _ _ _
      (hready.pending value) htable.sound hvalue (by rw [hlength]; exact hshort.trans_lt (by decide))
      (by omega) hsettled
  have hlearnt := htable.sound.learn hvalue le_rfl hready.known_take
  obtain ⟨last, order', hinput, hnext⟩ := nextInput_table hready' hlearnt (hlength ▸ hshort)
    (hsize.trans (congrArg (· + _) hsymbols))
  refine ⟨bytes, after, last, order', hemits, hnext, fun encoder hinterval hout => ?_⟩
  have hbyte : (encodeSubcontexts limit value symbolLimit contexts encoder
      (place (prediction.history.take prediction.history.length)) none >>= encodeRoot limit value) =
      (encoder.emit limit bytes after).map fun encoder => (contexts', encoder) :=
    hwrite encoder hinterval hout
  rw [compressByte_eq, hready.predicted_take, ← hlength, hbyte]
  cases encoder.emit limit bytes after with
  | error stop => rfl
  | ok encoder => exact bind_of_ok hinput _

/-! ## All bytes -/

theorem compressBytes_writes {limit order : Nat} {contexts : Contexts} {interval : Interval}
    {prediction : Prediction} (htable : Table contexts order prediction) (bytes : Bytes)
    (hsettled : Settled interval) :
    ∃ out after contexts' order',
      Emits interval (prediction.shares (bytes.map UInt8.toNat)) out after ∧ Settled after ∧
      (∀ slot ∈ prediction.shares (bytes.map UInt8.toNat), slot.Fits) ∧
      Table contexts' order' (prediction.behind (bytes.map UInt8.toNat)) ∧
      ∀ encoder : Encoder, encoder.interval = interval → encoder.out.length ≤ limit →
        compressBytes limit ⟨contexts, order, encoder⟩ bytes =
          (encoder.emit limit out after).map fun encoder => ⟨contexts', order', encoder⟩ := by
  induction bytes generalizing contexts order interval prediction with
  | nil =>
      refine ⟨[], interval, contexts, order, .nil interval, hsettled, fun _ hslot => absurd hslot
        List.not_mem_nil, htable, ?_⟩
      rintro encoder rfl hout
      rw [Encoder.emit_nil hout]
      rfl
  | cons byte bytes ih =>
      obtain ⟨out, next, contexts', order', hemits, htable', hwrite⟩ :=
        @compressByte_writes limit _ byte.toNat _ _ _ htable byte.toNat_lt hsettled
      have hfits : ∀ slot ∈ prediction.slots byte.toNat, slot.Fits :=
        htable.sound.slots_fit byte.toNat_lt le_rfl
      obtain ⟨rest, last, contexts'', order'', hrest, hlast, hfits', htable'', hwriteRest⟩ :=
        ih htable' (hemits.settled hsettled hfits)
      refine ⟨out ++ rest, last, contexts'', order'', hemits.append hrest, hlast,
        List.forall_mem_append.mpr ⟨hfits, hfits'⟩, htable'', ?_⟩
      intro encoder hinterval hout
      rw [compressBytes, List.foldlM_cons, hwrite encoder hinterval hout]
      rw [Encoder.emit, ← Encoder.emit_emit out rest next last, Encoder.emit]
      by_cases hfits : encoder.out.length + out.length ≤ limit
      · rw [if_pos hfits]
        refine hwriteRest _ rfl ?_
        rw [List.length_append]
        exact hfits
      · rw [if_neg hfits]
        rfl

/-- The buffers are one text, if none behind the first is empty. -/
theorem compressBuffers_eq {limit : Nat} {buffers : List Bytes} (hbuffers : ∀ buffer ∈ buffers, buffer ≠ [])
    (compressor : Compressor) :
    compressBuffers limit compressor buffers = compressBytes limit compressor buffers.flatten := by
  induction buffers generalizing compressor with
  | nil => rfl
  | cons buffer buffers ih =>
      rw [List.forall_mem_cons] at hbuffers
      cases buffer with
      | nil => exact absurd rfl hbuffers.1
      | cons byte buffer =>
          rw [compressBuffers, List.flatten_cons, compressBytes, compressBytes, List.foldlM_append]
          · congr 1
            exact funext fun compressor => ih hbuffers.2 compressor
          · exact fun hnil => absurd hnil (List.cons_ne_nil _ _)

/-- The stream of all shares of a text. -/
def compressed (text : Bytes) : Bytes :=
  stream ⟨0, 2 ^ 32 - 1⟩ (Prediction.start.shares (text.map UInt8.toNat))

theorem start_settled : Settled ⟨0, 2 ^ 32 - 1⟩ :=
  ⟨⟨by decide, by decide, fun hend => absurd hend (by decide)⟩, by decide⟩

theorem compressInto_eq {first : Bytes} {buffers : List Bytes} {inLimit : Nat} (outLimit : Nat)
    (hbuffers : ∀ buffer ∈ buffers, buffer ≠ []) (hlimit : inLimit ≠ 0) :
    compressInto (first :: buffers) inLimit outLimit =
      if (compressed (first ++ buffers.flatten)).length ≤ outLimit then
        .ok (compressed (first ++ buffers.flatten))
      else .error .zero := by
  obtain ⟨out, after, contexts, order, hemits, hafter, -, -, hwrite⟩ :=
    @compressBytes_writes outLimit _ _ _ _ start_table (first ++ buffers.flatten) start_settled
  have hcompressed : compressed (first ++ buffers.flatten) = out ++ RangeCoder.flush 4 after.low := by
    have hstream := hemits.stream_append []
    rw [List.append_nil] at hstream
    exact hstream
  have hinto : compressInto (first :: buffers) inLimit outLimit = (do
      let compressor ← compressBytes outLimit ⟨⟨rootCoder, 0⟩, 0, {}⟩ (first ++ buffers.flatten)
      (compressor.encoder.flush outLimit 5).map fun encoder => encoder.out) := by
    rw [compressInto, if_neg hlimit, bind_of_ok contextCreate_root]
    simp only [compressBuffers_eq hbuffers, compressBytes, List.foldlM_append, bind_assoc]
    rfl
  rw [hinto, hwrite {} rfl (Nat.zero_le _), hcompressed, Encoder.emit,
    List.length_append]
  simp only [List.length_nil, List.nil_append, Nat.zero_add]
  by_cases hfits : out.length ≤ outLimit
  · have hflush := @Encoder.flush_eq outLimit ⟨after.low, after.range, out⟩ 4 (one_dvd _) le_rfl
      hafter.valid.low_lt hfits
    rw [if_pos hfits]
    exact hflush
  · rw [if_neg hfits, if_neg (by omega)]
    rfl

/-- A buffer that is empty is not passed over. -/
theorem compressBuffers_ok {limit : Nat} {compressor result : Compressor} {buffers : List Bytes}
    (hcompress : compressBuffers limit compressor buffers = .ok result) :
    ∀ buffer ∈ buffers, buffer ≠ [] := by
  induction buffers generalizing compressor with
  | nil => exact fun _ hbuffer => absurd hbuffer List.not_mem_nil
  | cons buffer buffers ih =>
      cases buffer with
      | nil => cases hcompress
      | cons byte buffer =>
          obtain ⟨next, -, hrest⟩ := except_bind_eq_ok hcompress
          exact List.forall_mem_cons.mpr ⟨List.cons_ne_nil _ _, ih hrest⟩

/-- The compressor returns the stream of its input, or zero if that is too long. -/
theorem enetRangeCoderCompress_eq {first : Bytes} {buffers : List Bytes} {inLimit : Nat} (outLimit : Nat)
    (hbuffers : ∀ buffer ∈ buffers, buffer ≠ []) (hlimit : inLimit ≠ 0) :
    enetRangeCoderCompress (first :: buffers) inLimit outLimit =
      .ok (if (compressed (first ++ buffers.flatten)).length ≤ outLimit then
        compressed (first ++ buffers.flatten) else []) := by
  rw [enetRangeCoderCompress, compressInto_eq outLimit hbuffers hlimit]
  split <;> rfl

/-- Two buffers are one stream of four bytes, and nothing if there is room for three. -/
theorem enetRangeCoderCompress_eq_ab :
    enetRangeCoderCompress [[0x61], [0x62]] 2 4 = .ok [98, 2, 107, 150] ∧
      enetRangeCoderCompress [[0x61], [0x62]] 2 3 = .ok [] := by
  have hstream : compressed ([0x61] ++ [[0x62]].flatten) = [98, 2, 107, 150] := by decide +kernel
  rw [enetRangeCoderCompress_eq 4 (by decide) (by decide),
    enetRangeCoderCompress_eq 3 (by decide) (by decide), hstream]
  exact ⟨rfl, rfl⟩

end SrmotionProxy.ENet.Compress
