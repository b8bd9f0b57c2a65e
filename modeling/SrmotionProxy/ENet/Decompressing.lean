/-
# What the decompressor reads

A reader that follows the stream of a text finds each byte in the context that has it, and
lets the longer contexts learn it afterwards. It ends with the table of the writer, with other
symbols perhaps, and goes on.
-/

import SrmotionProxy.ENet.Compressing

namespace SrmotionProxy.ENet.Compress

open SrmotionProxy.Lib
open SrmotionProxy.Lib.RangeCoder (Interval Slot Settled Reader stream)

/-! ## One byte -/

/-- The lines of `decompressByte` behind the loop over the subcontexts. -/
def decodeRest (reached : Option Found × Contexts × Decoder) :
    Except Stop (Option Found × Contexts × Decoder) :=
  let (found, contexts, decoder) := reached
  match found with
  | some symbol => .ok (some symbol, contexts, decoder)
  | none => decodeRoot contexts decoder

section Byte

variable {fuel value length : Nat} {contexts : Contexts} {decoder : Decoder}
  {predictor : Predictor} {place : List Nat → Nat} {up : Option (List Nat) → Nat}
  {history : List Nat} {owner : Option (List Nat)} {rest : List Slot}

/-- Reading a byte of a context does what counting it does. -/
theorem Holds.contextDecode {path : List Nat} {code update minimum : Nat} {create : Bool}
    (hholds : Holds contexts predictor place up) (hknown : predictor.Known path)
    (hsound : (predictor path).Sound minimum) (hvalue : value < 256)
    (hpart : (predictor path).tree.InPart minimum 0 value code)
    (hmode : (predictor path).tree.Has value ∨ create = true ∧ minimum = 1) :
    Compress.contextDecode contexts.coder (place path) code update minimum create =
      (Compress.contextEncode contexts.coder (place path) value update minimum).map fun encoded =>
        encoded.decoded value := by
  obtain ⟨distance, hcontext, hlinked⟩ := hholds.entries path hknown
  have htotal := hsound.total
  have hsmall := hsound.small
  simp only [ENET_RANGE_CODER_BOTTOM] at hsmall
  refine contextDecode_eq hcontext hlinked (fun one two hone htwo hsame => ?_) hsound.ordered hvalue
    hpart hmode (hsound.counts.mono (by omega)) (by omega)
  exact (List.cons.inj (hholds.apart _ _ ⟨hknown, hone⟩ ⟨hknown, htwo⟩ hsame)).1

/-- The context that has the byte, or the root, counts it. -/
theorem Pending.read {context : List Nat} {code minimum delta top : Nat} {create : Bool}
    (hpending : Pending contexts predictor place up history value length owner)
    (hempty : ∀ path, ¬ predictor.Known path → predictor path = {})
    (hcontext : predictor.Known context)
    (hmode : (predictor context).tree.Has value ∨ context = [] ∧ create = true ∧ minimum = 1)
    (hsound : (predictor context).Sound minimum) (hvalue : value < 256) (hminimum : minimum ≤ 1)
    (hdelta : delta ≤ 2 + minimum) (hroom : contexts.coder.symbols.length < symbolLimit)
    (hpart : (predictor context).tree.InPart minimum 0 value code)
    (hcounted : (((predictor context).add value delta).count
      (minimum + (predictor context).tree.count value) delta top minimum).Sound minimum) :
    ∃ coder symbol after place' up',
      contextDecode contexts.coder (place context) code delta minimum create =
        .ok ⟨symbol, value, value * minimum + (predictor context).tree.before value,
          minimum + (predictor context).tree.count value, coder⟩ ∧
      ({ contexts with coder := coder } : Contexts).count (place context)
        (minimum + (predictor context).tree.count value) delta top minimum = .ok after ∧
      Pending after (Function.update predictor context (((predictor context).add value delta).count
        (minimum + (predictor context).tree.count value) delta top minimum)) place' up' history value
        length owner ∧
      symbol = place' (value :: context) ∧ symbol < 2 ^ 16 ∧
      (∀ path, predictor.Known path → place' path = place path) ∧
      after.predicted = contexts.predicted ∧
      after.coder.symbols.length = contexts.coder.symbols.length +
        (if (predictor context).tree.Has value then 0 else 1) := by
  obtain ⟨coder, place', up', hencode, hmet, hplaces, hpredicted, -, hsymbol, hlength⟩ :=
    hpending.meet_symbol hempty hcontext (hmode.imp_right fun hroot => hroot.1) hsound hvalue hminimum
      hdelta hroom
  obtain ⟨after, hcount, hafter, hlength'⟩ := Holds.meet_count hempty hcontext hsound hvalue hminimum
    hdelta hcounted hmet.holds (hplaces _ hcontext)
  refine ⟨coder, place' (value :: context), after, place', up', ?_, hcount,
    hmet.of_holds hafter fun path => Predictor.known_update_update fun _ => Statistics.tree_count_has,
    rfl, hsymbol, hplaces, ?_, hlength'.trans hlength⟩
  · rw [hpending.holds.contextDecode hcontext hsound hvalue hpart
      (hmode.imp_right fun hroot => hroot.2), hencode]
    rfl
  · rw [hafter.predicted, hpredicted, hpending.holds.predicted]

/-- A byte is read: its symbol, and the context that has it has counted it. -/
def ReadsByte (contexts : Contexts) (predictor : Predictor) (place : List Nat → Nat)
    (history context : List Nat) (value : Nat) (rest : List Slot)
    (read : Except Stop (Option Found × Contexts × Decoder)) : Prop :=
  ∃ symbol after decoder place' up',
    read = .ok (some ⟨place context, symbol, value⟩, after, decoder) ∧
    Pending after (predictor.found context value) place' up' history value history.length none ∧
    symbol = place' (value :: context) ∧ (∀ path, predictor.Known path → place' path = place path) ∧
    symbol < 2 ^ 16 ∧ after.predicted = contexts.predicted ∧ decoder.reader.Follows rest ∧
    after.coder.symbols.length = contexts.coder.symbols.length +
      (if (predictor context).tree.Has value then 0 else 1)

theorem decodeRoot_reads (hready : Ready contexts predictor place up history)
    (hsound : predictor.Sound) (hvalue : value < 256)
    (hroom : contexts.coder.symbols.length < symbolLimit)
    (hfollows : decoder.reader.Follows (predictor.slots history value 0 ++ rest))
    (hfits : ∀ slot ∈ predictor.slots history value 0 ++ rest, slot.Fits) :
    ReadsByte contexts predictor place history [] value rest (decodeRoot contexts decoder) := by
  obtain ⟨code, divided, after, hread, hlow, hhigh, hdecode, hnext⟩ :=
    Decoder.read_decode hfollows hfits
  obtain ⟨entry, hentry, hescapes, htotal, -⟩ := hready.holds.entry (show predictor.Known [] from trivial)
  rw [hready.holds.root] at hentry
  simp only [Statistics.rootSlot] at hlow hhigh hread hdecode
  obtain ⟨coder, symbol, last, place', up', hfound, hcount, hpending, hsymbol, hsmall, hplaces, hpredicted,
    hlength⟩ := @Pending.read _ _ _ _ _ _ _ _ [] (code - (predictor []).escapes) ENET_CONTEXT_SYMBOL_MINIMUM
      ENET_CONTEXT_SYMBOL_DELTA
      (0xFF - 2 * ENET_CONTEXT_SYMBOL_DELTA + ENET_CONTEXT_SYMBOL_MINIMUM) true
      (hready.pending value) hsound.empty trivial (.inr ⟨rfl, rfl, rfl⟩) hsound.root.toSound hvalue le_rfl
      le_rfl hroom (by rw [FrequencyTree.InPart]; omega)
      (hsound.root.meetRoot hvalue).toSound
  rw [hready.holds.root] at hfound hcount
  refine ⟨symbol, last, after, place', up', ?_, ?_, hsymbol, hplaces, hsmall, hpredicted, hnext, hlength⟩
  · rw [decodeRoot, bind_of_ok hentry, htotal, bind_of_ok hread]
    simp only
    rw [if_neg (by omega), hescapes, bind_of_ok hfound, hready.holds.root]
    simp only
    rw [bind_of_ok hdecode]
    exact bind_of_ok hcount _
  · rw [Predictor.found, if_pos rfl]
    exact hpending

/-- The loop escapes until a context has the byte. -/
theorem decode_reads (hready : Ready contexts predictor place up history) (hsound : predictor.Sound)
    (hvalue : value < 256) (hroom : contexts.coder.symbols.length < symbolLimit)
    (hlength : length ≤ history.length) (hfuel : length < fuel)
    (hfollows : decoder.reader.Follows (predictor.slots history value length ++ rest))
    (hfits : ∀ slot ∈ predictor.slots history value length ++ rest, slot.Fits) :
    ReadsByte contexts predictor place history
      (history.take (predictor.bottom history value length)) value rest
      (decodeSubcontexts fuel contexts decoder (place (history.take length)) >>= decodeRest) := by
  induction length generalizing decoder fuel with
  | zero =>
      obtain ⟨fuel, rfl⟩ := Nat.exists_eq_add_of_lt hfuel
      rw [Nat.zero_add, List.take_zero, hready.holds.root, decodeSubcontexts, if_pos rfl,
        except_ok_bind]
      exact decodeRoot_reads hready hsound hvalue hroom hfollows hfits
  | succ length ih =>
      obtain ⟨fuel, rfl⟩ : ∃ rest, fuel = rest + 1 := ⟨fuel - 1, by omega⟩
      have hcontext := Predictor.take_succ_ne_nil hlength
      have hknown := hready.known_take (length + 1)
      have hsubcontext := hsound.subcontexts _ hcontext
      have hplace : place (history.take (length + 1)) ≠ 0 := fun hzero =>
        hcontext (hready.holds.apart _ _ hknown trivial (hzero.trans hready.holds.root.symm))
      obtain ⟨entry, hentry, hescapes, htotal, hparent⟩ := hready.holds.entry hknown
      rw [(hready.pending value).chained_take (Nat.le_of_succ_le hlength) hlength] at hparent
      rw [Predictor.slots] at hfollows hfits
      rw [Predictor.bottom]
      simp only [decodeSubcontexts, if_neg hplace, hentry, except_ok_bind, hescapes, htotal]
      by_cases hhas : (predictor (history.take (length + 1))).tree.Has value
      · have hescapable := hsubcontext.escapes_lt (FrequencyTree.ne_leaf_of_has hhas)
        simp only [if_pos hhas, List.singleton_append] at hfollows hfits
        rw [if_pos hhas, if_neg (by omega)]
        obtain ⟨code, divided, after, hread, hlow, hhigh, hdecode, hnext⟩ :=
          Decoder.read_decode hfollows hfits
        simp only [Statistics.slot] at hlow hhigh hread hdecode
        obtain ⟨coder, symbol, last, place', up', hfound, hcount, hpending, hsymbol, hsmall, hplaces,
          hpredicted, hsize⟩ := @Pending.read _ _ _ _ _ _ _ _ _ (code - (predictor (history.take (length + 1))).escapes)
            0 ENET_SUBCONTEXT_SYMBOL_DELTA (0xFF - 2 * ENET_SUBCONTEXT_SYMBOL_DELTA) false
            (hready.pending value) hsound.empty hknown (.inl hhas) hsubcontext.toSound hvalue
            (Nat.zero_le _) le_rfl hroom (by rw [FrequencyTree.InPart]; omega)
            (by rw [Nat.zero_add]; exact (hsubcontext.meet hvalue hhas).toSound)
        rw [Nat.mul_zero, Nat.zero_add, Nat.zero_add] at hfound
        rw [Nat.zero_add] at hcount hpending
        refine ⟨symbol, last, after, place', up', ?_, ?_, hsymbol, hplaces, hsmall, hpredicted, hnext, hsize⟩
        · simp only [hread, except_ok_bind]
          rw [if_neg (by omega)]
          simp only [hfound, except_ok_bind, hdecode]
          rw [show Contexts.countSubcontext _ _ _ = _ from hcount]
          rfl
        · rw [Predictor.found, if_neg hcontext]
          exact hpending
      · simp only [if_neg hhas, List.append_assoc] at hfollows hfits
        rw [if_neg hhas]
        by_cases hescapable : 0 < (predictor (history.take (length + 1))).escapes ∧
            (predictor (history.take (length + 1))).escapes <
              (predictor (history.take (length + 1))).total
        · simp only [Statistics.escapeSlots, if_pos hescapable, List.singleton_append] at hfollows hfits
          obtain ⟨code, divided, after, hread, hlow, hhigh, hdecode, hnext⟩ :=
            Decoder.read_decode hfollows hfits
          simp only [Statistics.escapeSlot, Nat.zero_add] at hlow hhigh hread hdecode
          rw [List.forall_mem_cons] at hfits
          rw [if_neg (by omega)]
          simp only [hread, except_ok_bind, if_pos hhigh, hdecode, hparent]
          exact ih (Nat.le_of_succ_le hlength) (by omega) hnext hfits.2
        · simp only [Statistics.escapeSlots, if_neg hescapable, List.nil_append] at hfollows hfits
          rw [if_pos (by omega), hparent]
          exact ih (Nat.le_of_succ_le hlength) (by omega) hfollows hfits

/-- The contexts that escaped learn the byte, from the longest one on. -/
theorem patch_learns {bottom : Nat}
    (hpending : Pending contexts predictor place up history value length owner)
    (hsound : predictor.Sound) (hvalue : value < 256) (hbottom : bottom ≤ length)
    (hroom : contexts.coder.symbols.length + (length - bottom) ≤ symbolLimit)
    (habsent : ∀ longer, bottom < longer → longer ≤ length →
      ¬ (predictor (history.take longer)).tree.Has value)
    (hfuel : length - bottom < fuel) :
    ∃ after place' up' owner',
      patchContexts value (place (history.take bottom)) fuel contexts (place (history.take length))
        (owner.map place) = .ok (after, owner'.map place') ∧
      Pending after (Predictor.patch history value bottom length predictor) place' up' history value
        bottom owner' ∧
      (∀ path, predictor.Known path →
        (Predictor.patch history value bottom length predictor).Known path ∧ place' path = place path) ∧
      after.coder.symbols.length = contexts.coder.symbols.length + (length - bottom) := by
  obtain ⟨fuel, rfl⟩ : ∃ rest, fuel = rest + 1 := ⟨fuel - 1, by omega⟩
  induction length generalizing contexts predictor place up owner fuel with
  | zero =>
      obtain rfl := Nat.le_zero.mp hbottom
      exact ⟨contexts, place, up, owner, if_pos rfl, hpending, fun _ hpath => ⟨hpath, rfl⟩, rfl⟩
  | succ length ih =>
      by_cases hend : bottom = length + 1
      · subst hend
        rw [Predictor.patch_self, Nat.sub_self]
        exact ⟨contexts, place, up, owner, if_pos rfl, hpending, fun _ hpath => ⟨hpath, rfl⟩, rfl⟩
      · have hbelow : bottom ≤ length := by omega
        have hinside := hpending.inside
        have hcontext := Predictor.take_succ_ne_nil hinside
        have hknown := hpending.known (length + 1)
        have hhas := habsent (length + 1) (Nat.lt_succ_of_le hbelow) le_rfl
        have hother : place (history.take (length + 1)) ≠ place (history.take bottom) := fun hsame =>
          Predictor.take_ne_take hbelow hinside
            (hpending.holds.apart _ _ hknown (hpending.known bottom) hsame).symm
        obtain ⟨coder, symbol, under, entry, after, last, place', up', hencode, -, -, -, hcount, hlast,
          hparent, hsymbol, hmissed, hplaces, hlength⟩ := hpending.miss_count hsound.empty
            (hsound.subcontexts _ hcontext) hvalue (by omega) hhas
        obtain ⟨fuel, rfl⟩ : ∃ rest, fuel = rest + 1 := ⟨fuel - 1, by omega⟩
        obtain ⟨contexts', place'', up'', owner', hpatch, hlearnt, hplaces', hsize⟩ := ih hmissed
          (hsound.miss hvalue hknown hcontext hhas) hbelow (by omega) (fun longer hlonger hlength => by
            rw [Function.update_of_ne (Predictor.take_ne_take hlength hinside)]
            exact habsent longer hlonger (Nat.le_succ_of_le hlength)) fuel (by omega)
        refine ⟨contexts', place'', up'', owner', ?_, ?_, fun path hpath => ?_, by omega⟩
        · rw [patchContexts, if_neg hother]
          simp only [hencode, except_ok_bind, if_true]
          rw [bind_of_ok hcount, bind_of_ok hlast, hparent, ← hplaces _ (hpending.known bottom), hsymbol]
          exact hpatch
        · rw [Predictor.patch, if_neg (by omega)]
          exact hlearnt
        · obtain ⟨hpath', hsame⟩ := hplaces' path
            (Predictor.known_of_update hknown (fun _ => Statistics.tree_miss_has) hsound.empty hpath)
          rw [Predictor.patch, if_neg (by omega)]
          exact ⟨hpath', hsame.trans (hplaces path hpath)⟩

end Byte

theorem decompressByte_eq (limit : Nat) (contexts : Contexts) (order : Nat) (decoder : Decoder)
    (out : Bytes) : decompressByte limit ⟨contexts, order, decoder, out⟩ = (do
      let (found, contexts, decoder) ←
        decodeSubcontexts symbolLimit contexts decoder contexts.predicted >>= decodeRest
      match found with
      | none => return none
      | some ⟨subcontext, bottom, value⟩ =>
          let (contexts, parent) ←
            patchContexts value subcontext symbolLimit contexts contexts.predicted none
          let contexts := contexts.store parent bottom
          if limit ≤ out.length then .error .zero
          else
            let (contexts, order) ← contexts.nextInput order
            return some ⟨contexts, order, decoder, out ++ [UInt8.ofNat value]⟩) := by
  rw [decompressByte]
  cases decodeSubcontexts symbolLimit contexts decoder contexts.predicted with
  | error stop => rfl
  | ok reached =>
      obtain ⟨found, contexts, decoder⟩ := reached
      cases found with
      | some symbol => rfl
      | none => rfl

section Table

variable {order value : Nat} {contexts : Contexts} {decoder : Decoder} {prediction : Prediction}
  {rest : List Slot} (htable : Table contexts order prediction)

include htable

theorem decompressByte_reads (limit : Nat) (out : Bytes) (hvalue : value < 256)
    (hfollows : decoder.reader.Follows (prediction.slots value ++ rest))
    (hfits : ∀ slot ∈ prediction.slots value ++ rest, slot.Fits) :
    ∃ contexts' order' decoder', decompressByte limit ⟨contexts, order, decoder, out⟩ =
        (if limit ≤ out.length then .error .zero
        else .ok (some ⟨contexts', order', decoder', out ++ [UInt8.ofNat value]⟩)) ∧
      Table contexts' order' (prediction.next value) ∧ decoder'.reader.Follows rest := by
  obtain ⟨place, up, hready⟩ := htable.ready
  have hlength := htable.length
  have hshort := htable.short
  have hroom := htable.room
  have hsymbols := htable.symbols
  have hlimit : ENET_SUBCONTEXT_ORDER + 1 < symbolLimit := by decide
  obtain ⟨symbol, found, decoder', place', up', hread, hpending, hsymbol, hplaces, hsmall, hpredicted,
    hnext, hsize⟩ := @decode_reads symbolLimit value prediction.history.length _ _ _ _ _ _ _ hready
      htable.sound hvalue (by omega) le_rfl (by omega) hfollows hfits
  set bottom := prediction.predictor.bottom prediction.history value prediction.history.length
    with hbottomEq
  have hbottom : bottom ≤ prediction.history.length := Predictor.bottom_le
  have hfound : (prediction.predictor.found (prediction.history.take bottom) value).Sound :=
    htable.sound.found hvalue hready.known_take
  have hcreated := @Predictor.created_eq prediction.predictor prediction.history value
    prediction.history.length
  rw [← hbottomEq] at hcreated
  obtain ⟨patched, place'', up'', owner, hpatch, hlearnt, hplaces', hsize'⟩ := @patch_learns symbolLimit
    value prediction.history.length _ _ _ _ _ _ bottom hpending hfound hvalue hbottom
    (by rw [hsize]; split <;> omega)
    (fun longer hlonger hinside => by
      rw [Predictor.found_of_ne]
      · exact Predictor.bottom_absent hlonger hinside
      · intro hsame
        have hlengths := congrArg List.length hsame
        rw [List.length_take, List.length_take] at hlengths
        omega)
    (by omega)
  obtain ⟨hknown, hsame⟩ := hplaces' _ (Predictor.known_found htable.sound.empty (hready.known_take bottom))
  rw [← hsymbol] at hsame
  have hclosed := hlearnt.close hknown (hsame ▸ hsmall)
  rw [hsame, ← Predictor.learn_eq_patch le_rfl] at hclosed
  obtain ⟨last, order', hinput, hlast⟩ := nextInput_table hclosed
    (htable.sound.learn hvalue le_rfl hready.known_take) (hlength ▸ hshort) rfl
  rw [Contexts.length_store, hsize', hsize, hsymbols, Nat.add_assoc, ← hcreated] at hlast
  refine ⟨last, order', decoder', ?_, hlast, hnext⟩
  rw [← hplaces (prediction.history.take bottom) (hready.known_take bottom)] at hread
  rw [decompressByte_eq, hready.predicted_take, hread, except_ok_bind]
  simp only
  have hpatch' : patchContexts value (place' (prediction.history.take bottom)) symbolLimit found
      found.predicted none = .ok (patched, owner.map place'') := by
    rw [hpredicted, hready.predicted_take, ← hplaces _ (hready.known_take _)]
    exact hpatch
  rw [bind_of_ok hpatch']
  simp only
  rw [← hlength, bind_of_ok hinput]
  rfl

omit htable in
/-- Behind the last byte, every context escapes. -/
theorem decodeSubcontexts_end {fuel length : Nat} {place : List Nat → Nat}
    {up : Option (List Nat) → Nat} {predictor : Predictor} {history : List Nat}
    (hready : Ready contexts predictor place up history) (hsound : predictor.Sound)
    (hlength : length ≤ history.length) (hfuel : length < fuel) (hfollows : decoder.reader.Follows []) :
    ∃ after, decodeSubcontexts fuel contexts decoder (place (history.take length)) =
      .ok (none, contexts, after) ∧ after.reader.Follows [] := by
  induction length generalizing decoder fuel with
  | zero =>
      obtain ⟨fuel, rfl⟩ := Nat.exists_eq_add_of_lt hfuel
      rw [Nat.zero_add, List.take_zero, hready.holds.root, decodeSubcontexts, if_pos rfl]
      exact ⟨decoder, rfl, hfollows⟩
  | succ length ih =>
      obtain ⟨fuel, rfl⟩ : ∃ rest, fuel = rest + 1 := ⟨fuel - 1, by omega⟩
      have hcontext := Predictor.take_succ_ne_nil hlength
      have hknown := hready.known_take (length + 1)
      have hsubcontext := hsound.subcontexts _ hcontext
      have hplace : place (history.take (length + 1)) ≠ 0 := fun hzero =>
        hcontext (hready.holds.apart _ _ hknown trivial (hzero.trans hready.holds.root.symm))
      obtain ⟨entry, hentry, hescapes, htotal, hparent⟩ := hready.holds.entry hknown
      rw [(hready.pending 0).chained_take (Nat.le_of_succ_le hlength) hlength] at hparent
      rw [decodeSubcontexts, if_neg hplace, bind_of_ok hentry, hescapes, htotal, hparent]
      by_cases hescapable : 0 < (predictor (history.take (length + 1))).escapes ∧
          (predictor (history.take (length + 1))).escapes <
            (predictor (history.take (length + 1))).total
      · obtain ⟨divided, after, hread, hdecode, hnext⟩ := Decoder.read_decode_end hfollows
          (hsubcontext.escapeSlots_fit (predictor (history.take (length + 1))).escapeSlot
            (by rw [Statistics.escapeSlots, if_pos hescapable, List.mem_singleton])) rfl
        simp only [Statistics.escapeSlot] at hread hdecode
        rw [if_neg (by omega), bind_of_ok hread]
        simp only
        rw [if_pos hescapable.1, bind_of_ok hdecode]
        exact ih (Nat.le_of_succ_le hlength) (by omega) hnext
      · rw [if_pos (by omega)]
        exact ih (Nat.le_of_succ_le hlength) (by omega) hfollows

theorem decompressByte_end (limit : Nat) (out : Bytes) (hfollows : decoder.reader.Follows []) :
    decompressByte limit ⟨contexts, order, decoder, out⟩ = .ok none := by
  obtain ⟨place, up, hready⟩ := htable.ready
  have hlength := htable.length
  have hshort := htable.short
  have hlimit : ENET_SUBCONTEXT_ORDER + 1 < symbolLimit := by decide
  obtain ⟨after, hloop, hafter⟩ := @decodeSubcontexts_end _ _ symbolLimit prediction.history.length _ _ _ _
    hready htable.sound le_rfl (by omega) hfollows
  obtain ⟨entry, hentry, hescapes, htotal, -⟩ :=
    hready.holds.entry (show prediction.predictor.Known [] from trivial)
  obtain ⟨divided, last, hread, hdecode, -⟩ :=
    Decoder.read_decode_end hafter htable.sound.root.escapeSlot_fits rfl
  simp only [Statistics.escapeSlot] at hread hdecode
  rw [hready.holds.root] at hentry
  have hpositive : 0 < (prediction.predictor []).escapes := by
    rw [htable.sound.root.escapes]
    decide
  rw [decompressByte_eq, hready.predicted_take, hloop, except_ok_bind]
  simp only [decodeRest, decodeRoot, hentry, except_ok_bind, htotal, hescapes, hread, if_pos hpositive,
    hdecode]
  rfl

end Table

/-! ## All bytes -/

/-- A reader that follows the stream of a text writes the text, if there is room for it. -/
theorem decompressLoop_reads {limit order fuel : Nat} {contexts : Contexts} {decoder : Decoder}
    {prediction : Prediction} {out : Bytes} (htable : Table contexts order prediction) (text : Bytes)
    (hfollows : decoder.reader.Follows (prediction.shares (text.map UInt8.toNat)))
    (hfits : ∀ slot ∈ prediction.shares (text.map UInt8.toNat), slot.Fits)
    (hout : out.length ≤ limit) (hfuel : limit < fuel + out.length) :
    decompressLoop limit fuel ⟨contexts, order, decoder, out⟩ =
      if out.length + text.length ≤ limit then .ok (out ++ text) else .error .zero := by
  induction text generalizing contexts order decoder prediction out fuel with
  | nil =>
      obtain ⟨fuel, rfl⟩ : ∃ rest, fuel = rest + 1 := ⟨fuel - 1, by omega⟩
      rw [decompressLoop, decompressByte_end htable limit out hfollows, List.length_nil, Nat.add_zero,
        if_pos hout, List.append_nil]
      rfl
  | cons byte text ih =>
      obtain ⟨fuel, rfl⟩ : ∃ rest, fuel = rest + 1 := ⟨fuel - 1, by omega⟩
      rw [List.map_cons, Prediction.shares] at hfollows hfits
      obtain ⟨contexts', order', decoder', hbyte, htable', hnext⟩ :=
        decompressByte_reads htable limit out byte.toNat_lt hfollows hfits
      rw [decompressLoop, hbyte, UInt8.ofNat_toNat, List.length_cons]
      by_cases hfull : limit ≤ out.length
      · rw [if_pos hfull, if_neg (by omega)]
        rfl
      · have hrest := @ih _ fuel contexts' decoder' _ (out ++ [byte]) htable' hnext
          (fun slot hslot => hfits slot (List.mem_append_right _ hslot))
          (by rw [List.length_append, List.length_singleton]; omega)
          (by rw [List.length_append, List.length_singleton]; omega)
        rw [List.append_assoc, List.length_append, List.length_singleton, Nat.add_assoc,
          Nat.add_comm 1] at hrest
        rw [if_neg hfull]
        exact hrest

theorem start_follows (text : Bytes) : (Decoder.seed (compressed text)).reader.Follows
    (Prediction.start.shares (text.map UInt8.toNat)) := by
  rw [Decoder.seed_eq]
  exact ⟨start_settled, rfl, rfl⟩

theorem shares_fit (text : Bytes) : ∀ slot ∈ Prediction.start.shares (text.map UInt8.toNat), slot.Fits := by
  obtain ⟨-, -, -, -, -, -, hfits, -, -⟩ := @compressBytes_writes 0 _ _ _ _ start_table text start_settled
  exact hfits

/-- The first byte of a text is not at the front of its interval, where the escape is. -/
theorem compressed_ne_nil {text : Bytes} (htext : text ≠ []) : compressed text ≠ [] := by
  intro hempty
  cases text with
  | nil => exact htext rfl
  | cons byte text =>
      have hfollows := start_follows (byte :: text)
      have hfits := shares_fit (byte :: text)
      rw [hempty, List.map_cons, Prediction.shares] at hfollows
      rw [List.map_cons, Prediction.shares] at hfits
      have hread := (hfollows.step hfits).1.1
      rw [Decoder.seed_eq, Reader.read, RangeCoder.window_nil, Nat.zero_sub, Nat.zero_div] at hread
      exact absurd hread (Nat.not_le.mpr (Nat.lt_of_lt_of_le Nat.one_pos (Nat.le_add_right _ _)))

theorem decompressFrom_compressed (text : Bytes) (limit : Nat) :
    returned (decompressFrom (compressed text) limit) =
      .ok (if text.length ≤ limit then text else []) := by
  by_cases htext : text = []
  · subst htext
    rfl
  · have hloop := @decompressLoop_reads limit _ (limit + 1) _ _ _ [] start_table text (start_follows text)
      (shares_fit text) (Nat.zero_le _) (Nat.lt_succ_self _)
    rw [decompressFrom, if_neg (compressed_ne_nil htext), bind_of_ok contextCreate_root]
    simp only
    rw [hloop, List.length_nil, Nat.zero_add, List.nil_append]
    split <;> rfl

/-- What the compressor has written, the decompressor turns back, whatever buffers the text was
in; with too little room it returns zero. -/
theorem decompress_compress {buffers : List Bytes} {inLimit outLimit : Nat} {out : Bytes} (limit : Nat)
    (hcompress : enetRangeCoderCompress buffers inLimit outLimit = .ok out) (hwritten : out ≠ []) :
    enetRangeCoderDecompress out limit =
      .ok (if buffers.flatten.length ≤ limit then buffers.flatten else []) := by
  have hinto : compressInto buffers inLimit outLimit = .ok out := by
    rw [enetRangeCoderCompress] at hcompress
    cases hresult : compressInto buffers inLimit outLimit with
    | ok result =>
        rw [hresult] at hcompress
        cases hcompress
        rfl
    | error stop =>
        rw [hresult] at hcompress
        cases stop with
        | zero => exact absurd (Except.ok.inj hcompress).symm hwritten
        | undefined => cases hcompress
  cases buffers with
  | nil => cases hinto
  | cons first buffers =>
      have hlimit : inLimit ≠ 0 := by
        rintro rfl
        cases hinto
      have hbuffers : ∀ buffer ∈ buffers, buffer ≠ [] := by
        rw [compressInto, if_neg hlimit, bind_of_ok contextCreate_root] at hinto
        obtain ⟨next, -, hrest⟩ := except_bind_eq_ok hinto
        obtain ⟨last, hlast, -⟩ := except_bind_eq_ok hrest
        exact compressBuffers_ok hlast
      rw [compressInto_eq outLimit hbuffers hlimit] at hinto
      split at hinto
      · cases hinto
        rw [enetRangeCoderDecompress, List.flatten_cons]
        exact decompressFrom_compressed _ limit
      · cases hinto

/-- Two buffers, and a third of the text comes from the subcontexts. -/
theorem decompress_compress_ababa :
    enetRangeCoderDecompress [0x62, 0x02, 0xcc, 0xa6, 0x70, 0x96] 8 =
      .ok [0x61, 0x62, 0x61, 0x62, 0x61] :=
  decompress_compress 8
    (show enetRangeCoderCompress [[0x61, 0x62], [0x61, 0x62, 0x61]] 5 16 =
      .ok [0x62, 0x02, 0xcc, 0xa6, 0x70, 0x96] by decide +kernel) (by decide)

end SrmotionProxy.ENet.Compress
