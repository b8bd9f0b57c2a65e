/-
# Chains of symbols

A byte is a symbol in each context that learns it. The `parent` of the symbol in one context
is the symbol in the next shorter one, so that `predicted` and its parents are the contexts of
the next byte. While a byte is learnt the last symbol of its chain, or `predicted` itself,
still waits for its parent.
-/

import SrmotionProxy.ENet.SymbolContexts

namespace SrmotionProxy.ENet.Compress

open SrmotionProxy.Lib

/-- The parent of a path's symbol is the symbol of the path without its first byte. -/
def Chained (predictor : Predictor) (place : List Nat → Nat) (up : Option (List Nat) → Nat)
    (path : List Nat) : Prop :=
  predictor.Known path.dropLast ∧ up (some path) = place path.dropLast

/-- The table between two bytes. -/
structure Ready (contexts : Contexts) (predictor : Predictor) (place : List Nat → Nat)
    (up : Option (List Nat) → Nat) (history : List Nat) : Prop where
  holds : Holds contexts predictor place up
  chained : ∀ path ≠ [], predictor.Known path → Chained predictor place up path
  known : predictor.Known history
  predicted : up none = place history

/-- The table while a byte is learnt: the contexts longer than `length` have it, and `owner`
waits for the symbol of the next one. -/
structure Pending (contexts : Contexts) (predictor : Predictor) (place : List Nat → Nat)
    (up : Option (List Nat) → Nat) (history : List Nat) (value length : Nat)
    (owner : Option (List Nat)) : Prop where
  holds : Holds contexts predictor place up
  chained : ∀ path ≠ [], predictor.Known path → some path ≠ owner → Chained predictor place up path
  known : ∀ length, predictor.Known (history.take length)
  inside : length ≤ history.length
  first : owner = none → length = history.length
  later : ∀ path, owner = some path → length < history.length ∧
    path = value :: history.take (length + 1) ∧ predictor.Known path ∧
      predictor.Known (value :: history) ∧ up none = place (value :: history)

section Chains

variable {contexts : Contexts} {predictor : Predictor} {place : List Nat → Nat}
  {up : Option (List Nat) → Nat} {history : List Nat} {value length update minimum : Nat}
  {owner : Option (List Nat)}

theorem dropLast_take_succ (hlength : length < history.length) :
    (history.take (length + 1)).dropLast = history.take length := by
  rw [List.dropLast_eq_take, List.length_take, List.take_take]
  congr 1
  omega

/-- A front part of a known path is known. -/
theorem known_take (hdrop : ∀ path ≠ [], predictor.Known path → predictor.Known path.dropLast)
    (hknown : predictor.Known history) (length : Nat) : predictor.Known (history.take length) := by
  induction history using List.reverseRecOn generalizing length with
  | nil =>
      rw [List.take_nil]
      trivial
  | append_singleton front byte ih =>
      have hfront := hdrop _ (by simp) hknown
      rw [List.dropLast_concat] at hfront
      by_cases hlength : length ≤ front.length
      · rw [List.take_append_of_le_length hlength]
        exact ih hfront length
      · rwa [List.take_of_length_le (by rw [List.length_append, List.length_singleton]; omega)]

theorem Ready.known_take (hready : Ready contexts predictor place up history) (length : Nat) :
    predictor.Known (history.take length) :=
  Compress.known_take (fun path hpath hknown => (hready.chained path hpath hknown).1) hready.known
    length

theorem Ready.predicted_take (hready : Ready contexts predictor place up history) :
    contexts.predicted = place (history.take history.length) := by
  rw [List.take_length, hready.holds.predicted, hready.predicted]

/-- A byte begins with the longest context. -/
theorem Ready.pending (hready : Ready contexts predictor place up history) (value : Nat) :
    Pending contexts predictor place up history value history.length none :=
  ⟨hready.holds, fun path hpath hknown _ => hready.chained path hpath hknown, hready.known_take,
    le_rfl, fun _ => rfl, fun _ howner => absurd howner (Option.some_ne_none _).symm⟩

/-- A context of the byte does not wait for a parent. -/
theorem Pending.chained_take (hpending : Pending contexts predictor place up history value length owner)
    {shorter : Nat} (hshorter : shorter ≤ length) (hinside : shorter < history.length) :
    up (some (history.take (shorter + 1))) = place (history.take shorter) := by
  have hchained := hpending.chained (history.take (shorter + 1)) (by
    rw [Ne, List.take_eq_nil_iff, ← List.length_eq_zero_iff]
    omega) (hpending.known _) fun howner => by
      obtain ⟨-, hpath, -⟩ := hpending.later _ howner.symm
      have hlengths := congrArg List.length hpath
      rw [List.length_cons, List.length_take, List.length_take] at hlengths
      omega
  rw [hchained.2, dropLast_take_succ (by omega)]

/-- Statistics that know the same paths. -/
theorem Pending.of_holds {after : Contexts} {predictor' : Predictor}
    (hpending : Pending contexts predictor place up history value length owner)
    (hholds : Holds after predictor' place up)
    (hsame : ∀ path, predictor'.Known path ↔ predictor.Known path) :
    Pending after predictor' place up history value length owner where
  holds := hholds
  chained path hpath hknown howner := by
    obtain ⟨hdrop, hup⟩ := hpending.chained path hpath ((hsame path).mp hknown) howner
    exact ⟨(hsame _).mpr hdrop, hup⟩
  known length := (hsame _).mpr (hpending.known length)
  inside := hpending.inside
  first := hpending.first
  later path howner := by
    obtain ⟨hlength, hpath, hknown, hwhole, hup⟩ := hpending.later path howner
    exact ⟨hlength, hpath, (hsame _).mpr hknown, (hsame _).mpr hwhole, hup⟩

theorem Ready.of_holds {after : Contexts} {predictor' : Predictor}
    (hready : Ready contexts predictor place up history) (hholds : Holds after predictor' place up)
    (hsame : ∀ path, predictor'.Known path ↔ predictor.Known path) :
    Ready after predictor' place up history where
  holds := hholds
  chained path hpath hknown := by
    obtain ⟨hdrop, hup⟩ := hready.chained path hpath ((hsame path).mp hknown)
    exact ⟨(hsame _).mpr hdrop, hup⟩
  known := (hsame _).mpr hready.known
  predicted := hready.predicted

theorem Pending.owner_dropLast
    (hpending : Pending contexts predictor place up history value length owner) {path : List Nat}
    (howner : owner = some path) : path.dropLast = value :: history.take length := by
  obtain ⟨hlength, rfl, -⟩ := hpending.later path howner
  rw [List.dropLast_cons_of_ne_nil, dropLast_take_succ hlength]
  rw [Ne, List.take_eq_nil_iff, ← List.length_eq_zero_iff]
  omega

/-- The waiting symbol gets its parent, and nothing waits any more. -/
theorem Pending.close (hpending : Pending contexts predictor place up history value length owner)
    (hknown : predictor.Known (value :: history.take length))
    (hsymbol : place (value :: history.take length) < 2 ^ 16) :
    Ready (contexts.store (owner.map place) (place (value :: history.take length))) predictor place
      (Function.update up owner (place (value :: history.take length))) (value :: history) := by
  have hholds := hpending.holds.store (fun path howner => (hpending.later path howner).2.2.1) hsymbol
  refine ⟨hholds, fun path hpath hpathKnown => ?_, ?_, ?_⟩
  · by_cases howner : some path = owner
    · rw [Chained, hpending.owner_dropLast howner.symm, howner, Function.update_self]
      exact ⟨hknown, rfl⟩
    · obtain ⟨hdrop, hup⟩ := hpending.chained path hpath hpathKnown howner
      exact ⟨hdrop, by rw [Function.update_of_ne howner, hup]⟩
  · cases owner with
    | none =>
        rwa [hpending.first rfl, List.take_length] at hknown
    | some path => exact (hpending.later path rfl).2.2.2.1
  · cases owner with
    | none => rw [Function.update_self, hpending.first rfl, List.take_length]
    | some path =>
        rw [Function.update_of_ne (Option.some_ne_none _).symm]
        exact (hpending.later path rfl).2.2.2.2

/-- Another symbol does not break a chain. -/
theorem Chained.extended {predictor' : Predictor} {new path : List Nat} {size : Nat}
    {place' : List Nat → Nat} {up' : Option (List Nat) → Nat}
    (hchained : Chained predictor place up path) (hknown : predictor.Known path)
    (hextended : Extended predictor new size place up place' up')
    (hmore : ∀ path, predictor.Known path → predictor'.Known path) :
    Chained predictor' place' up' path :=
  ⟨hmore _ hchained.1, by rw [hextended.ups path hknown, hchained.2, hextended.places _ hchained.1]⟩

section Counting

variable {context : List Nat}
  (hpending : Pending contexts predictor place up history value length owner)
  (hempty : ∀ path, ¬ predictor.Known path → predictor path = {})
  (hordered : (predictor context).tree.Ordered 0 256)
  (hroom : contexts.coder.symbols.length < symbolLimit)
  (hunder : value * minimum + (predictor context).tree.total + update < 2 ^ 16)
  (hcount : minimum + (predictor context).tree.count value < 2 ^ 16)
  (hupdate : (predictor context).tree.count value + update < 2 ^ 8)

include hpending hempty hordered hroom hunder hcount hupdate

/-- A context that has the byte counts it, and so does the root. -/
theorem Pending.meet (hcontext : predictor.Known context)
    (hhas : (predictor context).tree.Has value ∨ context = []) :
    ∃ coder place' up',
      contextEncode contexts.coder (place context) value update minimum =
        .ok ⟨place' (value :: context), value * minimum + (predictor context).tree.before value,
          minimum + (predictor context).tree.count value, coder⟩ ∧
      Pending { contexts with coder := coder }
        (Function.update predictor context ((predictor context).add value update)) place' up'
        history value length owner ∧
      (∀ path, predictor.Known path → place' path = place path) ∧ up' none = up none ∧
      coder.symbols.length = contexts.coder.symbols.length +
        (if (predictor context).tree.Has value then 0 else 1) := by
  have hknown (path : List Nat) : Predictor.Known
      (Function.update predictor context ((predictor context).add value update)) path ↔
        predictor.Known path ∨ path = value :: context :=
    Predictor.known_update_iff hcontext (fun _ => FrequencyTree.has_add_iff) hempty
  have hmore (path : List Nat) (hpath : predictor.Known path) := (hknown path).mpr (.inl hpath)
  obtain ⟨coder, place', up', hencode, hholds, hextended, hlength⟩ := hpending.holds.contextEncode
    hempty hcontext hordered hroom hunder hcount hupdate
  refine ⟨coder, place', up', hencode, ⟨hholds, fun path hpath hpathKnown howner => ?_,
    fun length => hmore _ (hpending.known length), hpending.inside, hpending.first,
    fun path howner => ?_⟩, hextended.places, hextended.predicted, hlength⟩
  · by_cases hold : predictor.Known path
    · exact (hpending.chained path hpath hold howner).extended hold hextended hmore
    · obtain rfl := ((hknown path).mp hpathKnown).resolve_left hold
      obtain rfl : context = [] := hhas.resolve_left fun hhas => hold ⟨hcontext, hhas⟩
      refine ⟨trivial, ?_⟩
      rw [(hextended.fresh hold).2]
      exact hholds.root.symm
  · obtain ⟨hinside, hpath, howned, hwhole, hup⟩ := hpending.later path howner
    refine ⟨hinside, hpath, hmore _ howned, hmore _ hwhole, ?_⟩
    rw [hextended.predicted, hup, hextended.places _ hwhole]

end Counting

/-- A subcontext that lacks the byte gets a symbol for it, which waits for the next one. -/
theorem Pending.miss
    (hpending : Pending contexts predictor place up history value (length + 1) owner)
    (hempty : ∀ path, ¬ predictor.Known path → predictor path = {})
    (hordered : (predictor (history.take (length + 1))).tree.Ordered 0 256)
    (hroom : contexts.coder.symbols.length < symbolLimit)
    (htotal : (predictor (history.take (length + 1))).tree.total + update < 2 ^ 16)
    (hupdate : update < 2 ^ 8)
    (habsent : ¬ (predictor (history.take (length + 1))).tree.Has value)
    (hnone : (predictor (history.take (length + 1))).tree.count value = 0) :
    ∃ coder place' up',
      contextEncode contexts.coder (place (history.take (length + 1))) value update 0 =
        .ok ⟨place' (value :: history.take (length + 1)),
          (predictor (history.take (length + 1))).tree.before value, 0, coder⟩ ∧
      Pending ({ contexts with coder := coder : Contexts }.store (owner.map place)
          (place' (value :: history.take (length + 1))))
        (Function.update predictor (history.take (length + 1))
          ((predictor (history.take (length + 1))).add value update)) place' up'
        history value length (some (value :: history.take (length + 1))) ∧
      (∀ path, predictor.Known path → place' path = place path) ∧
      coder.symbols.length = contexts.coder.symbols.length + 1 := by
  set context := history.take (length + 1) with hcontext
  have hcontextKnown : predictor.Known context := hpending.known _
  have hknown (path : List Nat) : Predictor.Known
      (Function.update predictor context ((predictor context).add value update)) path ↔
        predictor.Known path ∨ path = value :: context :=
    Predictor.known_update_iff hcontextKnown (fun _ => FrequencyTree.has_add_iff) hempty
  have hmore (path : List Nat) (hpath : predictor.Known path) := (hknown path).mpr (.inl hpath)
  obtain ⟨coder, place', up', hencode, hholds, hextended, hlength⟩ :=
    @Holds.contextEncode _ _ _ _ _ value update 0 hpending.holds hempty hcontextKnown hordered hroom
      (by omega) (by omega) (by omega)
  rw [Nat.mul_zero, Nat.zero_add, Nat.zero_add, hnone] at hencode
  rw [if_neg habsent] at hlength
  have hsymbol : place' (value :: context) < 2 ^ 16 := by
    rw [(hextended.fresh fun hnew => habsent hnew.2).1]
    exact hroom.trans (by decide)
  have howners : owner.map place = owner.map place' := by
    cases owner with
    | none => rfl
    | some path => rw [Option.map_some, Option.map_some,
        hextended.places _ (hpending.later path rfl).2.2.1]
  refine ⟨coder, place', Function.update up' owner (place' (value :: context)), hencode,
    ⟨?_, fun path hpath hpathKnown hnew => ?_, fun length => hmore _ (hpending.known length),
      Nat.le_of_succ_le hpending.inside, fun hnone => absurd hnone (Option.some_ne_none _),
      fun path hpath => ?_⟩, hextended.places, hlength⟩
  · rw [howners]
    exact hholds.store (fun path howner => hmore _ (hpending.later path howner).2.2.1) hsymbol
  · have hold : predictor.Known path := ((hknown path).mp hpathKnown).resolve_right fun hsame =>
      hnew (congrArg some hsame)
    by_cases howner : some path = owner
    · rw [Chained, hpending.owner_dropLast howner.symm, howner, Function.update_self]
      exact ⟨(hknown _).mpr (.inr rfl), rfl⟩
    · obtain ⟨hdrop, hup⟩ :=
        (hpending.chained path hpath hold howner).extended hold hextended hmore
      exact ⟨hdrop, by rw [Function.update_of_ne howner, hup]⟩
  · obtain rfl := Option.some.inj hpath
    refine ⟨hpending.inside, rfl, (hknown _).mpr (.inr rfl), ?_⟩
    cases owner with
    | none =>
        have hwhole : value :: history = value :: context := by
          rw [hcontext, hpending.first rfl, List.take_length]
        rw [Function.update_self, hwhole]
        exact ⟨(hknown _).mpr (.inr rfl), rfl⟩
    | some path =>
        obtain ⟨-, -, -, hwhole, hup⟩ := hpending.later path rfl
        refine ⟨hmore _ hwhole, ?_⟩
        rw [Function.update_of_ne (Option.some_ne_none _).symm, hextended.predicted, hup,
          hextended.places _ hwhole]

/-! ## One context learns -/

@[simp]
theorem Contexts.length_store (parent : Option Nat) (symbol : Nat) :
    (contexts.store parent symbol).coder.symbols.length = contexts.coder.symbols.length := by
  cases parent with
  | none => rfl
  | some owner => exact ENetRangeCoder.length_modifyContext _

section Learning

variable {delta top : Nat}

/-- The statistics of a known context are in the table. -/
theorem Holds.entry {path : List Nat} (hholds : Holds contexts predictor place up)
    (hknown : predictor.Known path) : ∃ entry, contexts.coder.context (place path) = .ok entry ∧
      entry.escapes = (predictor path).escapes ∧ entry.total = (predictor path).total ∧
        entry.parent = up (some path) := by
  obtain ⟨distance, hcontext, -⟩ := hholds.entries path hknown
  exact ⟨_, hcontext, rfl, rfl, rfl⟩

section Meet

variable {context : List Nat}
  (hpending : Pending contexts predictor place up history value length owner)
  (hempty : ∀ path, ¬ predictor.Known path → predictor path = {})
  (hcontext : predictor.Known context)
  (hhas : (predictor context).tree.Has value ∨ context = [])
  (hsound : (predictor context).Sound minimum) (hvalue : value < 256) (hminimum : minimum ≤ 1)
  (hdelta : delta ≤ 2 + minimum) (hroom : contexts.coder.symbols.length < symbolLimit)
  (hcounted : (((predictor context).add value delta).count
    (minimum + (predictor context).tree.count value) delta top minimum).Sound minimum)

include hpending hempty hcontext hhas hsound hvalue hminimum hdelta hroom

/-- The byte has got a symbol in this context, and is not yet counted in its total. -/
theorem Pending.meet_symbol : ∃ coder place' up',
    contextEncode contexts.coder (place context) value delta minimum =
      .ok ⟨place' (value :: context), value * minimum + (predictor context).tree.before value,
        minimum + (predictor context).tree.count value, coder⟩ ∧
    Pending { contexts with coder := coder }
      (Function.update predictor context ((predictor context).add value delta)) place' up'
      history value length owner ∧
    (∀ path, predictor.Known path → place' path = place path) ∧ up' none = up none ∧
    Predictor.Known (Function.update predictor context ((predictor context).add value delta))
      (value :: context) ∧
    place' (value :: context) < 2 ^ 16 ∧
    coder.symbols.length = contexts.coder.symbols.length +
      (if (predictor context).tree.Has value then 0 else 1) := by
  have hmost : (predictor context).tree.count value ≤ 253 - minimum := hsound.counts.count_le
  have htotal := hsound.total
  have hsmall := hsound.small
  have hvalues : value * minimum ≤ 255 * minimum := Nat.mul_le_mul_right _ (by omega)
  simp only [ENET_RANGE_CODER_BOTTOM] at hsmall
  obtain ⟨coder, place', up', hencode, hmet, hplaces, hpredicted, hlength⟩ :=
    @Pending.meet _ _ _ _ _ _ _ delta minimum _ context hpending hempty hsound.ordered hroom (by omega)
      (by omega) (by omega) hcontext hhas
  have hknown : Predictor.Known
      (Function.update predictor context ((predictor context).add value delta)) (value :: context) :=
    (@Predictor.known_update_iff _ context _ value _ hcontext (fun _ => FrequencyTree.has_add_iff)
      hempty).mpr (.inr rfl)
  refine ⟨coder, place', up', hencode, hmet, hplaces, hpredicted, hknown, ?_, hlength⟩
  have hsymbol := hmet.holds.place_lt hknown
  simp only [hlength] at hsymbol
  have hsize : symbolLimit + 1 < 2 ^ 16 := by decide
  split at hsymbol <;> omega

omit hpending hhas hroom

include hcounted

/-- The total follows. -/
theorem Holds.meet_count {place' : List Nat → Nat} {up' : Option (List Nat) → Nat}
    {first : Contexts}
    (hholds : Holds first
      (Function.update predictor context ((predictor context).add value delta)) place' up')
    (hplace : place' context = place context) : ∃ after,
    first.count (place context) (minimum + (predictor context).tree.count value) delta top minimum =
      .ok after ∧
    Holds after (Function.update predictor context (((predictor context).add value delta).count
      (minimum + (predictor context).tree.count value) delta top minimum)) place' up' ∧
    after.coder.symbols.length = first.coder.symbols.length := by
  have hsmall := hsound.small
  simp only [ENET_RANGE_CODER_BOTTOM] at hsmall
  have hself : Function.update predictor context ((predictor context).add value delta) context =
      (predictor context).add value delta := Function.update_self _ _ _
  have hknown : Predictor.Known
      (Function.update predictor context ((predictor context).add value delta)) context :=
    Predictor.known_of_update hcontext (fun _ => FrequencyTree.has_add_iff) hempty hcontext
  obtain ⟨after, hcount, hafter, hlength⟩ := @Holds.count first _ place' up' context minimum hholds
    (minimum + (predictor context).tree.count value) delta top hknown
    (by rw [hself]; exact hsound.ordered.add (Nat.zero_le _) hvalue)
    (by rw [hself]; simp only [Statistics.add]; omega) (by rwa [hself])
  rw [hself, Function.update_idem] at hafter
  exact ⟨after, hplace ▸ hcount, hafter, hlength⟩

include hpending hhas hroom

/-- The byte's chain ends in this context. -/
theorem Pending.meet_ready (hlast : context = history.take length) :
    ∃ coder symbol entry after place' up',
      contextEncode contexts.coder (place context) value delta minimum =
        .ok ⟨symbol, value * minimum + (predictor context).tree.before value,
          minimum + (predictor context).tree.count value, coder⟩ ∧
      (({ contexts with coder := coder } : Contexts).store (owner.map place) symbol).coder.context
        (place context) = .ok entry ∧
      entry.escapes = (predictor context).escapes ∧ entry.total = (predictor context).total ∧
      (({ contexts with coder := coder } : Contexts).store (owner.map place) symbol).count
        (place context) (minimum + (predictor context).tree.count value) delta top minimum = .ok after ∧
      Ready after (Function.update predictor context (((predictor context).add value delta).count
        (minimum + (predictor context).tree.count value) delta top minimum)) place' up'
        (value :: history) ∧
      after.coder.symbols.length = contexts.coder.symbols.length +
        (if (predictor context).tree.Has value then 0 else 1) := by
  obtain ⟨coder, place', up', hencode, hmet, hplaces, -, hknown, hsymbol, hlength⟩ :=
    hpending.meet_symbol hempty hcontext hhas hsound hvalue hminimum hdelta hroom
  subst hlast
  have howners : owner.map place = owner.map place' := by
    cases owner with
    | none => rfl
    | some path => rw [Option.map_some, Option.map_some, hplaces _ (hpending.later path rfl).2.2.1]
  have hready := hmet.close hknown hsymbol
  rw [← howners] at hready
  have hold : Predictor.Known (Function.update predictor (history.take length)
      ((predictor (history.take length)).add value delta)) (history.take length) :=
    Predictor.known_of_update hcontext (fun _ => FrequencyTree.has_add_iff) hempty hcontext
  obtain ⟨entry, hentry, hescapes, htotal, -⟩ := hready.holds.entry hold
  rw [hplaces _ hcontext] at hentry
  rw [Function.update_self] at hescapes htotal
  obtain ⟨after, hcount, hafter, hlength'⟩ := Holds.meet_count hempty hcontext hsound hvalue hminimum
    hdelta hcounted hready.holds (hplaces _ hcontext)
  refine ⟨coder, place' (value :: history.take length), entry, after, place', _, hencode, hentry,
    hescapes, htotal, hcount, hready.of_holds hafter fun path =>
      Predictor.known_update_update fun _ => Statistics.tree_count_has, ?_⟩
  rw [hlength', Contexts.length_store, hlength]

end Meet

/-- The byte's chain goes on behind a subcontext that lacked it. -/
theorem Pending.miss_count
    (hpending : Pending contexts predictor place up history value (length + 1) owner)
    (hempty : ∀ path, ¬ predictor.Known path → predictor path = {})
    (hsound : (predictor (history.take (length + 1))).SoundSubcontext) (hvalue : value < 256)
    (hroom : contexts.coder.symbols.length < symbolLimit)
    (habsent : ¬ (predictor (history.take (length + 1))).tree.Has value) :
    ∃ coder symbol under entry after last place' up',
      contextEncode contexts.coder (place (history.take (length + 1))) value
        ENET_SUBCONTEXT_SYMBOL_DELTA 0 = .ok ⟨symbol, under, 0, coder⟩ ∧
      (({ contexts with coder := coder } : Contexts).store (owner.map place) symbol).coder.context
        (place (history.take (length + 1))) = .ok entry ∧
      entry.escapes = (predictor (history.take (length + 1))).escapes ∧
      entry.total = (predictor (history.take (length + 1))).total ∧
      ((({ contexts with coder := coder } : Contexts).store (owner.map place) symbol).escape
        (place (history.take (length + 1)))).countSubcontext (place (history.take (length + 1))) 0 =
          .ok after ∧
      after.coder.context (place (history.take (length + 1))) = .ok last ∧
      last.parent = place' (history.take length) ∧
      some symbol = (some (value :: history.take (length + 1))).map place' ∧
      Pending after (Function.update predictor (history.take (length + 1))
          ((predictor (history.take (length + 1))).miss value)) place' up' history value length
        (some (value :: history.take (length + 1))) ∧
      (∀ path, predictor.Known path → place' path = place path) ∧
      after.coder.symbols.length = contexts.coder.symbols.length + 1 := by
  set context := history.take (length + 1) with hcontext
  have hknown : predictor.Known context := hpending.known _
  have htotal := hsound.total
  have hsmall := hsound.small
  have hnone : (predictor context).tree.count value = 0 := by
    have hpositive := (FrequencyTree.count_pos_iff hsound.ordered hsound.counts).not.mpr habsent
    omega
  simp only [ENET_RANGE_CODER_BOTTOM] at hsmall
  obtain ⟨coder, place', up', hencode, hmissed, hplaces, hlength⟩ :=
    @Pending.miss _ _ _ _ _ _ _ ENET_SUBCONTEXT_SYMBOL_DELTA _ hpending hempty hsound.ordered hroom
      (by rw [← hcontext, ENET_SUBCONTEXT_SYMBOL_DELTA]; omega) (by decide) habsent hnone
  rw [← hcontext] at hencode hmissed
  have hself : Function.update predictor context
      ((predictor context).add value ENET_SUBCONTEXT_SYMBOL_DELTA) context =
        (predictor context).add value ENET_SUBCONTEXT_SYMBOL_DELTA := Function.update_self _ _ _
  have hold : Predictor.Known (Function.update predictor context
      ((predictor context).add value ENET_SUBCONTEXT_SYMBOL_DELTA)) context :=
    Predictor.known_of_update hknown (fun _ => FrequencyTree.has_add_iff) hempty hknown
  obtain ⟨entry, hentry, hescapes, hentryTotal, -⟩ := hmissed.holds.entry hold
  rw [hself] at hescapes hentryTotal
  have hplace := hplaces context hknown
  rw [hplace] at hentry
  set first : Contexts := ({ contexts with coder := coder } : Contexts).store (owner.map place)
    (place' (value :: context)) with hfirst
  have hmiss (other : Nat) : ((predictor context).miss value).tree.Has other ↔
      ((predictor context).add value ENET_SUBCONTEXT_SYMBOL_DELTA).tree.Has other :=
    Statistics.tree_miss_has.trans FrequencyTree.has_add_iff.symm
  have hescaped := hmissed.holds.escape hold
    (by rw [hself]; simp only [Statistics.add, ENET_SUBCONTEXT_ESCAPE_DELTA]; omega)
    (by rw [hself]; simp only [Statistics.add, ENET_SUBCONTEXT_ESCAPE_DELTA]; omega)
  rw [hself, Function.update_idem, hplace] at hescaped
  have hself' : Function.update predictor context
      ((predictor context).add value ENET_SUBCONTEXT_SYMBOL_DELTA).escape context =
        ((predictor context).add value ENET_SUBCONTEXT_SYMBOL_DELTA).escape :=
    Function.update_self _ _ _
  have hold' : Predictor.Known (Function.update predictor context
      ((predictor context).add value ENET_SUBCONTEXT_SYMBOL_DELTA).escape) context :=
    Predictor.known_of_update hknown (fun _ => FrequencyTree.has_add_iff) hempty hknown
  have hmissSound := (hsound.miss hvalue habsent).toSound
  obtain ⟨after, hcount, hafter, hlength'⟩ := @Holds.count _ _ _ _ context 0 hescaped 0
    ENET_SUBCONTEXT_SYMBOL_DELTA (0xFF - 2 * ENET_SUBCONTEXT_SYMBOL_DELTA) hold'
    (by rw [hself']; exact hsound.ordered.add (Nat.zero_le _) hvalue)
    (by
      rw [hself']
      simp only [Statistics.escape, Statistics.add, ENET_SUBCONTEXT_SYMBOL_DELTA,
        ENET_SUBCONTEXT_ESCAPE_DELTA]
      omega)
    (by rw [hself']; exact hmissSound)
  rw [hself', Function.update_idem] at hafter
  rw [hplace] at hcount
  have hpending' := hmissed.of_holds hafter fun path => Predictor.known_update_update hmiss
  obtain ⟨last, hlast, -, -, hparent⟩ := hpending'.holds.entry (hpending'.known (length + 1))
  rw [hpending'.chained_take le_rfl hpending.inside] at hparent
  rw [← hcontext, hplace] at hlast
  refine ⟨coder, place' (value :: context), _, entry, after, last, place', _, hencode, hentry,
    hescapes, hentryTotal, hcount, hlast, hparent, rfl, hpending', hplaces, ?_⟩
  rw [hlength', Contexts.escape, ENetRangeCoder.length_modifyContext, hfirst, Contexts.length_store,
    hlength]

end Learning

end Chains

/-! ## Between two bytes -/

/-- The table stands for a prediction, with room for one more byte. -/
structure Table (contexts : Contexts) (order : Nat) (prediction : Prediction) : Prop where
  ready : ∃ place up, Ready contexts prediction.predictor place up prediction.history
  sound : prediction.predictor.Sound
  length : prediction.history.length = order
  short : order ≤ ENET_SUBCONTEXT_ORDER
  symbols : contexts.coder.symbols.length = prediction.symbols
  room : prediction.symbols < symbolLimit - ENET_SUBCONTEXT_ORDER

/-- The table with nothing but the root. -/
def rootCoder : ENetRangeCoder :=
  ⟨[{ escapes := ENET_CONTEXT_ESCAPE_MINIMUM
      total := ENET_CONTEXT_ESCAPE_MINIMUM + 256 * ENET_CONTEXT_SYMBOL_MINIMUM }]⟩

theorem contextCreate_root : ENetRangeCoder.contextCreate {} ENET_CONTEXT_ESCAPE_MINIMUM
    ENET_CONTEXT_SYMBOL_MINIMUM = .ok (0, rootCoder) := rfl

theorem start_known {path : List Nat} (hknown : Prediction.start.predictor.Known path) : path = [] := by
  cases path with
  | nil => rfl
  | cons value context =>
      obtain ⟨-, hhas⟩ := hknown
      have htree : (Prediction.start.predictor context).tree = .leaf := by
        simp only [Prediction.start]
        split <;> rfl
      rw [htree] at hhas
      cases hhas

theorem start_table : Table ⟨rootCoder, 0⟩ 0 Prediction.start where
  ready := by
    refine ⟨fun _ => 0, fun _ => 0, ⟨rfl, fun path other hpath hother _ => ?_, fun path hpath => ?_,
      rfl⟩, fun path hpath hknown => absurd (start_known hknown) hpath, trivial, rfl⟩
    · rw [start_known hpath, start_known hother]
    · rw [start_known hpath]
      exact ⟨0, rfl, rfl⟩
  sound := Prediction.start_sound
  length := rfl
  short := Nat.zero_le _
  symbols := rfl
  room := by decide

/-- The byte has become part of the history, and the table may have been emptied. -/
theorem nextInput_table {contexts : Contexts} {predictor : Predictor} {place : List Nat → Nat}
    {up : Option (List Nat) → Nat} {history : List Nat} {value symbols : Nat}
    (hready : Ready contexts predictor place up (value :: history)) (hsound : predictor.Sound)
    (hshort : history.length ≤ ENET_SUBCONTEXT_ORDER)
    (hsymbols : contexts.coder.symbols.length = symbols) :
    ∃ after order, contexts.nextInput history.length = .ok (after, order) ∧
      Table after order (if symbolLimit - ENET_SUBCONTEXT_ORDER ≤ symbols then Prediction.start
        else ⟨predictor, (value :: history).take ENET_SUBCONTEXT_ORDER, symbols⟩) := by
  -- `predicted` first; the table is looked at afterwards.
  obtain ⟨next, order, hnext, hcoder, horder, hlength, hpredicted⟩ : ∃ next order,
      (if ENET_SUBCONTEXT_ORDER ≤ history.length then do
          let entry ← contexts.coder.context contexts.predicted
          Except.ok ({ contexts with predicted := entry.parent }, history.length)
        else .ok (contexts, history.length + 1)) = (.ok (next, order) : Except Stop (Contexts × Nat)) ∧
      next.coder = contexts.coder ∧
      ((value :: history).take ENET_SUBCONTEXT_ORDER).length = order ∧ order ≤ ENET_SUBCONTEXT_ORDER ∧
      next.predicted = place ((value :: history).take ENET_SUBCONTEXT_ORDER) := by
    have hpredicted : contexts.predicted = place (value :: history) :=
      hready.holds.predicted.trans hready.predicted
    by_cases hfull : ENET_SUBCONTEXT_ORDER ≤ history.length
    · obtain ⟨entry, hentry, -, -, hparent⟩ := hready.holds.entry hready.known
      have hdrop : (value :: history).dropLast = (value :: history).take ENET_SUBCONTEXT_ORDER := by
        rw [List.dropLast_eq_take, List.length_cons, le_antisymm hshort hfull]
        rfl
      have hup := (hready.chained _ (List.cons_ne_nil _ _) hready.known).2
      rw [if_pos hfull, hpredicted, bind_of_ok hentry]
      refine ⟨_, _, rfl, rfl, ?_, hshort, ?_⟩
      · rw [List.length_take, List.length_cons]
        omega
      · rw [← hdrop, ← hup, ← hparent]
    · rw [if_neg hfull]
      refine ⟨_, _, rfl, rfl, ?_, by omega, ?_⟩
      · rw [List.length_take, List.length_cons]
        omega
      · rw [List.take_of_length_le (by rw [List.length_cons]; omega), hpredicted]
  have hready' : Ready next predictor place (Function.update up none next.predicted)
      ((value :: history).take ENET_SUBCONTEXT_ORDER) := by
    have hups (path : List Nat) : Function.update up none next.predicted (some path) = up (some path) :=
      Function.update_of_ne (Option.some_ne_none path) _ _
    refine ⟨⟨hready.holds.root, hready.holds.apart, fun path hpath => ?_, ?_⟩,
      fun path hpath hknown => ?_, hready.known_take _, ?_⟩
    · rw [hcoder, hups]
      exact hready.holds.entries path hpath
    · rw [Function.update_self]
    · rw [Chained, hups]
      exact hready.chained path hpath hknown
    · rw [Function.update_self, hpredicted]
  have hinput : contexts.nextInput history.length =
      if symbolLimit - ENET_SUBCONTEXT_ORDER ≤ next.coder.symbols.length then .ok (⟨rootCoder, 0⟩, 0)
      else .ok (next, order) := by
    rw [Contexts.nextInput]
    by_cases hfull : ENET_SUBCONTEXT_ORDER ≤ history.length
    · rw [if_pos hfull] at hnext ⊢
      obtain ⟨entry, hentry, hpair⟩ := except_bind_eq_ok hnext
      cases hpair
      rw [bind_of_ok hentry]
      rfl
    · rw [if_neg hfull] at hnext ⊢
      cases hnext
      rfl
  rw [hinput, hcoder, hsymbols]
  by_cases hfull : symbolLimit - ENET_SUBCONTEXT_ORDER ≤ symbols
  · rw [if_pos hfull, if_pos hfull]
    exact ⟨_, _, rfl, start_table⟩
  · rw [if_neg hfull, if_neg hfull]
    exact ⟨next, order, rfl, ⟨place, _, hready'⟩, hsound, horder, hlength, hcoder ▸ hsymbols,
      not_le.mp hfull⟩

end SrmotionProxy.ENet.Compress
