/-
# Contexts in the table of symbols

`Holds` says that the table has what a predictor knows: a symbol for every known path, with
the statistics of that context and the tree of the bytes behind it. Each operation of the
compressor on one context does to the table what it does to the predictor.
-/

import SrmotionProxy.ENet.Prediction
import SrmotionProxy.ENet.SymbolTrees

namespace SrmotionProxy.ENet.Compress

open SrmotionProxy.Lib

/-- The table has what the predictor knows. A known path has the symbol at `place`, and `up`
says what the `parent` of a path's symbol is; `up none` is `predicted`. -/
structure Holds (contexts : Contexts) (predictor : Predictor) (place : List Nat → Nat)
    (up : Option (List Nat) → Nat) : Prop where
  root : place [] = 0
  apart : ∀ path other, predictor.Known path → predictor.Known other →
    place path = place other → path = other
  entries : ∀ path, predictor.Known path → ∃ distance,
    contexts.coder.context (place path) =
        .ok ⟨distance, (predictor path).escapes, (predictor path).total, up (some path)⟩ ∧
      Linked contexts.coder (fun value => place (value :: path)) (place path) distance
        (predictor path).tree
  predicted : contexts.predicted = up none

/-- A path may have got the symbol `size`; the others have kept theirs. -/
structure Extended (predictor : Predictor) (new : List Nat) (size : Nat) (place : List Nat → Nat)
    (up : Option (List Nat) → Nat) (place' : List Nat → Nat) (up' : Option (List Nat) → Nat) :
    Prop where
  places : ∀ path, predictor.Known path → place' path = place path
  ups : ∀ path, predictor.Known path → up' (some path) = up (some path)
  predicted : up' none = up none
  fresh : ¬ predictor.Known new → place' new = size ∧ up' (some new) = 0
  apart : ∀ path other, predictor.Known path ∨ path = new → predictor.Known other ∨ other = new →
    place' path = place' other → path = other

section Operations

variable {contexts : Contexts} {predictor : Predictor} {place : List Nat → Nat}
  {up : Option (List Nat) → Nat} {path other : List Nat} {value update minimum : Nat}
  (hholds : Holds contexts predictor place up)

include hholds

theorem Holds.place_lt (hknown : predictor.Known path) :
    place path < contexts.coder.symbols.length := by
  obtain ⟨distance, hcontext, -⟩ := hholds.entries path hknown
  exact ENetRangeCoder.lt_of_context hcontext

theorem Holds.extended (new : List Nat) : ∃ place' up',
    Extended predictor new contexts.coder.symbols.length place up place' up' := by
  by_cases hold : predictor.Known new
  · refine ⟨place, up, fun _ _ => rfl, fun _ _ => rfl, rfl, absurd hold, ?_⟩
    intro path other hpath hother
    exact hholds.apart path other (hpath.elim id fun hnew => hnew ▸ hold)
      (hother.elim id fun hnew => hnew ▸ hold)
  · have hne (path : List Nat) (hpath : predictor.Known path) : path ≠ new := fun hsame =>
      hold (hsame ▸ hpath)
    have hplaces (path : List Nat) (hpath : predictor.Known path) :
        Function.update place new contexts.coder.symbols.length path = place path :=
      Function.update_of_ne (hne path hpath) _ _
    refine ⟨Function.update place new contexts.coder.symbols.length, Function.update up (some new) 0,
      hplaces, fun path hpath => Function.update_of_ne ?_ _ _, Function.update_of_ne ?_ _ _,
      fun _ => ⟨Function.update_self _ _ _, Function.update_self _ _ _⟩, ?_⟩
    · exact fun hsame => hne path hpath (Option.some.inj hsame)
    · exact Option.some_ne_none new |>.symm
    · intro path other hpath hother hsame
      rcases hpath with hpath | rfl <;> rcases hother with hother | rfl
      · rw [hplaces path hpath, hplaces other hother] at hsame
        exact hholds.apart path other hpath hother hsame
      · rw [hplaces path hpath, Function.update_self] at hsame
        exact absurd hsame (hholds.place_lt hpath).ne
      · rw [hplaces other hother, Function.update_self] at hsame
        exact absurd hsame.symm (hholds.place_lt hother).ne
      · rfl

/-- Counting a byte of a context, wherever its symbol is. -/
theorem Holds.contextEncode (hempty : ∀ path, ¬ predictor.Known path → predictor path = {})
    (hknown : predictor.Known path) (hordered : (predictor path).tree.Ordered 0 256)
    (hroom : contexts.coder.symbols.length < symbolLimit)
    (hunder : value * minimum + (predictor path).tree.total + update < 2 ^ 16)
    (hcount : minimum + (predictor path).tree.count value < 2 ^ 16)
    (hupdate : (predictor path).tree.count value + update < 2 ^ 8) :
    ∃ coder place' up',
      contextEncode contexts.coder (place path) value update minimum =
        .ok ⟨place' (value :: path), value * minimum + (predictor path).tree.before value,
          minimum + (predictor path).tree.count value, coder⟩ ∧
      Holds { contexts with coder := coder }
        (Function.update predictor path ((predictor path).add value update)) place' up' ∧
      Extended predictor (value :: path) contexts.coder.symbols.length place up place' up' ∧
      coder.symbols.length = contexts.coder.symbols.length +
        (if (predictor path).tree.Has value then 0 else 1) := by
  have hnew : predictor.Known (value :: path) ↔ (predictor path).tree.Has value :=
    and_iff_right hknown
  have hknown' (other : List Nat) :
      Predictor.Known (Function.update predictor path ((predictor path).add value update)) other ↔
        predictor.Known other ∨ other = value :: path :=
    Predictor.known_update_iff hknown (fun _ => FrequencyTree.has_add_iff) hempty
  obtain ⟨place', up', hextended⟩ := hholds.extended (value :: path)
  obtain ⟨distance, hcontext, hlinked⟩ := hholds.entries path hknown
  have hbase : place' path = place path := hextended.places path hknown
  have hlinked' : Linked contexts.coder (fun value => place' (value :: path)) (place path) distance
      (predictor path).tree :=
    hlinked.place_congr fun other hother => hextended.places (other :: path) ⟨hknown, hother⟩
  have hside (other : Nat) (hother : ((predictor path).tree.add value update).Has other) :
      predictor.Known (other :: path) ∨ other :: path = value :: path := by
    rcases FrequencyTree.has_add_iff.mp hother with rfl | hother
    · exact .inr rfl
    · exact .inl ⟨hknown, hother⟩
  obtain ⟨coder, hencode, hcounted⟩ := @contextEncode_counted contexts.coder
    (fun value => place' (value :: path)) (place path) (predictor path).tree value update 0 256 _
    minimum hcontext hlinked'
    (fun one two hone htwo hsame => (List.cons.inj (hextended.apart _ _ (hside one hone)
      (hside two htwo) hsame)).1)
    hordered (hordered.size_le.trans (by decide)) hroom
    (fun habsent => (hextended.fresh (hnew.not.mpr habsent)).1) hunder hcount hupdate
  refine ⟨coder, place', up', hencode, ⟨?_, ?_, ?_, ?_⟩, hextended, hcounted.length⟩
  · rw [hextended.places [] trivial, hholds.root]
  · intro one two hone htwo
    exact hextended.apart one two ((hknown' one).mp hone) ((hknown' two).mp htwo)
  · intro other hother
    rw [hknown'] at hother
    by_cases hsame : other = path
    · subst hsame
      obtain ⟨distance', hafter, hlinkedAfter⟩ := hcounted.linked
      refine ⟨distance', ?_, ?_⟩
      · rw [hbase, Function.update_self, hafter, hextended.ups other hknown]
        rfl
      · rw [hbase, Function.update_self]
        exact hlinkedAfter
    · rw [Function.update_of_ne hsame]
      have hne : place' other ≠ place path := fun hplaces =>
        hsame (hextended.apart other path hother (.inl hknown) (hplaces.trans hbase.symm))
      by_cases hold : predictor.Known other
      · obtain ⟨distance', hcontext', hlinked'⟩ := hholds.entries other hold
        have hplace := hextended.places other hold
        refine ⟨distance', ?_, ?_⟩
        · rw [hcounted.contexts _ hne, if_neg, hplace, hcontext', hextended.ups other hold]
          rintro ⟨-, hend⟩
          rw [hplace] at hend
          exact (hholds.place_lt hold).ne hend
        · rw [hplace]
          refine (hlinked'.place_congr fun byte hbyte =>
            hextended.places (byte :: other) ⟨hold, hbyte⟩).congr fun byte hbyte => ?_
          -- The symbols behind another context are other ones.
          have hbytes (one : Nat) (hone : predictor.Known (one :: path) ∨ one :: path = value :: path) :
              place' (byte :: other) ≠ place' (one :: path) := fun hplaces =>
            hsame (List.cons.inj (hextended.apart _ _ (.inl ⟨hold, hbyte⟩) hone hplaces)).2
          exact hcounted.nodes _ (fun one hone => hbytes one (.inl ⟨hknown, hone⟩))
            (hbytes value (.inr rfl))
      · obtain rfl := hother.resolve_left hold
        obtain ⟨hsymbol, hfresh⟩ := hextended.fresh hold
        refine ⟨0, ?_, ?_⟩
        · rw [hcounted.contexts _ hne, if_pos ⟨hnew.not.mp hold, hsymbol⟩, hempty _ hold, hfresh]
        · rw [hempty _ hold]
          rfl
  · rw [hholds.predicted, hextended.predicted]

/-- A change of one context's statistics. -/
theorem Holds.modifyContext (hknown : predictor.Known path) (statistics : Statistics)
    (change : SymbolContext → SymbolContext) (htree : statistics.tree = (predictor path).tree)
    (hchange : ∀ symbols parent,
      change ⟨symbols, (predictor path).escapes, (predictor path).total, parent⟩ =
        ⟨symbols, statistics.escapes, statistics.total, parent⟩) :
    Holds { contexts with coder := contexts.coder.modifyContext (place path) change }
      (Function.update predictor path statistics) place up := by
  have hsame (other : List Nat) :
      Predictor.Known (Function.update predictor path statistics) other ↔ predictor.Known other :=
    Predictor.known_update_congr fun _ => by rw [htree]
  refine ⟨hholds.root, ?_, ?_, hholds.predicted⟩
  · intro one two hone htwo
    exact hholds.apart one two ((hsame one).mp hone) ((hsame two).mp htwo)
  · intro other hother
    rw [hsame] at hother
    obtain ⟨distance, hcontext, hlinked⟩ := hholds.entries other hother
    refine ⟨distance, ?_, ?_⟩
    · rw [ENetRangeCoder.context_modifyContext, hcontext]
      by_cases hpath : other = path
      · subst hpath
        rw [if_pos rfl, Function.update_self, Except.map, hchange]
      · rw [if_neg fun hplaces => hpath (hholds.apart other path hother hknown hplaces),
          Function.update_of_ne hpath]
    · have hnodes : Linked (contexts.coder.modifyContext (place path) change)
          (fun value => place (value :: other)) (place other) distance (predictor other).tree :=
        hlinked.congr fun _ _ => ENetRangeCoder.node_modifyContext _
      by_cases hpath : other = path
      · subst hpath
        rwa [Function.update_self, htree]
      · rwa [Function.update_of_ne hpath]

/-- `* parent = symbol - rangeCoder -> symbols`. -/
theorem Holds.store {key : Option (List Nat)} (hkey : ∀ path ∈ key, predictor.Known path)
    {symbol : Nat} (hsymbol : symbol < 2 ^ 16) :
    Holds (contexts.store (key.map place) symbol) predictor place (Function.update up key symbol) := by
  cases key with
  | none =>
      refine ⟨hholds.root, hholds.apart, fun other hother => ?_, ?_⟩
      · obtain ⟨distance, hcontext, hlinked⟩ := hholds.entries other hother
        refine ⟨distance, ?_, hlinked⟩
        rw [Function.update_of_ne (by simp)]
        exact hcontext
      · rw [Function.update_self]
        exact Nat.mod_eq_of_lt hsymbol
  | some owner =>
      have howner := hkey owner rfl
      refine ⟨hholds.root, hholds.apart, fun other hother => ?_, ?_⟩
      · obtain ⟨distance, hcontext, hlinked⟩ := hholds.entries other hother
        refine ⟨distance, ?_, hlinked.congr fun _ _ => ENetRangeCoder.node_modifyContext _⟩
        simp only [Option.map_some, Contexts.store]
        rw [ENetRangeCoder.context_modifyContext, hcontext]
        by_cases hpath : other = owner
        · subst hpath
          rw [if_pos rfl, Function.update_self, Except.map, u16, Nat.mod_eq_of_lt hsymbol]
        · rw [if_neg fun hplaces => hpath (hholds.apart other owner hother howner hplaces),
            Function.update_of_ne (by simpa using hpath)]
      · rw [Function.update_of_ne (by simp)]
        exact hholds.predicted

/-- Halving the tree of one context. -/
theorem Holds.symbolRescale (hknown : predictor.Known path)
    (hordered : (predictor path).tree.Ordered 0 256)
    (htotal : (predictor path).tree.halve.total < 2 ^ 16) {entry : SymbolContext}
    (hentry : contexts.coder.context (place path) = .ok entry) :
    ∃ coder, (if entry.symbols ≠ 0 then
          contexts.coder.symbolRescale symbolLimit (place path + entry.symbols)
        else .ok (0, contexts.coder)) = .ok ((predictor path).tree.halve.total, coder) ∧
      Holds { contexts with coder := coder } (Function.update predictor path
        { predictor path with tree := (predictor path).tree.halve }) place up ∧
      coder.symbols.length = contexts.coder.symbols.length := by
  obtain ⟨distance, hcontext, hlinked⟩ := hholds.entries path hknown
  obtain rfl := Except.ok.inj (hentry.symm.trans hcontext)
  simp only
  by_cases hempty : distance = 0
  · subst hempty
    have htree := hlinked.eq_leaf
    refine ⟨contexts.coder, ?_, ?_, rfl⟩
    · rw [htree]
      rfl
    · rwa [Function.update_eq_self_iff.mpr]
      rw [htree, FrequencyTree.halve, ← htree]
  · have hapart : Apart (fun value => place (value :: path)) (predictor path).tree :=
      fun one two hone htwo hsame =>
        (List.cons.inj (hholds.apart _ _ ⟨hknown, hone⟩ ⟨hknown, htwo⟩ hsame)).1
    obtain ⟨coder, hrescale, hrescaled, hhalved⟩ := @symbolRescale_halves _ _ _ _ _ 0 256 symbolLimit
      hlinked hempty hapart hordered (hordered.size_le.trans (by decide)) htotal
    have hsame (other : List Nat) : Predictor.Known (Function.update predictor path
        { predictor path with tree := (predictor path).tree.halve }) other ↔ predictor.Known other :=
      Predictor.known_update_congr fun _ => FrequencyTree.has_halve_iff
    refine ⟨coder, ?_, ⟨hholds.root, ?_, ?_, hholds.predicted⟩, hrescaled.length⟩
    · rw [if_pos hempty, hrescale]
    · intro one two hone htwo
      exact hholds.apart one two ((hsame one).mp hone) ((hsame two).mp htwo)
    · intro other hother
      rw [hsame] at hother
      obtain ⟨distance', hcontext', hlinked'⟩ := hholds.entries other hother
      refine ⟨distance', ?_, ?_⟩
      · rw [hrescaled.contexts, hcontext']
        by_cases hpath : other = path
        · rw [hpath, Function.update_self]
        · rw [Function.update_of_ne hpath]
      · by_cases hpath : other = path
        · subst hpath
          obtain ⟨rfl, -⟩ := SymbolContext.mk.inj (Except.ok.inj (hcontext'.symm.trans hcontext))
          rwa [Function.update_self]
        · rw [Function.update_of_ne hpath]
          refine hlinked'.congr fun byte hbyte => hrescaled.nodes _ fun one hone hsymbols => hpath ?_
          exact (List.cons.inj (hholds.apart _ _ ⟨hother, hbyte⟩ ⟨hknown, hone⟩ hsymbols)).2

theorem Holds.contextRescale (hknown : predictor.Known path)
    (hordered : (predictor path).tree.Ordered 0 256)
    (htotal : ((predictor path).rescale minimum).total < 2 ^ 16) :
    ∃ coder, contexts.coder.contextRescale (place path) minimum = .ok coder ∧
      Holds { contexts with coder := coder }
        (Function.update predictor path ((predictor path).rescale minimum)) place up ∧
      coder.symbols.length = contexts.coder.symbols.length := by
  obtain ⟨distance, hcontext, -⟩ := hholds.entries path hknown
  simp only [Statistics.rescale] at htotal
  obtain ⟨coder, hrescale, hhalved, hlength⟩ :=
    hholds.symbolRescale hknown hordered (by omega) hcontext
  have hknown' : Predictor.Known (Function.update predictor path
      { predictor path with tree := (predictor path).tree.halve }) path :=
    (Predictor.known_update_congr fun _ => FrequencyTree.has_halve_iff).mpr hknown
  refine ⟨coder.modifyContext (place path) fun entry =>
      { entry with
        escapes := (predictor path).escapes - (predictor path).escapes >>> 1
        total := u16 ((predictor path).tree.halve.total +
          ((predictor path).escapes - (predictor path).escapes >>> 1 + 256 * minimum)) }, ?_, ?_, ?_⟩
  · rw [ENetRangeCoder.contextRescale, hcontext, except_ok_bind]
    simp only at hrescale ⊢
    by_cases hempty : distance ≠ 0
    · rw [if_pos hempty] at hrescale ⊢
      rw [hrescale]
      rfl
    · rw [if_neg hempty] at hrescale ⊢
      rw [hrescale]
      rfl
  · have hafter := hhalved.modifyContext hknown' ((predictor path).rescale minimum)
      (fun entry =>
        { entry with
          escapes := (predictor path).escapes - (predictor path).escapes >>> 1
          total := u16 ((predictor path).tree.halve.total +
            ((predictor path).escapes - (predictor path).escapes >>> 1 + 256 * minimum)) })
      (by rw [Function.update_self]; rfl) fun symbols parent => by
        rw [Statistics.rescale, u16, Nat.shiftRight_one, Nat.mod_eq_of_lt htotal]
    rwa [Function.update_idem] at hafter
  · rw [ENetRangeCoder.length_modifyContext, hlength]

theorem Holds.escape (hknown : predictor.Known path)
    (hescapes : (predictor path).escapes + ENET_SUBCONTEXT_ESCAPE_DELTA < 2 ^ 16)
    (htotal : (predictor path).total + ENET_SUBCONTEXT_ESCAPE_DELTA < 2 ^ 16) :
    Holds (contexts.escape (place path))
      (Function.update predictor path (predictor path).escape) place up :=
  hholds.modifyContext hknown _ _ rfl fun symbols parent => by
    simp only [Statistics.escape, u16, Nat.mod_eq_of_lt hescapes, Nat.mod_eq_of_lt htotal]

theorem Holds.count {number delta top : Nat} (hknown : predictor.Known path)
    (hordered : (predictor path).tree.Ordered 0 256)
    (htotal : (predictor path).total + delta < 2 ^ 16)
    (hsound : ((predictor path).count number delta top minimum).Sound minimum) :
    ∃ after, contexts.count (place path) number delta top minimum = .ok after ∧
      Holds after (Function.update predictor path
        ((predictor path).count number delta top minimum)) place up ∧
      after.coder.symbols.length = contexts.coder.symbols.length := by
  set counted : Statistics := { predictor path with total := (predictor path).total + delta }
    with hcounted
  set first : Contexts := { contexts with
    coder := contexts.coder.modifyContext (place path) fun entry =>
      { entry with total := u16 (entry.total + delta) } } with hfirst
  have hafter : Holds first (Function.update predictor path counted) place up :=
    hholds.modifyContext hknown _ _ rfl fun symbols parent => by
      simp only [counted, u16, Nat.mod_eq_of_lt htotal]
  have hlength : first.coder.symbols.length = contexts.coder.symbols.length :=
    ENetRangeCoder.length_modifyContext _
  have hknown' : Predictor.Known (Function.update predictor path counted) path :=
    (@Predictor.known_update_congr predictor path path counted fun _ => Iff.rfl).mpr hknown
  obtain ⟨distance, hcontext, -⟩ := hafter.entries path hknown'
  have hself : Function.update predictor path counted path = counted := Function.update_self _ _ _
  have hstatistics : (predictor path).count number delta top minimum =
      if top < number ∨ ENET_RANGE_CODER_BOTTOM - 0x100 < counted.total then counted.rescale minimum
      else counted := rfl
  have hcount : contexts.count (place path) number delta top minimum =
      if top < number ∨ ENET_RANGE_CODER_BOTTOM - 0x100 < counted.total then
        (first.coder.contextRescale (place path) minimum).map fun coder => { first with coder := coder }
      else .ok first := by
    rw [hself] at hcontext
    simp only [Contexts.count, hfirst] at hcontext ⊢
    rw [hcontext, except_ok_bind]
    by_cases hlarge : top < number ∨ ENET_RANGE_CODER_BOTTOM - 0x100 < counted.total
    · rw [if_pos hlarge, if_pos hlarge]
      cases ENetRangeCoder.contextRescale _ _ minimum <;> rfl
    · rw [if_neg hlarge, if_neg hlarge]
      rfl
  rw [hcount]
  rw [hstatistics] at hsound ⊢
  by_cases hlarge : top < number ∨ ENET_RANGE_CODER_BOTTOM - 0x100 < counted.total
  · rw [if_pos hlarge] at hsound ⊢
    have hsmall := hsound.small
    simp only [ENET_RANGE_CODER_BOTTOM] at hsmall
    obtain ⟨coder, hrescale, hrescaled, hlength'⟩ := @Holds.contextRescale first _ _ _ path minimum
      hafter hknown' (by rwa [hself]) (by rw [hself]; omega)
    rw [hself, Function.update_idem] at hrescaled
    refine ⟨{ first with coder := coder }, ?_, ?_, hlength'.trans hlength⟩
    · rw [hrescale]
      rfl
    · rwa [if_pos hlarge]
  · refine ⟨first, if_neg hlarge, ?_, hlength⟩
    rwa [if_neg hlarge]

end Operations

end SrmotionProxy.ENet.Compress
