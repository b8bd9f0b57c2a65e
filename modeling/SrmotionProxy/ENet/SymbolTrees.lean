/-
# Trees in the table of symbols

What the table says about one context is a frequency tree: `Linked` reads it off from the
distances between symbols. Writing a value, reading it and rescaling do to the tree what the
tree's own operations do, and touch no symbol of another context.
-/

import SrmotionProxy.ENet.Compress
import SrmotionProxy.Lib.FrequencyTree

namespace SrmotionProxy.ENet.Compress

open SrmotionProxy.Lib

/-! ## The table -/

namespace ENetRangeCoder

variable {coder : ENetRangeCoder} {symbol other : Nat}

/-- Behind `symbolCreate`. -/
def append (coder : ENetRangeCoder) (value count : Nat) : ENetRangeCoder :=
  ⟨coder.symbols ++ [{ value := value, count := count, under := count }]⟩

theorem symbolCreate_eq (hroom : coder.symbols.length < symbolLimit) (value count : Nat) :
    coder.symbolCreate value count = .ok (coder.symbols.length, coder.append value count) :=
  if_pos hroom

theorem node_eq_ok_iff {entry : SymbolNode} : coder.node symbol = .ok entry ↔
    ∃ whole, coder.symbols[symbol]? = some whole ∧ whole.toSymbolNode = entry := by
  rw [node]
  cases coder.symbols[symbol]? with
  | none => simp
  | some whole => simp

theorem lt_of_node {entry : SymbolNode} (hnode : coder.node symbol = .ok entry) :
    symbol < coder.symbols.length := by
  obtain ⟨whole, hwhole, -⟩ := node_eq_ok_iff.mp hnode
  exact (List.getElem?_eq_some_iff.mp hwhole).1

theorem lt_of_context {entry : SymbolContext} (hcontext : coder.context symbol = .ok entry) :
    symbol < coder.symbols.length := by
  by_contra hout
  rw [context, List.getElem?_eq_none (Nat.not_lt.mp hout)] at hcontext
  cases hcontext

theorem node_modifyNode (update : SymbolNode → SymbolNode) :
    (coder.modifyNode symbol update).node other =
      if other = symbol then (coder.node other).map update else coder.node other := by
  simp only [node, modifyNode, List.getElem?_modify]
  by_cases hsame : other = symbol
  · subst hsame
    cases coder.symbols[other]? <;> simp [Except.map]
  · rw [if_neg hsame]
    cases coder.symbols[other]? <;> simp [Ne.symm hsame]

theorem context_modifyNode (update : SymbolNode → SymbolNode) :
    (coder.modifyNode symbol update).context other = coder.context other := by
  simp only [context, modifyNode, List.getElem?_modify]
  by_cases hsame : symbol = other
  · cases coder.symbols[other]? <;> simp [hsame]
  · cases coder.symbols[other]? <;> simp [hsame]

theorem node_modifyContext (update : SymbolContext → SymbolContext) :
    (coder.modifyContext symbol update).node other = coder.node other := by
  simp only [node, modifyContext, List.getElem?_modify]
  by_cases hsame : symbol = other
  · cases coder.symbols[other]? <;> simp [hsame]
  · cases coder.symbols[other]? <;> simp [hsame]

theorem context_modifyContext (update : SymbolContext → SymbolContext) :
    (coder.modifyContext symbol update).context other =
      if other = symbol then (coder.context other).map update else coder.context other := by
  simp only [context, modifyContext, List.getElem?_modify]
  by_cases hsame : other = symbol
  · subst hsame
    cases coder.symbols[other]? <;> simp [Except.map]
  · rw [if_neg hsame]
    cases coder.symbols[other]? <;> simp [Ne.symm hsame]

@[simp]
theorem length_modifyNode (update : SymbolNode → SymbolNode) :
    (coder.modifyNode symbol update).symbols.length = coder.symbols.length := by
  simp [modifyNode]

@[simp]
theorem length_modifyContext (update : SymbolContext → SymbolContext) :
    (coder.modifyContext symbol update).symbols.length = coder.symbols.length := by
  simp [modifyContext]

@[simp]
theorem length_append (value count : Nat) :
    (coder.append value count).symbols.length = coder.symbols.length + 1 := by
  simp [append]

theorem node_append (value count : Nat) : (coder.append value count).node other =
    if other = coder.symbols.length then .ok { value := value, count := count, under := count }
    else coder.node other := by
  simp only [node, append]
  by_cases hnew : other = coder.symbols.length
  · subst hnew
    simp
  · rw [if_neg hnew]
    by_cases hold : other < coder.symbols.length
    · rw [List.getElem?_append_left hold]
    · rw [List.getElem?_eq_none (by simp; omega), List.getElem?_eq_none (by omega)]

theorem context_append (value count : Nat) : (coder.append value count).context other =
    if other = coder.symbols.length then .ok {} else coder.context other := by
  simp only [context, append]
  by_cases hnew : other = coder.symbols.length
  · subst hnew
    simp
  · rw [if_neg hnew]
    by_cases hold : other < coder.symbols.length
    · rw [List.getElem?_append_left hold]
    · rw [List.getElem?_eq_none (by simp; omega), List.getElem?_eq_none (by omega)]

end ENetRangeCoder

/-! ## Trees -/

/-- The table has the tree at this distance behind `base`, the node of a value at `place`. -/
def Linked (coder : ENetRangeCoder) (place : Nat → Nat) : Nat → Nat → FrequencyTree → Prop
  | _, distance, .leaf => distance = 0
  | base, distance, .node left value count right =>
      distance ≠ 0 ∧ base + distance = place value ∧
        ∃ toLeft toRight,
          coder.node (place value) = .ok ⟨value, count, left.total + count, toLeft, toRight⟩ ∧
            Linked coder place (place value) toLeft left ∧
            Linked coder place (place value) toRight right

/-- No two values share a symbol. -/
def Apart (place : Nat → Nat) (tree : FrequencyTree) : Prop :=
  ∀ value other, tree.Has value → tree.Has other → place value = place other → value = other

/-- Nothing but the tree's nodes has changed, and a new value has got a symbol at the end. -/
structure Grown (place : Nat → Nat) (tree : FrequencyTree) (value : Nat)
    (before after : ENetRangeCoder) : Prop where
  nodes : ∀ symbol, (∀ other, tree.Has other → symbol ≠ place other) → symbol ≠ place value →
    after.node symbol = before.node symbol
  contexts : ∀ symbol, after.context symbol =
    if ¬ tree.Has value ∧ symbol = before.symbols.length then .ok {} else before.context symbol
  length : after.symbols.length =
    before.symbols.length + (if tree.Has value then 0 else 1)

section Trees

variable {coder after : ENetRangeCoder} {place : Nat → Nat} {base distance : Nat}
  {tree left right : FrequencyTree} {value here number update low high : Nat}

theorem Linked.congr (hlinked : Linked coder place base distance tree)
    (hnodes : ∀ value, tree.Has value → after.node (place value) = coder.node (place value)) :
    Linked after place base distance tree := by
  induction tree generalizing base distance with
  | leaf => exact hlinked
  | node left here number right ihl ihr =>
      obtain ⟨hdistance, hplace, toLeft, toRight, hnode, hleft, hright⟩ := hlinked
      refine ⟨hdistance, hplace, toLeft, toRight, ?_, ?_, ?_⟩
      · rw [hnodes here (.inr (.inl rfl)), hnode]
      · exact ihl hleft fun value hhas => hnodes value (.inl hhas)
      · exact ihr hright fun value hhas => hnodes value (.inr (.inr hhas))

theorem Linked.place_congr {other : Nat → Nat} (hlinked : Linked coder place base distance tree)
    (hplace : ∀ value, tree.Has value → other value = place value) :
    Linked coder other base distance tree := by
  induction tree generalizing base distance with
  | leaf => exact hlinked
  | node left here number right ihl ihr =>
      obtain ⟨hdistance, hbase, toLeft, toRight, hnode, hleft, hright⟩ := hlinked
      have hhere := hplace here (.inr (.inl rfl))
      refine ⟨hdistance, ?_, toLeft, toRight, ?_, ?_, ?_⟩
      · rw [hhere, hbase]
      · rw [hhere, hnode]
      · rw [hhere]
        exact ihl hleft fun value hhas => hplace value (.inl hhas)
      · rw [hhere]
        exact ihr hright fun value hhas => hplace value (.inr (.inr hhas))

theorem Linked.eq_leaf (hlinked : Linked coder place base 0 tree) : tree = .leaf := by
  cases tree with
  | leaf => rfl
  | node left here number right => exact absurd rfl hlinked.1

theorem Linked.place_lt (hlinked : Linked coder place base distance tree) (hhas : tree.Has value) :
    place value < coder.symbols.length := by
  induction tree generalizing base distance with
  | leaf => cases hhas
  | node left here number right ihl ihr =>
      obtain ⟨-, -, toLeft, toRight, hnode, hleft, hright⟩ := hlinked
      rcases hhas with hhas | rfl | hhas
      · exact ihl hleft hhas
      · exact ENetRangeCoder.lt_of_node hnode
      · exact ihr hright hhas

theorem Apart.toLeft (hapart : Apart place (.node left here number right)) : Apart place left :=
  fun value other hvalue hother => hapart value other (.inl hvalue) (.inl hother)

theorem Apart.toRight (hapart : Apart place (.node left here number right)) : Apart place right :=
  fun value other hvalue hother => hapart value other (.inr (.inr hvalue)) (.inr (.inr hother))

/-- The subtrees do not have the node's symbol. -/
theorem Linked.left_modifyNode {toLeft : Nat} (hleft : Linked coder place (place here) toLeft left)
    (hordered : (FrequencyTree.node left here number right).Ordered low high)
    (hapart : Apart place (.node left here number right)) (change : SymbolNode → SymbolNode) :
    Linked (coder.modifyNode (place here) change) place (place here) toLeft left := by
  refine hleft.congr fun other hother => ?_
  have hsmaller := hordered.2.2.1.mem hother
  rw [ENetRangeCoder.node_modifyNode, if_neg]
  exact fun hsame => hsmaller.2.ne (hapart other here (.inl hother) (.inr (.inl rfl)) hsame)

theorem Apart.of_add (hapart : Apart place (tree.add value update)) : Apart place tree :=
  fun value other hvalue hother => hapart value other (FrequencyTree.has_add_iff.mpr (.inr hvalue))
    (FrequencyTree.has_add_iff.mpr (.inr hother))

/-! ### Writing -/

/-- A new leaf at the end of the table. -/
theorem linked_append (hbase : base < coder.symbols.length) (hlimit : coder.symbols.length < symbolLimit)
    (hplace : place value = coder.symbols.length)
    (hnode : after.node coder.symbols.length = .ok { value := value, count := update, under := update }) :
    Linked after place base (u16 (coder.symbols.length - base)) (.node .leaf value update .leaf) := by
  have hdistance : u16 (coder.symbols.length - base) = coder.symbols.length - base := by
    unfold symbolLimit at hlimit
    rw [u16]
    omega
  rw [hdistance]
  refine ⟨by omega, by omega, 0, 0, ?_, rfl, rfl⟩
  rw [hplace, hnode]
  simp [FrequencyTree.total]

/-- What grows in a subtree grows in the tree. -/
theorem Grown.of_child {sub : FrequencyTree} {first : ENetRangeCoder}
    (hgrown : Grown place sub value first after)
    (hsub : ∀ other, sub.Has other → tree.Has other) (hhere : tree.Has here)
    (hhas : tree.Has value ↔ sub.Has value)
    (hnodes : ∀ symbol, symbol ≠ place here → first.node symbol = coder.node symbol)
    (hcontexts : ∀ symbol, first.context symbol = coder.context symbol)
    (hlength : first.symbols.length = coder.symbols.length) : Grown place tree value coder after where
  nodes symbol hold hnew :=
    (hgrown.nodes symbol (fun other hother => hold other (hsub other hother)) hnew).trans
      (hnodes symbol (hold here hhere))
  contexts symbol := by
    rw [hgrown.contexts, hcontexts, hlength]
    simp only [hhas]
  length := by
    rw [hgrown.length, hlength]
    simp only [hhas]

/-- A new symbol, and a node of the tree points to it. -/
theorem Grown.of_append (hplace : place value = coder.symbols.length) (habsent : ¬ tree.Has value)
    (hhere : tree.Has here) (last : SymbolNode → SymbolNode) :
    Grown place tree value coder ((coder.append value update).modifyNode (place here) last) where
  nodes symbol hold hnew := by
    rw [hplace] at hnew
    rw [ENetRangeCoder.node_modifyNode, if_neg (hold here hhere), ENetRangeCoder.node_append,
      if_neg hnew]
  contexts symbol := by
    rw [ENetRangeCoder.context_modifyNode, ENetRangeCoder.context_append]
    simp only [habsent, not_false_eq_true, true_and]
  length := by
    rw [if_neg habsent, ENetRangeCoder.length_modifyNode, ENetRangeCoder.length_append]

section Steps

variable {fuel node under count : Nat} {entry : SymbolNode}
  (hnode : coder.node node = .ok entry)

include hnode

theorem contextEncodeLoop_here (hsame : value = entry.value) :
    contextEncodeLoop value update (fuel + 1) coder node under count =
      .ok ⟨node, u16 (under + 2 ^ 16 + entry.under - entry.count), u16 (count + entry.count),
        coder.modifyNode node fun entry =>
          { entry with under := u16 (entry.under + update), count := u8 (entry.count + update) }⟩ := by
  rw [contextEncodeLoop, hnode, except_ok_bind, if_neg (by omega), if_neg (by omega)]
  rfl

theorem contextEncodeLoop_left (hsmaller : value < entry.value) (hleft : entry.left ≠ 0) :
    contextEncodeLoop value update (fuel + 1) coder node under count =
      contextEncodeLoop value update fuel
        (coder.modifyNode node fun entry => { entry with under := u16 (entry.under + update) })
        (node + entry.left) under count := by
  rw [contextEncodeLoop, hnode, except_ok_bind, if_pos hsmaller]
  exact if_pos hleft

theorem contextEncodeLoop_right (hlarger : entry.value < value) (hright : entry.right ≠ 0) :
    contextEncodeLoop value update (fuel + 1) coder node under count =
      contextEncodeLoop value update fuel coder (node + entry.right) (u16 (under + entry.under))
        count := by
  rw [contextEncodeLoop, hnode, except_ok_bind, if_neg (by omega), if_pos hlarger]
  exact if_pos hright

theorem contextEncodeLoop_newLeft (hsmaller : value < entry.value) (hleft : entry.left = 0)
    (hroom : coder.symbols.length < symbolLimit) :
    contextEncodeLoop value update (fuel + 1) coder node under count =
      .ok ⟨coder.symbols.length, under, count,
        ((coder.modifyNode node fun entry =>
          { entry with under := u16 (entry.under + update) }).append value update).modifyNode node
            fun entry => { entry with left := u16 (coder.symbols.length - node) }⟩ := by
  rw [contextEncodeLoop, hnode, except_ok_bind, if_pos hsmaller]
  simp only [hleft, ne_eq, not_true_eq_false, if_false]
  rw [ENetRangeCoder.symbolCreate_eq (by rwa [ENetRangeCoder.length_modifyNode]), except_ok_bind,
    ENetRangeCoder.length_modifyNode]
  rfl

theorem contextEncodeLoop_newRight (hlarger : entry.value < value) (hright : entry.right = 0)
    (hroom : coder.symbols.length < symbolLimit) :
    contextEncodeLoop value update (fuel + 1) coder node under count =
      .ok ⟨coder.symbols.length, u16 (under + entry.under), count,
        (coder.append value update).modifyNode node
          fun entry => { entry with right := u16 (coder.symbols.length - node) }⟩ := by
  rw [contextEncodeLoop, hnode, except_ok_bind, if_neg (by omega), if_pos hlarger]
  simp only [hright, ne_eq, not_true_eq_false, if_false]
  rw [ENetRangeCoder.symbolCreate_eq hroom, except_ok_bind]
  rfl

end Steps

/-- The loop, begun at this tree, counts the value in it. -/
def Writes (coder : ENetRangeCoder) (place : Nat → Nat) (base distance : Nat) (tree : FrequencyTree)
    (value update fuel under count : Nat) : Prop :=
  ∃ after, contextEncodeLoop value update fuel coder (base + distance) under count =
      .ok ⟨place value, under + tree.before value, count + tree.count value, after⟩ ∧
    Grown place tree value coder after ∧
    Linked after place base distance (tree.add value update)

section Writes

variable {fuel under count toLeft toRight : Nat}
  (hplace : base + distance = place here) (hdistance : distance ≠ 0)
  (hnode : coder.node (place here) = .ok ⟨here, number, left.total + number, toLeft, toRight⟩)
  (hleft : Linked coder place (place here) toLeft left)
  (hright : Linked coder place (place here) toRight right)
  (hordered : (FrequencyTree.node left here number right).Ordered low high)
  (hapart : Apart place ((FrequencyTree.node left here number right).add value update))

include hapart in
/-- Different values have different symbols, also the one that is counted. -/
theorem place_ne {other another : Nat}
    (hother : other = value ∨ (FrequencyTree.node left here number right).Has other)
    (hanother : another = value ∨ (FrequencyTree.node left here number right).Has another)
    (hne : other ≠ another) : place other ≠ place another :=
  fun hsame => hne (hapart other another (FrequencyTree.has_add_iff.mpr hother)
    (FrequencyTree.has_add_iff.mpr hanother) hsame)

include hplace hdistance hnode hleft hright hordered hapart

theorem writes_here (hsame : value = here)
    (hunder : under + (left.total + number + right.total) + update < 2 ^ 16)
    (hcount : count + number < 2 ^ 16) (hupdate : number + update < 2 ^ 8) :
    Writes coder place base distance (.node left here number right) value update (fuel + 1) under
      count := by
  subst hsame
  have hsides := hordered.2.2
  refine ⟨coder.modifyNode (place value) fun entry =>
      { entry with under := u16 (entry.under + update), count := u8 (entry.count + update) },
    ?_, ⟨?_, ?_, ?_⟩, ?_⟩
  · rw [hplace, contextEncodeLoop_here hnode rfl, FrequencyTree.before, FrequencyTree.count]
    simp only [lt_irrefl, if_false]
    rw [u16, u16, Nat.mod_eq_of_lt hcount,
      show under + 2 ^ 16 + (left.total + number) - number = under + left.total + 2 ^ 16 by omega,
      Nat.add_mod_right, Nat.mod_eq_of_lt (by omega)]
  · intro symbol hold _
    rw [ENetRangeCoder.node_modifyNode, if_neg (hold value (.inr (.inl rfl)))]
  · intro symbol
    rw [ENetRangeCoder.context_modifyNode, if_neg]
    rintro ⟨habsent, -⟩
    exact habsent (.inr (.inl rfl))
  · rw [ENetRangeCoder.length_modifyNode]
    simp [FrequencyTree.Has]
  · rw [FrequencyTree.add, if_neg (lt_irrefl value), if_neg (lt_irrefl value)]
    refine ⟨hdistance, hplace, toLeft, toRight, ?_, ?_, ?_⟩
    · rw [ENetRangeCoder.node_modifyNode, if_pos rfl, hnode]
      simp only [Except.map]
      rw [u16, u8, Nat.mod_eq_of_lt hupdate, Nat.mod_eq_of_lt (by omega), Nat.add_assoc]
    · refine hleft.congr fun other hother => ?_
      have hsmaller := hsides.1.mem hother
      rw [ENetRangeCoder.node_modifyNode,
        if_neg (place_ne hapart (.inr (.inl hother)) (.inl rfl) (by omega))]
    · refine hright.congr fun other hother => ?_
      have hlarger := hsides.2.mem hother
      rw [ENetRangeCoder.node_modifyNode,
        if_neg (place_ne hapart (.inr (.inr (.inr hother))) (.inl rfl) (by omega))]

/-- A new value in an empty subtree. -/
theorem writes_newLeft (hsmaller : value < here) (hempty : left = .leaf)
    (hroom : coder.symbols.length < symbolLimit) (hnew : place value = coder.symbols.length)
    (htotal : left.total + number + update < 2 ^ 16) :
    Writes coder place base distance (.node left here number right) value update (fuel + 1) under
      count := by
  subst hempty
  obtain rfl : toLeft = 0 := hleft
  have hbefore : place here < coder.symbols.length := ENetRangeCoder.lt_of_node hnode
  have habsent : ¬ (FrequencyTree.node .leaf here number right).Has value := fun hhas =>
    (hordered.has_left hsmaller).mp hhas
  have hhere : (FrequencyTree.node .leaf here number right).Has here := .inr (.inl rfl)
  set first := coder.modifyNode (place here) fun entry =>
    { entry with under := u16 (entry.under + update) } with hfirst
  have hlength : first.symbols.length = coder.symbols.length := ENetRangeCoder.length_modifyNode _
  set after := (first.append value update).modifyNode (place here) fun entry =>
    { entry with left := u16 (coder.symbols.length - place here) } with hafter
  have hnodes (symbol : Nat) (hsymbol : symbol ≠ place here) :
      first.node symbol = coder.node symbol := by
    rw [hfirst, ENetRangeCoder.node_modifyNode, if_neg hsymbol]
  have hfirstNode : first.node (place here) =
      .ok ⟨here, number, update + number, 0, toRight⟩ := by
    rw [hfirst, ENetRangeCoder.node_modifyNode, if_pos rfl, hnode]
    simp only [Except.map]
    rw [u16, Nat.mod_eq_of_lt htotal, FrequencyTree.total]
    congr 2
    omega
  have hgrown : Grown place (.node .leaf here number right) value first after :=
    Grown.of_append (by rw [hlength, hnew]) habsent hhere _
  refine ⟨after, ?_, ?_, ?_⟩
  · rw [hplace, contextEncodeLoop_newLeft hnode hsmaller rfl hroom, FrequencyTree.before,
      FrequencyTree.count, if_pos hsmaller, if_pos hsmaller, hnew]
    rfl
  · exact hgrown.of_child (fun _ => id) hhere Iff.rfl hnodes
      (fun _ => ENetRangeCoder.context_modifyNode _) hlength
  · rw [FrequencyTree.add, if_pos hsmaller, FrequencyTree.add]
    refine ⟨hdistance, hplace, _, toRight, ?_, linked_append hbefore hroom hnew ?_, ?_⟩
    · rw [hafter, ENetRangeCoder.node_modifyNode, if_pos rfl, ENetRangeCoder.node_append, hlength,
        if_neg hbefore.ne, hfirstNode]
      simp only [Except.map, FrequencyTree.total]
      rw [Nat.zero_add, Nat.add_zero]
    · rw [hafter, ENetRangeCoder.node_modifyNode, if_neg hbefore.ne', ENetRangeCoder.node_append,
        hlength, if_pos rfl]
    · refine hright.congr fun other hother => ?_
      have hlarger := hordered.2.2.2.mem hother
      have hother' := hright.place_lt hother
      rw [hafter, ENetRangeCoder.node_modifyNode,
        if_neg (place_ne hapart (.inr (.inr (.inr hother))) (.inr hhere) (by omega)),
        ENetRangeCoder.node_append, hlength, if_neg hother'.ne,
        hnodes _ (place_ne hapart (.inr (.inr (.inr hother))) (.inr hhere) (by omega))]

theorem writes_newRight (hlarger : here < value) (hempty : right = .leaf)
    (hroom : coder.symbols.length < symbolLimit) (hnew : place value = coder.symbols.length)
    (hunder : under + (left.total + number) < 2 ^ 16) :
    Writes coder place base distance (.node left here number right) value update (fuel + 1) under
      count := by
  subst hempty
  obtain rfl : toRight = 0 := hright
  have hbefore : place here < coder.symbols.length := ENetRangeCoder.lt_of_node hnode
  have habsent : ¬ (FrequencyTree.node left here number .leaf).Has value := fun hhas =>
    (hordered.has_right hlarger).mp hhas
  have hhere : (FrequencyTree.node left here number .leaf).Has here := .inr (.inl rfl)
  set after := (coder.append value update).modifyNode (place here) fun entry =>
    { entry with right := u16 (coder.symbols.length - place here) } with hafter
  refine ⟨after, ?_, Grown.of_append hnew habsent hhere _, ?_⟩
  · rw [hplace, contextEncodeLoop_newRight hnode hlarger rfl hroom, FrequencyTree.before,
      FrequencyTree.count, if_neg hlarger.not_gt, if_neg hlarger.not_gt,
      if_pos hlarger, if_pos hlarger, hnew]
    simp only [FrequencyTree.before, FrequencyTree.count, Nat.add_zero]
    rw [u16, Nat.mod_eq_of_lt hunder]
  · rw [FrequencyTree.add, if_neg hlarger.not_gt, if_pos hlarger, FrequencyTree.add]
    refine ⟨hdistance, hplace, toLeft, _, ?_, ?_, linked_append hbefore hroom hnew ?_⟩
    · rw [hafter, ENetRangeCoder.node_modifyNode, if_pos rfl, ENetRangeCoder.node_append,
        if_neg hbefore.ne, hnode]
      rfl
    · refine hleft.congr fun other hother => ?_
      have hsmaller := hordered.2.2.1.mem hother
      rw [hafter, ENetRangeCoder.node_modifyNode,
        if_neg (place_ne hapart (.inr (.inl hother)) (.inr hhere) (by omega)),
        ENetRangeCoder.node_append, if_neg (hleft.place_lt hother).ne]
    · rw [hafter, ENetRangeCoder.node_modifyNode, if_neg hbefore.ne', ENetRangeCoder.node_append,
        if_pos rfl]

/-- A smaller value is counted to the left. -/
theorem writes_left (hsmaller : value < here) (hbranch : toLeft ≠ 0)
    (htotal : left.total + number + update < 2 ^ 16)
    (hwrites : ∀ first : ENetRangeCoder, first.symbols.length = coder.symbols.length →
      Linked first place (place here) toLeft left →
        Writes first place (place here) toLeft left value update fuel under count) :
    Writes coder place base distance (.node left here number right) value update (fuel + 1) under
      count := by
  have hhere : (FrequencyTree.node left here number right).Has here := .inr (.inl rfl)
  have hsides := hordered.2.2
  set first := coder.modifyNode (place here) fun entry =>
    { entry with under := u16 (entry.under + update) } with hfirst
  have hnodes (symbol : Nat) (hsymbol : symbol ≠ place here) :
      first.node symbol = coder.node symbol := by
    rw [hfirst, ENetRangeCoder.node_modifyNode, if_neg hsymbol]
  have hlength : first.symbols.length = coder.symbols.length := ENetRangeCoder.length_modifyNode _
  obtain ⟨after, hloop, hgrown, hlinked⟩ := hwrites first hlength
    (hleft.left_modifyNode hordered hapart.of_add _)
  -- Neither the node nor what is to its right has changed below.
  have hkept (other : Nat) (hother : (FrequencyTree.node left here number right).Has other)
      (hlarger : here ≤ other) : after.node (place other) = first.node (place other) := by
    refine hgrown.nodes _ (fun another hanother => ?_) ?_
    · have hanother' := hsides.1.mem hanother
      exact place_ne hapart (.inr hother) (.inr (.inl hanother)) (by omega)
    · exact place_ne hapart (.inr hother) (.inl rfl) (by omega)
  refine ⟨after, ?_, ?_, ?_⟩
  · rw [hplace, contextEncodeLoop_left hnode hsmaller hbranch, hloop, FrequencyTree.before,
      FrequencyTree.count, if_pos hsmaller, if_pos hsmaller]
  · exact hgrown.of_child (fun _ => .inl) hhere (hordered.has_left hsmaller) hnodes
      (fun _ => ENetRangeCoder.context_modifyNode _) hlength
  · rw [FrequencyTree.add, if_pos hsmaller]
    refine ⟨hdistance, hplace, toLeft, toRight, ?_, hlinked, hright.congr fun other hother => ?_⟩
    · rw [hkept here hhere le_rfl, hfirst, ENetRangeCoder.node_modifyNode, if_pos rfl, hnode]
      simp only [Except.map]
      rw [u16, Nat.mod_eq_of_lt htotal, FrequencyTree.total_add, Nat.add_right_comm]
    · have hother' := hsides.2.mem hother
      rw [hkept other (.inr (.inr hother)) (by omega),
        hnodes _ (place_ne hapart (.inr (.inr (.inr hother))) (.inr hhere) (by omega))]

omit hright in
/-- A larger value is counted to the right. -/
theorem writes_right (hlarger : here < value) (hbranch : toRight ≠ 0)
    (hunder : under + (left.total + number) < 2 ^ 16)
    (hwrites : Writes coder place (place here) toRight right value update fuel
      (under + (left.total + number)) count) :
    Writes coder place base distance (.node left here number right) value update (fuel + 1) under
      count := by
  have hhere : (FrequencyTree.node left here number right).Has here := .inr (.inl rfl)
  have hsides := hordered.2.2
  obtain ⟨after, hloop, hgrown, hlinked⟩ := hwrites
  -- Neither the node nor what is to its left has changed below.
  have hkept (other : Nat) (hother : (FrequencyTree.node left here number right).Has other)
      (hsmaller : other ≤ here) : after.node (place other) = coder.node (place other) := by
    refine hgrown.nodes _ (fun another hanother => ?_) ?_
    · have hanother' := hsides.2.mem hanother
      exact place_ne hapart (.inr hother) (.inr (.inr (.inr hanother))) (by omega)
    · exact place_ne hapart (.inr hother) (.inl rfl) (by omega)
  refine ⟨after, ?_, ?_, ?_⟩
  · rw [hplace, contextEncodeLoop_right hnode hlarger hbranch, u16, Nat.mod_eq_of_lt hunder, hloop,
      FrequencyTree.before, FrequencyTree.count, if_neg hlarger.not_gt, if_neg hlarger.not_gt,
      if_pos hlarger, if_pos hlarger]
    simp only [Nat.add_assoc]
  · exact hgrown.of_child (fun _ hother => .inr (.inr hother)) hhere (hordered.has_right hlarger)
      (fun _ _ => rfl) (fun _ => rfl) rfl
  · rw [FrequencyTree.add, if_neg hlarger.not_gt, if_pos hlarger]
    refine ⟨hdistance, hplace, toLeft, toRight, ?_, hleft.congr fun other hother => ?_, hlinked⟩
    · rw [hkept here hhere le_rfl, hnode]
    · have hother' := hsides.1.mem hother
      rw [hkept other (.inl hother) (by omega)]

end Writes

/-- The loop goes the way of the value, and the table has the tree with the value counted. -/
theorem contextEncodeLoop_writes {fuel under count : Nat}
    (hlinked : Linked coder place base distance tree) (hdistance : distance ≠ 0)
    (hapart : Apart place (tree.add value update)) (hordered : tree.Ordered low high)
    (hfuel : tree.size ≤ fuel) (hroom : coder.symbols.length < symbolLimit)
    (hnew : ¬ tree.Has value → place value = coder.symbols.length)
    (hunder : under + tree.total + update < 2 ^ 16)
    (hcount : count + tree.count value < 2 ^ 16) (hupdate : tree.count value + update < 2 ^ 8) :
    Writes coder place base distance tree value update fuel under count := by
  induction tree generalizing coder base distance under low high fuel with
  | leaf => exact absurd hlinked hdistance
  | node left here number right ihl ihr =>
      have hapart' := hapart
      obtain ⟨-, hplace, toLeft, toRight, hnode, hleft, hright⟩ := hlinked
      obtain ⟨fuel, rfl⟩ : ∃ rest, fuel = rest + 1 := by
        cases fuel with
        | zero => exact absurd hfuel (by rw [FrequencyTree.size]; omega)
        | succ fuel => exact ⟨fuel, rfl⟩
      rw [FrequencyTree.size] at hfuel
      rw [FrequencyTree.total] at hunder
      rw [FrequencyTree.count] at hcount hupdate
      rw [FrequencyTree.add] at hapart'
      by_cases hsmaller : value < here
      · rw [if_pos hsmaller] at hcount hupdate hapart'
        have hhas := hordered.has_left hsmaller
        by_cases hbranch : toLeft = 0
        · subst hbranch
          have hempty := hleft.eq_leaf
          refine writes_newLeft hplace hdistance hnode hleft hright hordered hapart hsmaller hempty
            hroom (hnew fun hvalue => ?_) (by omega)
          rw [hhas, hempty] at hvalue
          exact hvalue
        · refine writes_left hplace hdistance hnode hleft hright hordered hapart hsmaller hbranch
            (by omega) fun first hlength hfirst => ?_
          exact ihl hfirst hbranch hapart'.toLeft hordered.2.2.1 (by omega) (hlength ▸ hroom)
            (fun habsent => hlength ▸ hnew (hhas.not.mpr habsent)) (by omega) hcount hupdate
      · rw [if_neg hsmaller] at hcount hupdate hapart'
        by_cases hlarger : here < value
        · rw [if_pos hlarger] at hcount hupdate hapart'
          have hhas := hordered.has_right hlarger
          by_cases hbranch : toRight = 0
          · subst hbranch
            have hempty := hright.eq_leaf
            refine writes_newRight hplace hdistance hnode hleft hright hordered hapart hlarger hempty
              hroom (hnew fun hvalue => ?_) (by omega)
            rw [hhas, hempty] at hvalue
            exact hvalue
          · refine writes_right hplace hdistance hnode hleft hordered hapart hlarger hbranch
              (by omega) ?_
            exact ihr hright hbranch hapart'.toRight hordered.2.2.2 (by omega) hroom
              (fun habsent => hnew (hhas.not.mpr habsent)) (by omega) hcount hupdate
        · rw [if_neg hlarger] at hcount hupdate
          exact writes_here hplace hdistance hnode hleft hright hordered hapart (by omega) hunder
            hcount hupdate

/-- What `contextEncode` does to the table when it counts a value of one context. -/
structure Counted (coder : ENetRangeCoder) (place : Nat → Nat) (base : Nat) (entry : SymbolContext)
    (tree : FrequencyTree) (value update : Nat) (after : ENetRangeCoder) : Prop where
  nodes : ∀ symbol, (∀ other, tree.Has other → symbol ≠ place other) → symbol ≠ place value →
    after.node symbol = coder.node symbol
  contexts : ∀ symbol, symbol ≠ base → after.context symbol =
    if ¬ tree.Has value ∧ symbol = coder.symbols.length then .ok {} else coder.context symbol
  length : after.symbols.length = coder.symbols.length + (if tree.Has value then 0 else 1)
  linked : ∃ distance, after.context base = .ok { entry with symbols := distance } ∧
    Linked after place base distance (tree.add value update)

section Context

variable {entry : SymbolContext} {minimum : Nat} (hcontext : coder.context base = .ok entry)
  (hlinked : Linked coder place base entry.symbols tree)

include hcontext hlinked

theorem contextEncode_counted (hapart : Apart place (tree.add value update))
    (hordered : tree.Ordered low high) (hsize : tree.size ≤ symbolLimit)
    (hroom : coder.symbols.length < symbolLimit)
    (hnew : ¬ tree.Has value → place value = coder.symbols.length)
    (hunder : value * minimum + tree.total + update < 2 ^ 16)
    (hcount : minimum + tree.count value < 2 ^ 16) (hupdate : tree.count value + update < 2 ^ 8) :
    ∃ after, contextEncode coder base value update minimum =
        .ok ⟨place value, value * minimum + tree.before value, minimum + tree.count value, after⟩ ∧
      Counted coder place base entry tree value update after := by
  have hbase : base < coder.symbols.length := ENetRangeCoder.lt_of_context hcontext
  rw [contextEncode, hcontext, except_ok_bind]
  by_cases hempty : entry.symbols = 0
  · rw [hempty] at hlinked
    obtain rfl := hlinked.eq_leaf
    have habsent : ¬ FrequencyTree.leaf.Has value := id
    rw [if_pos hempty, ENetRangeCoder.symbolCreate_eq hroom, except_ok_bind]
    refine ⟨(coder.append value update).modifyContext base fun entry =>
        { entry with symbols := u16 (coder.symbols.length - base) },
      ?_, ?_, ?_, ?_, u16 (coder.symbols.length - base), ?_, ?_⟩
    · rw [hnew habsent]
      rfl
    · intro symbol _ hsymbol
      rw [hnew habsent] at hsymbol
      rw [ENetRangeCoder.node_modifyContext, ENetRangeCoder.node_append, if_neg hsymbol]
    · intro symbol hsymbol
      rw [ENetRangeCoder.context_modifyContext, if_neg hsymbol, ENetRangeCoder.context_append]
      simp only [habsent, not_false_eq_true, true_and]
    · rw [ENetRangeCoder.length_modifyContext, ENetRangeCoder.length_append, if_neg habsent]
    · rw [ENetRangeCoder.context_modifyContext, if_pos rfl, ENetRangeCoder.context_append,
        if_neg hbase.ne, hcontext]
      rfl
    · refine linked_append hbase hroom (hnew habsent) ?_
      rw [ENetRangeCoder.node_modifyContext, ENetRangeCoder.node_append, if_pos rfl]
  · rw [if_neg hempty]
    obtain ⟨after, hloop, hgrown, hafter⟩ := contextEncodeLoop_writes hlinked hempty hapart hordered
      hsize hroom hnew hunder hcount hupdate
    refine ⟨after, hloop, hgrown.nodes, fun symbol _ => hgrown.contexts symbol, hgrown.length,
      entry.symbols, ?_, hafter⟩
    rw [hgrown.contexts, if_neg, hcontext]
    rintro ⟨-, hend⟩
    exact hbase.ne hend

end Context

/-! ### Reading -/

/-- What is assigned when the value is known. -/
def Encoded.decoded (encoded : Encoded) (value : Nat) : Decoded :=
  ⟨encoded.symbol, value, encoded.under, encoded.count, encoded.coder⟩

/-- A number in the part of a value leads to the node that the value leads to. -/
theorem contextDecodeLoop_eq {fuel under code minimum : Nat} {create : Bool}
    (hlinked : Linked coder place base distance tree) (hdistance : distance ≠ 0)
    (hapart : Apart place tree) (hordered : tree.Ordered low high) (hhigh : high ≤ 256)
    (hvalue : value < 256) (hpart : tree.InPart minimum under value code)
    (hmode : tree.Has value ∨ create = true ∧ minimum = 1) (hcounts : tree.Counts 255)
    (hsmall : under + tree.total + 256 * minimum < 2 ^ 16) :
    contextDecodeLoop code update minimum create fuel coder (base + distance) under =
      (contextEncodeLoop value update fuel coder (base + distance) (under + value * minimum)
        minimum).map fun encoded => encoded.decoded value := by
  induction tree generalizing coder base distance under low high fuel with
  | leaf => exact absurd hlinked hdistance
  | node left here number right ihl ihr =>
      obtain ⟨-, hplace, toLeft, toRight, hnode, hleft, hright⟩ := hlinked
      obtain ⟨-, hnumber, hcountsLeft, hcountsRight⟩ := hcounts
      have hhere := hordered.2.1
      cases fuel with
      | zero => rfl
      | succ fuel =>
      rw [FrequencyTree.total] at hsmall
      have hminimum : (here + 1) * minimum ≤ 256 * minimum := Nat.mul_le_mul_right _ (by omega)
      rw [hplace, contextDecodeLoop, hnode, except_ok_bind]
      have hafter : u16 (under + (left.total + number) + (here + 1) * minimum) =
          under + (left.total + number) + (here + 1) * minimum := Nat.mod_eq_of_lt (by omega)
      have hbefore : u16 (number + minimum) = number + minimum := Nat.mod_eq_of_lt (by omega)
      simp only [hafter, hbefore]
      rcases lt_trichotomy value here with hsmaller | hsame | hlarger
      · obtain ⟨hfront, hinner⟩ := FrequencyTree.part_left hpart hsmaller
        rw [if_neg (by omega), if_pos hfront]
        rw [contextEncodeLoop, hnode, except_ok_bind, if_pos hsmaller]
        by_cases hbranch : toLeft = 0
        · subst hbranch
          obtain rfl := hleft.eq_leaf
          obtain ⟨rfl, rfl⟩ : create = true ∧ minimum = 1 :=
            hmode.resolve_left fun hhas => (hordered.has_left hsmaller).mp hhas
          obtain rfl : code = under + value := by
            obtain ⟨hlow, hhigh⟩ := hinner
            simp only [FrequencyTree.before, FrequencyTree.count] at hlow hhigh
            omega
          have hread : u8 (here + 2 ^ 8 * ((under + (FrequencyTree.leaf.total + number) + (here + 1) * 1 -
              (number + 1) - (under + value) - 1) / 1 + 1) - 1 - (under + (FrequencyTree.leaf.total + number) +
              (here + 1) * 1 - (number + 1) - (under + value) - 1) / 1) = value := by
            rw [u8, FrequencyTree.total, Nat.div_one]
            omega
          have hfound : u16 (under + value + 2 ^ 16 - (under + (FrequencyTree.leaf.total + number) +
              (here + 1) * 1 - (number + 1) - (under + value) - 1) % 1) = under + value * 1 := by
            rw [u16, Nat.mod_one]
            omega
          simp only [ne_eq, not_true_eq_false, if_false, if_true, hread, hfound]
          cases ENetRangeCoder.symbolCreate _ value update <;> rfl
        · simp only [ne_eq, hbranch, not_false_eq_true, if_true]
          refine ihl (hleft.left_modifyNode hordered hapart _) hbranch hapart.toLeft hordered.2.2.1
            (by omega) hinner (hmode.imp_left (hordered.has_left hsmaller).mp) hcountsLeft (by omega)
      · obtain ⟨hfront, hbehind⟩ := FrequencyTree.part_here hpart hsame
        subst hsame
        rw [if_neg (by omega), if_neg (by omega), contextEncodeLoop, hnode, except_ok_bind,
          if_neg (lt_irrefl _), if_neg (lt_irrefl _)]
        have hunder : u16 (under + (left.total + number) + (value + 1) * minimum + 2 ^ 16 -
            (number + minimum)) = u16 (under + value * minimum + 2 ^ 16 + (left.total + number) -
              number) := by
          rw [Nat.succ_mul]
          congr 1
          omega
        simp only [hunder]
        rfl
      · obtain ⟨hbehind, hinner⟩ := FrequencyTree.part_right hpart hlarger
        have hunder : u16 (under + (left.total + number)) = under + (left.total + number) :=
          Nat.mod_eq_of_lt (by omega)
        rw [if_pos hbehind, contextEncodeLoop, hnode, except_ok_bind, if_neg hlarger.not_gt,
          if_pos hlarger]
        by_cases hbranch : toRight = 0
        · subst hbranch
          obtain rfl := hright.eq_leaf
          obtain ⟨rfl, rfl⟩ : create = true ∧ minimum = 1 :=
            hmode.resolve_left fun hhas => (hordered.has_right hlarger).mp hhas
          obtain rfl : code = under + (left.total + number) + value := by
            obtain ⟨hlow, hhigh⟩ := hinner
            simp only [FrequencyTree.before, FrequencyTree.count] at hlow hhigh
            omega
          have hread : u8 (here + 1 + (under + (left.total + number) + value -
              (under + (left.total + number) + (here + 1) * 1)) / 1) = value := by
            rw [u8, Nat.div_one]
            omega
          have hfound : u16 (under + (left.total + number) + value - (under + (left.total + number) +
              value - (under + (left.total + number) + (here + 1) * 1)) % 1) =
              u16 (under + value * 1 + (left.total + number)) := by
            rw [Nat.mod_one]
            congr 1
            omega
          simp only [ne_eq, not_true_eq_false, if_false, if_true, hread, hfound]
          cases ENetRangeCoder.symbolCreate _ value update <;> rfl
        · have hless : value * minimum ≤ 256 * minimum := Nat.mul_le_mul_right _ hvalue.le
          have hbehind' : u16 (under + value * minimum + (left.total + number)) =
              under + (left.total + number) + value * minimum := by
            rw [Nat.add_right_comm]
            exact Nat.mod_eq_of_lt (by omega)
          simp only [ne_eq, hbranch, not_false_eq_true, if_true, hunder, hbehind']
          exact ihr hright hbranch hapart.toRight hordered.2.2.2 hhigh hinner
            (hmode.imp_left (hordered.has_right hlarger).mp) hcountsRight (by omega)

theorem contextDecode_eq {entry : SymbolContext} {code minimum : Nat} {create : Bool}
    (hcontext : coder.context base = .ok entry)
    (hlinked : Linked coder place base entry.symbols tree) (hapart : Apart place tree)
    (hordered : tree.Ordered 0 256) (hvalue : value < 256)
    (hpart : tree.InPart minimum 0 value code)
    (hmode : tree.Has value ∨ create = true ∧ minimum = 1) (hcounts : tree.Counts 255)
    (hsmall : tree.total + 256 * minimum < 2 ^ 16) :
    contextDecode coder base code update minimum create =
      (contextEncode coder base value update minimum).map fun encoded => encoded.decoded value := by
  rw [contextDecode, contextEncode, hcontext, except_ok_bind, except_ok_bind]
  by_cases hempty : entry.symbols = 0
  · rw [hempty] at hlinked
    obtain rfl := hlinked.eq_leaf
    obtain ⟨rfl, rfl⟩ : create = true ∧ minimum = 1 := hmode.resolve_left id
    obtain rfl : code = value := by
      obtain ⟨hlow, hhigh⟩ := hpart
      simp only [FrequencyTree.before, FrequencyTree.count] at hlow hhigh
      omega
    have hread : u8 (code / 1) = code := by
      rw [Nat.div_one]
      exact Nat.mod_eq_of_lt hvalue
    have hfound : u16 (code - code % 1) = code * 1 := by
      rw [Nat.mod_one, u16]
      omega
    rw [if_pos hempty, if_pos hempty, if_pos rfl]
    simp only [hread, hfound]
    cases coder.symbolCreate code update <;> rfl
  · rw [if_neg hempty, if_neg hempty]
    have hloop := @contextDecodeLoop_eq coder place base entry.symbols tree value update 0 256
      symbolLimit 0 code minimum create hlinked hempty hapart hordered le_rfl hvalue hpart hmode
      hcounts (by omega)
    rw [hloop, Nat.zero_add]

/-! ### Rescaling -/

/-- Nothing but the tree's nodes has changed. -/
structure Rescaled (place : Nat → Nat) (tree : FrequencyTree) (before after : ENetRangeCoder) :
    Prop where
  nodes : ∀ symbol, (∀ other, tree.Has other → symbol ≠ place other) →
    after.node symbol = before.node symbol
  contexts : ∀ symbol, after.context symbol = before.context symbol
  length : after.symbols.length = before.symbols.length

theorem Rescaled.trans {first : ENetRangeCoder} {sub : FrequencyTree}
    (hfirst : Rescaled place tree coder first) (hafter : Rescaled place sub first after)
    (hsub : ∀ other, sub.Has other → tree.Has other) : Rescaled place tree coder after where
  nodes symbol hold := (hafter.nodes symbol fun other hother => hold other (hsub other hother)).trans
    (hfirst.nodes symbol hold)
  contexts symbol := (hafter.contexts symbol).trans (hfirst.contexts symbol)
  length := hafter.length.trans hfirst.length

theorem Rescaled.of_modifyNode (hhere : tree.Has here) (change : SymbolNode → SymbolNode) :
    Rescaled place tree coder (coder.modifyNode (place here) change) where
  nodes symbol hold := by
    rw [ENetRangeCoder.node_modifyNode, if_neg (hold here hhere)]
  contexts symbol := ENetRangeCoder.context_modifyNode _
  length := ENetRangeCoder.length_modifyNode _

/-- The subtree that a distance leads to, if there is one, is halved. -/
def Halves (coder : ENetRangeCoder) (place : Nat → Nat) (base distance : Nat) (tree : FrequencyTree)
    (fuel : Nat) : Prop :=
  ∃ after, coder.symbolRescale fuel (base + distance) = .ok (tree.halve.total, after) ∧
    Rescaled place tree coder after ∧ Linked after place base distance tree.halve

/-- The lines of `symbolRescale` in front of the loop to the right. -/
def rescaleLeft (fuel : Nat) (coder : ENetRangeCoder) (symbol : Nat) (entry : SymbolNode) :
    Except Stop (Nat × ENetRangeCoder) :=
  let count := entry.count - entry.count >>> 1
  let coder := coder.modifyNode symbol fun entry => { entry with count := count, under := count }
  if entry.left ≠ 0 then do
    let (inner, coder) ← coder.symbolRescale fuel (symbol + entry.left)
    let under := u16 (count + inner)
    .ok (under, coder.modifyNode symbol fun entry => { entry with under := under })
  else .ok (count, coder)

theorem symbolRescale_succ {fuel symbol : Nat} {entry : SymbolNode}
    (hnode : coder.node symbol = .ok entry) :
    coder.symbolRescale (fuel + 1) symbol = (do
      let (under, coder) ← rescaleLeft fuel coder symbol entry
      if entry.right = 0 then .ok (under, coder)
      else do
        let (rest, coder) ← coder.symbolRescale fuel (symbol + entry.right)
        .ok (u16 (under + rest), coder)) := by
  rw [ENetRangeCoder.symbolRescale, hnode, except_ok_bind, rescaleLeft]
  by_cases hleft : entry.left = 0
  · simp only [hleft, ne_eq, not_true_eq_false, if_false]
  · simp only [ne_eq, hleft, not_false_eq_true, if_true]
    cases ENetRangeCoder.symbolRescale fuel _ (symbol + entry.left) <;> rfl

section Halves

variable {fuel toLeft toRight : Nat}
  (hnode : coder.node (place here) = .ok ⟨here, number, left.total + number, toLeft, toRight⟩)
  (hleft : Linked coder place (place here) toLeft left)
  (hordered : (FrequencyTree.node left here number right).Ordered low high)
  (hapart : Apart place (.node left here number right))

include hnode hleft hordered hapart

theorem rescaleLeft_halves (htotal : left.halve.total + (number - number / 2) < 2 ^ 16)
    (hhalves : ∀ first : ENetRangeCoder, Linked first place (place here) toLeft left →
      toLeft ≠ 0 → Halves first place (place here) toLeft left fuel) :
    ∃ after, rescaleLeft fuel coder (place here) ⟨here, number, left.total + number, toLeft, toRight⟩ =
        .ok (left.halve.total + (number - number / 2), after) ∧
      Rescaled place (.node left here number .leaf) coder after ∧
      after.node (place here) = .ok ⟨here, number - number / 2,
        left.halve.total + (number - number / 2), toLeft, toRight⟩ ∧
      Linked after place (place here) toLeft left.halve := by
  have hhere : (FrequencyTree.node left here number .leaf).Has here := .inr (.inl rfl)
  have hne (other : Nat) (hother : left.Has other) : place other ≠ place here := fun hsame => by
    have hsmaller := hordered.2.2.1.mem hother
    exact hsmaller.2.ne (hapart other here (.inl hother) (.inr (.inl rfl)) hsame)
  set first := coder.modifyNode (place here) fun entry =>
    { entry with count := number - number >>> 1, under := number - number >>> 1 } with hfirst
  have hrescaled : Rescaled place (.node left here number .leaf) coder first :=
    Rescaled.of_modifyNode hhere _
  have hfirstNode : first.node (place here) =
      .ok ⟨here, number - number / 2, number - number / 2, toLeft, toRight⟩ := by
    rw [hfirst, ENetRangeCoder.node_modifyNode, if_pos rfl, hnode]
    rfl
  have hfirstLeft : Linked first place (place here) toLeft left :=
    hleft.left_modifyNode hordered hapart _
  rw [rescaleLeft]
  by_cases hbranch : toLeft = 0
  · subst hbranch
    obtain rfl := hleft.eq_leaf
    exact ⟨first, by simp [hfirst, FrequencyTree.halve, FrequencyTree.total, Nat.shiftRight_one],
      hrescaled, by rw [hfirstNode, FrequencyTree.halve, FrequencyTree.total, Nat.zero_add], rfl⟩
  · obtain ⟨second, hrescale, hsecond, hlinked⟩ := hhalves first hfirstLeft hbranch
    have hunder : u16 (number - number >>> 1 + left.halve.total) =
        left.halve.total + (number - number / 2) := by
      rw [u16, Nat.shiftRight_one, Nat.add_comm, Nat.mod_eq_of_lt htotal]
    refine ⟨second.modifyNode (place here) fun entry =>
        { entry with under := u16 (number - number >>> 1 + left.halve.total) }, ?_, ?_, ?_, ?_⟩
    · simp only [ne_eq, hbranch, not_false_eq_true, if_true]
      rw [← hfirst, hrescale, except_ok_bind, hunder]
    · exact (hrescaled.trans hsecond fun _ => .inl).trans (Rescaled.of_modifyNode hhere _) fun _ => id
    · rw [ENetRangeCoder.node_modifyNode, if_pos rfl,
        hsecond.nodes _ fun other hother => (hne other hother).symm, hfirstNode, hunder]
      rfl
    · refine hlinked.congr fun other hother => ?_
      rw [FrequencyTree.has_halve_iff] at hother
      rw [ENetRangeCoder.node_modifyNode, if_neg (hne other hother)]

end Halves

theorem symbolRescale_halves {fuel : Nat} (hlinked : Linked coder place base distance tree)
    (hdistance : distance ≠ 0) (hapart : Apart place tree) (hordered : tree.Ordered low high)
    (hfuel : tree.size ≤ fuel) (htotal : tree.halve.total < 2 ^ 16) :
    Halves coder place base distance tree fuel := by
  induction tree generalizing coder base distance low high fuel with
  | leaf => exact absurd hlinked hdistance
  | node left here number right ihl ihr =>
      obtain ⟨-, hplace, toLeft, toRight, hnode, hleft, hright⟩ := hlinked
      obtain ⟨fuel, rfl⟩ : ∃ rest, fuel = rest + 1 := by
        cases fuel with
        | zero => exact absurd hfuel (by rw [FrequencyTree.size]; omega)
        | succ fuel => exact ⟨fuel, rfl⟩
      rw [FrequencyTree.size] at hfuel
      rw [FrequencyTree.halve, FrequencyTree.total] at htotal
      have hsides := hordered.2.2
      have hne (other another : Nat) (hother : (FrequencyTree.node left here number right).Has other)
          (hanother : (FrequencyTree.node left here number right).Has another)
          (hvalues : other ≠ another) : place other ≠ place another :=
        fun hsame => hvalues (hapart other another hother hanother hsame)
      obtain ⟨first, hrescaleLeft, hfirst, hfirstNode, hfirstLeft⟩ :=
        @rescaleLeft_halves _ _ _ _ _ _ _ _ fuel _ _ hnode hleft hordered hapart (by omega) fun first hlinked hbranch =>
          ihl hlinked hbranch hapart.toLeft hsides.1 (by omega) (by omega)
      have hfirstRight : Linked first place (place here) toRight right :=
        hright.congr fun other hother => hfirst.nodes _ fun another hanother => by
          have hlarger := hsides.2.mem hother
          rcases hanother with hanother | rfl | hanother
          · have hsmaller := hsides.1.mem hanother
            exact hne other another (.inr (.inr hother)) (.inl hanother) (by omega)
          · exact hne other another (.inr (.inr hother)) (.inr (.inl rfl)) (by omega)
          · cases hanother
      have hinner (other : Nat) (hother : (FrequencyTree.node left here number .leaf).Has other) :
          (FrequencyTree.node left here number right).Has other := by
        rcases hother with hother | rfl | hother
        · exact .inl hother
        · exact .inr (.inl rfl)
        · cases hother
      rw [Halves, hplace, symbolRescale_succ hnode, hrescaleLeft, except_ok_bind]
      by_cases hbranch : toRight = 0
      · subst hbranch
        obtain rfl := hright.eq_leaf
        refine ⟨first, ?_, hfirst, hdistance, hplace, toLeft, 0, hfirstNode, hfirstLeft, hfirstRight⟩
        simp [FrequencyTree.halve, FrequencyTree.total]
      · have hhalves : Halves first place (place here) toRight right fuel :=
          ihr hfirstRight hbranch hapart.toRight hsides.2 (by omega) (by omega)
        obtain ⟨after, hrescale, hafter, hlinked⟩ := hhalves
        have hkept (other : Nat) (hother : (FrequencyTree.node left here number right).Has other)
            (hsmaller : other ≤ here) : after.node (place other) = first.node (place other) :=
          hafter.nodes _ fun another hanother => by
            have hlarger := hsides.2.mem hanother
            exact hne other another hother (.inr (.inr hanother)) (hsmaller.trans_lt hlarger.1).ne
        refine ⟨after, ?_, ?_, hdistance, hplace, toLeft, toRight, ?_, ?_, hlinked⟩
        · simp only [hbranch, if_false]
          rw [hrescale, except_ok_bind, u16, Nat.mod_eq_of_lt htotal, FrequencyTree.halve,
            FrequencyTree.total]
        · refine Rescaled.trans ⟨fun symbol hold => hfirst.nodes symbol fun other hother =>
            hold other (hinner other hother), hfirst.contexts, hfirst.length⟩ hafter
            fun _ hother => .inr (.inr hother)
        · rw [hkept here (.inr (.inl rfl)) le_rfl, hfirstNode]
        · refine hfirstLeft.congr fun other hother => ?_
          rw [FrequencyTree.has_halve_iff] at hother
          have hsmaller := hsides.1.mem hother
          rw [hkept other (.inl hother) (by omega)]

end Trees

end SrmotionProxy.ENet.Compress
