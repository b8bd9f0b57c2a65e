/-
# The packet compressor

`enet/compress.c`: an adaptive range coder that predicts a byte from the two before it. All
hosts of the proxy send and receive through it. The table of symbols is one array; a symbol is
a node in the tree of one context and a context of its own, and `left`, `right` and `symbols`
are distances to later entries.

Numbers wrap as in the source. Reading a symbol that is not in use, creating one behind the
end of the table and dividing by zero are undefined; so is a loop that does not end within its
fuel, which never happens.
-/

import SrmotionProxy.Lib.Text

namespace SrmotionProxy.ENet.Compress

open SrmotionProxy.Lib

/-! ## Symbols -/

def ENET_RANGE_CODER_TOP : Nat := 1 <<< 24
def ENET_RANGE_CODER_BOTTOM : Nat := 1 <<< 16

def ENET_CONTEXT_SYMBOL_DELTA : Nat := 3
def ENET_CONTEXT_SYMBOL_MINIMUM : Nat := 1
def ENET_CONTEXT_ESCAPE_MINIMUM : Nat := 1

def ENET_SUBCONTEXT_ORDER : Nat := 2
def ENET_SUBCONTEXT_SYMBOL_DELTA : Nat := 2
def ENET_SUBCONTEXT_ESCAPE_DELTA : Nat := 5

/-- Entries of `ENetRangeCoder::symbols`. -/
def symbolLimit : Nat := 4096

/-- `ENetSymbol`, the binary indexed tree of symbols. -/
structure SymbolNode where
  value : Nat := 0
  count : Nat := 0
  under : Nat := 0
  left : Nat := 0
  right : Nat := 0
  deriving DecidableEq, Repr

/-- `ENetSymbol`, the context defined by this symbol. -/
structure SymbolContext where
  symbols : Nat := 0
  escapes : Nat := 0
  total : Nat := 0
  parent : Nat := 0
  deriving DecidableEq, Repr

structure ENetSymbol extends SymbolNode, SymbolContext
  deriving DecidableEq, Repr

/-- The symbols in use; `nextSymbol` is their number. -/
structure ENetRangeCoder where
  symbols : List ENetSymbol := []
  deriving DecidableEq, Repr

/-- A `return 0` in the middle, or undefined behaviour. -/
inductive Stop where
  | zero
  | undefined
  deriving DecidableEq, Repr

def u8 (number : Nat) : Nat := number % 2 ^ 8
def u16 (number : Nat) : Nat := number % 2 ^ 16
def u32 (number : Nat) : Nat := number % 2 ^ 32

namespace ENetRangeCoder

def node (coder : ENetRangeCoder) (symbol : Nat) : Except Stop SymbolNode :=
  match coder.symbols[symbol]? with
  | some entry => .ok entry.toSymbolNode
  | none => .error .undefined

def context (coder : ENetRangeCoder) (symbol : Nat) : Except Stop SymbolContext :=
  match coder.symbols[symbol]? with
  | some entry => .ok entry.toSymbolContext
  | none => .error .undefined

def modifyNode (coder : ENetRangeCoder) (symbol : Nat) (update : SymbolNode → SymbolNode) :
    ENetRangeCoder :=
  ⟨coder.symbols.modify symbol fun entry =>
    { entry with toSymbolNode := update entry.toSymbolNode }⟩

def modifyContext (coder : ENetRangeCoder) (symbol : Nat)
    (update : SymbolContext → SymbolContext) : ENetRangeCoder :=
  ⟨coder.symbols.modify symbol fun entry =>
    { entry with toSymbolContext := update entry.toSymbolContext }⟩

/-- `ENET_SYMBOL_CREATE`. -/
def symbolCreate (coder : ENetRangeCoder) (value count : Nat) :
    Except Stop (Nat × ENetRangeCoder) :=
  if coder.symbols.length < symbolLimit then
    .ok (coder.symbols.length,
      ⟨coder.symbols ++ [{ value := value, count := count, under := count }]⟩)
  else .error .undefined

/-- `ENET_CONTEXT_CREATE`. -/
def contextCreate (coder : ENetRangeCoder) (escapes minimum : Nat) :
    Except Stop (Nat × ENetRangeCoder) := do
  let (context, coder) ← coder.symbolCreate 0 0
  return (context, coder.modifyContext context fun entry =>
    { entry with escapes := escapes, total := u16 (escapes + 256 * minimum), symbols := 0 })

/-- `enet_symbol_rescale`; the last call stands for the loop to the right. -/
def symbolRescale : Nat → ENetRangeCoder → Nat → Except Stop (Nat × ENetRangeCoder)
  | 0, _, _ => .error .undefined
  | fuel + 1, coder, symbol => do
      let entry ← coder.node symbol
      let count := entry.count - entry.count >>> 1
      let coder := coder.modifyNode symbol fun entry => { entry with count := count, under := count }
      let (under, coder) ←
        if entry.left ≠ 0 then do
          let (inner, coder) ← symbolRescale fuel coder (symbol + entry.left)
          let under := u16 (count + inner)
          .ok (under, coder.modifyNode symbol fun entry => { entry with under := under })
        else .ok (count, coder)
      if entry.right = 0 then .ok (under, coder)
      else do
        let (rest, coder) ← symbolRescale fuel coder (symbol + entry.right)
        .ok (u16 (under + rest), coder)

/-- `ENET_CONTEXT_RESCALE`. -/
def contextRescale (coder : ENetRangeCoder) (context minimum : Nat) :
    Except Stop ENetRangeCoder := do
  let entry ← coder.context context
  let (total, coder) ←
    if entry.symbols ≠ 0 then symbolRescale symbolLimit coder (context + entry.symbols)
    else .ok (0, coder)
  let escapes := entry.escapes - entry.escapes >>> 1
  return coder.modifyContext context fun entry =>
    { entry with escapes := escapes, total := u16 (total + (escapes + 256 * minimum)) }

end ENetRangeCoder

/-! ## Writing -/

/-- `encodeLow`, `encodeRange` and what has been written of `outData`. -/
structure Encoder where
  low : Nat := 0
  range : Nat := 2 ^ 32 - 1
  out : Bytes := []
  deriving DecidableEq, Repr

namespace Encoder

/-- `ENET_RANGE_CODER_OUTPUT` of the leading byte, and the shifts behind it. -/
def output (limit : Nat) (encoder : Encoder) : Except Stop Encoder :=
  if limit ≤ encoder.out.length then .error .zero
  else .ok
    { low := u32 (encoder.low <<< 8)
      range := u32 (encoder.range <<< 8)
      out := encoder.out ++ [UInt8.ofNat (encoder.low >>> 24)] }

/-- The loop of `ENET_RANGE_CODER_ENCODE`. -/
def encodeLoop (limit : Nat) : Nat → Encoder → Except Stop Encoder
  | 0, _ => .error .undefined
  | fuel + 1, encoder =>
      if ENET_RANGE_CODER_TOP ≤ encoder.low ^^^ u32 (encoder.low + encoder.range) then
        if ENET_RANGE_CODER_BOTTOM ≤ encoder.range then .ok encoder
        else do
          let range := u32 (2 ^ 32 - encoder.low) &&& (ENET_RANGE_CODER_BOTTOM - 1)
          let encoder ← output limit { encoder with range := range }
          encodeLoop limit fuel encoder
      else do
        let encoder ← output limit encoder
        encodeLoop limit fuel encoder

/-- `ENET_RANGE_CODER_ENCODE`. -/
def encode (limit under count total : Nat) (encoder : Encoder) : Except Stop Encoder :=
  if total = 0 then .error .undefined
  else
    let range := encoder.range / total
    encodeLoop limit 6
      { encoder with
        low := u32 (encoder.low + u32 (under * range))
        range := u32 (range * count) }

/-- `ENET_RANGE_CODER_FLUSH`. -/
def flush (limit : Nat) : Nat → Encoder → Except Stop Encoder
  | 0, _ => .error .undefined
  | fuel + 1, encoder =>
      if encoder.low = 0 then .ok encoder
      else do
        let encoder ← output limit encoder
        flush limit fuel encoder

end Encoder

/-- What `ENET_CONTEXT_ENCODE` assigns. -/
structure Encoded where
  symbol : Nat
  under : Nat
  count : Nat
  coder : ENetRangeCoder
  deriving DecidableEq, Repr

/-- The loop of `ENET_CONTEXT_ENCODE`. -/
def contextEncodeLoop (value update : Nat) :
    Nat → ENetRangeCoder → (node under count : Nat) → Except Stop Encoded
  | 0, _, _, _, _ => .error .undefined
  | fuel + 1, coder, node, under, count => do
      let entry ← coder.node node
      if value < entry.value then
        let coder := coder.modifyNode node fun entry => { entry with under := u16 (entry.under + update) }
        if entry.left ≠ 0 then contextEncodeLoop value update fuel coder (node + entry.left) under count
        else do
          let (symbol, coder) ← coder.symbolCreate value update
          return ⟨symbol, under, count,
            coder.modifyNode node fun entry => { entry with left := u16 (symbol - node) }⟩
      else if entry.value < value then
        let under := u16 (under + entry.under)
        if entry.right ≠ 0 then contextEncodeLoop value update fuel coder (node + entry.right) under count
        else do
          let (symbol, coder) ← coder.symbolCreate value update
          return ⟨symbol, under, count,
            coder.modifyNode node fun entry => { entry with right := u16 (symbol - node) }⟩
      else
        return ⟨node, u16 (under + 2 ^ 16 + entry.under - entry.count), u16 (count + entry.count),
          coder.modifyNode node fun entry =>
            { entry with under := u16 (entry.under + update), count := u8 (entry.count + update) }⟩

/-- `ENET_CONTEXT_ENCODE`. -/
def contextEncode (coder : ENetRangeCoder) (context value update minimum : Nat) :
    Except Stop Encoded := do
  let entry ← coder.context context
  if entry.symbols = 0 then
    let (symbol, coder) ← coder.symbolCreate value update
    return ⟨symbol, value * minimum, minimum,
      coder.modifyContext context fun entry => { entry with symbols := u16 (symbol - context) }⟩
  else
    contextEncodeLoop value update symbolLimit coder (context + entry.symbols) (value * minimum) minimum

/-- The table, and the variable that the first `parent` points to. -/
structure Contexts where
  coder : ENetRangeCoder
  predicted : Nat
  deriving DecidableEq, Repr

namespace Contexts

/-- `* parent = symbol - rangeCoder -> symbols`; without a symbol, `parent` points to
`predicted`. -/
def store (contexts : Contexts) (parent : Option Nat) (symbol : Nat) : Contexts :=
  match parent with
  | none => { contexts with predicted := u16 symbol }
  | some owner =>
      { contexts with
        coder := contexts.coder.modifyContext owner fun entry => { entry with parent := u16 symbol } }

/-- A context that lacks the value grows by an escape. -/
def escape (contexts : Contexts) (subcontext : Nat) : Contexts :=
  { contexts with
    coder := contexts.coder.modifyContext subcontext fun entry =>
      { entry with
        escapes := u16 (entry.escapes + ENET_SUBCONTEXT_ESCAPE_DELTA)
        total := u16 (entry.total + ENET_SUBCONTEXT_ESCAPE_DELTA) } }

/-- The total grows by `delta`, and a context that has got too large is rescaled: with counts
above `top`, or a total near `ENET_RANGE_CODER_BOTTOM`. -/
def count (contexts : Contexts) (context count delta top minimum : Nat) :
    Except Stop Contexts := do
  let coder := contexts.coder.modifyContext context fun entry =>
    { entry with total := u16 (entry.total + delta) }
  let entry ← coder.context context
  if top < count ∨ ENET_RANGE_CODER_BOTTOM - 0x100 < entry.total then
    return { contexts with coder := ← coder.contextRescale context minimum }
  else return { contexts with coder := coder }

/-- `count` for a subcontext. -/
def countSubcontext (contexts : Contexts) (subcontext number : Nat) : Except Stop Contexts :=
  contexts.count subcontext number ENET_SUBCONTEXT_SYMBOL_DELTA
    (0xFF - 2 * ENET_SUBCONTEXT_SYMBOL_DELTA) 0

/-- `count` for the root. -/
def countRoot (contexts : Contexts) (number : Nat) : Except Stop Contexts :=
  contexts.count 0 number ENET_CONTEXT_SYMBOL_DELTA
    (0xFF - 2 * ENET_CONTEXT_SYMBOL_DELTA + ENET_CONTEXT_SYMBOL_MINIMUM)
    ENET_CONTEXT_SYMBOL_MINIMUM

/-- The lines behind `nextInput`: `predicted` for the next byte, and
`ENET_RANGE_CODER_FREE_SYMBOLS`. -/
def nextInput (contexts : Contexts) (order : Nat) : Except Stop (Contexts × Nat) := do
  let (contexts, order) ←
    if ENET_SUBCONTEXT_ORDER ≤ order then do
      let entry ← contexts.coder.context contexts.predicted
      Except.ok ({ contexts with predicted := entry.parent }, order)
    else .ok (contexts, order + 1)
  if symbolLimit - ENET_SUBCONTEXT_ORDER ≤ contexts.coder.symbols.length then
    let (_, coder) ← ENetRangeCoder.contextCreate {} ENET_CONTEXT_ESCAPE_MINIMUM
      ENET_CONTEXT_SYMBOL_MINIMUM
    return (⟨coder, 0⟩, 0)
  else return (contexts, order)

end Contexts

/-! ## Compressing -/

structure Compressor where
  contexts : Contexts
  order : Nat
  encoder : Encoder
  deriving DecidableEq, Repr

/-- The loop over the subcontexts of a byte. It ends with `true` where one of them has the
value; otherwise the root is next, with this `parent`. -/
def encodeSubcontexts (limit value : Nat) : Nat → Contexts → Encoder → (subcontext : Nat) →
    (parent : Option Nat) → Except Stop (Contexts × Encoder × Option Nat × Bool)
  | 0, _, _, _, _ => .error .undefined
  | fuel + 1, contexts, encoder, subcontext, parent =>
      if subcontext = 0 then .ok (contexts, encoder, parent, false)
      else do
        let ⟨symbol, under, count, coder⟩ ←
          contextEncode contexts.coder subcontext value ENET_SUBCONTEXT_SYMBOL_DELTA 0
        let contexts := ({ contexts with coder := coder } : Contexts).store parent symbol
        let entry ← contexts.coder.context subcontext
        if 0 < count then
          let encoder ← encoder.encode limit (entry.escapes + under) count entry.total
          let contexts ← contexts.countSubcontext subcontext count
          return (contexts, encoder, some symbol, true)
        else
          let encoder ←
            if 0 < entry.escapes ∧ entry.escapes < entry.total then
              encoder.encode limit 0 entry.escapes entry.total
            else .ok encoder
          let contexts ← (contexts.escape subcontext).countSubcontext subcontext count
          let entry ← contexts.coder.context subcontext
          encodeSubcontexts limit value fuel contexts encoder entry.parent (some symbol)

/-- One byte of the input. -/
def compressByte (limit : Nat) (compressor : Compressor) (value : Nat) :
    Except Stop Compressor := do
  let ⟨contexts, order, encoder⟩ := compressor
  let (contexts, encoder, parent, found) ←
    encodeSubcontexts limit value symbolLimit contexts encoder contexts.predicted none
  let (contexts, encoder) ←
    if found then Except.ok (contexts, encoder)
    else do
      let ⟨symbol, under, count, coder⟩ ← contextEncode contexts.coder 0 value
        ENET_CONTEXT_SYMBOL_DELTA ENET_CONTEXT_SYMBOL_MINIMUM
      let contexts := ({ contexts with coder := coder } : Contexts).store parent symbol
      let root ← contexts.coder.context 0
      let encoder ← encoder.encode limit (root.escapes + under) count root.total
      let contexts ← contexts.countRoot count
      Except.ok (contexts, encoder)
  let (contexts, order) ← contexts.nextInput order
  return ⟨contexts, order, encoder⟩

/-- The bytes of one buffer. -/
def compressBytes (limit : Nat) (compressor : Compressor) (bytes : Bytes) :
    Except Stop Compressor :=
  bytes.foldlM (fun compressor byte => compressByte limit compressor byte.toNat) compressor

/-- The buffers behind the first one; a byte of an empty one is behind its end. -/
def compressBuffers (limit : Nat) (compressor : Compressor) : List Bytes → Except Stop Compressor
  | [] => .ok compressor
  | [] :: _ => .error .undefined
  | buffer :: buffers => do
      let compressor ← compressBytes limit compressor buffer
      compressBuffers limit compressor buffers

/-- `enet_range_coder_compress`: what has been written when it returns. -/
def compressInto (inBuffers : List Bytes) (inLimit outLimit : Nat) : Except Stop Bytes :=
  match inBuffers with
  | [] => .error .zero
  | first :: buffers =>
      if inLimit = 0 then .error .zero
      else do
        let (_, coder) ← ENetRangeCoder.contextCreate {} ENET_CONTEXT_ESCAPE_MINIMUM
          ENET_CONTEXT_SYMBOL_MINIMUM
        let compressor ← compressBytes outLimit ⟨⟨coder, 0⟩, 0, {}⟩ first
        let compressor ← compressBuffers outLimit compressor buffers
        let encoder ← compressor.encoder.flush outLimit 5
        return encoder.out

/-- The bytes that count: none after a `return 0`. -/
def returned (result : Except Stop Bytes) : Except Abort Bytes :=
  match result with
  | .ok out => .ok out
  | .error .zero => .ok []
  | .error .undefined => .error .undefinedBehaviour

/-- `enet_range_coder_compress`. -/
def enetRangeCoderCompress (inBuffers : List Bytes) (inLimit outLimit : Nat) :
    Except Abort Bytes :=
  returned (compressInto inBuffers inLimit outLimit)

/-! ## Reading -/

/-- `decodeLow`, `decodeRange`, `decodeCode` and the rest of `inData`. -/
structure Decoder where
  low : Nat := 0
  range : Nat := 2 ^ 32 - 1
  code : Nat := 0
  input : Bytes
  deriving DecidableEq, Repr

namespace Decoder

/-- One line of `ENET_RANGE_CODER_SEED`. -/
def take (decoder : Decoder) (places : Nat) : Decoder :=
  match decoder.input with
  | [] => decoder
  | byte :: input => { decoder with code := decoder.code ||| byte.toNat <<< places, input := input }

/-- `ENET_RANGE_CODER_SEED`. -/
def seed (input : Bytes) : Decoder :=
  ((({ input := input : Decoder }.take 24).take 16).take 8).take 0

/-- The shifts of `ENET_RANGE_CODER_DECODE`. -/
def shift (decoder : Decoder) : Decoder :=
  let decoder := { decoder with code := u32 (decoder.code <<< 8) }.take 0
  { decoder with range := u32 (decoder.range <<< 8), low := u32 (decoder.low <<< 8) }

/-- The loop of `ENET_RANGE_CODER_DECODE`. -/
def decodeLoop : Nat → Decoder → Except Stop Decoder
  | 0, _ => .error .undefined
  | fuel + 1, decoder =>
      if ENET_RANGE_CODER_TOP ≤ decoder.low ^^^ u32 (decoder.low + decoder.range) then
        if ENET_RANGE_CODER_BOTTOM ≤ decoder.range then .ok decoder
        else
          let range := u32 (2 ^ 32 - decoder.low) &&& (ENET_RANGE_CODER_BOTTOM - 1)
          decodeLoop fuel { decoder with range := range }.shift
      else decodeLoop fuel decoder.shift

/-- `ENET_RANGE_CODER_READ`, stored in a 16-bit `code`. -/
def read (decoder : Decoder) (total : Nat) : Except Stop (Nat × Decoder) :=
  if total = 0 then .error .undefined
  else
    let range := decoder.range / total
    if range = 0 then .error .undefined
    else .ok (u16 (u32 (decoder.code + (2 ^ 32 - decoder.low)) / range),
      { decoder with range := range })

/-- `ENET_RANGE_CODER_DECODE`; the range has been divided by the total before. -/
def decode (decoder : Decoder) (under count : Nat) : Except Stop Decoder :=
  decodeLoop 6
    { decoder with
      low := u32 (decoder.low + u32 (under * decoder.range))
      range := u32 (decoder.range * count) }

end Decoder

/-- What `ENET_CONTEXT_DECODE` assigns. -/
structure Decoded where
  symbol : Nat
  value : Nat
  under : Nat
  count : Nat
  coder : ENetRangeCoder
  deriving DecidableEq, Repr

/-- The loop of `ENET_CONTEXT_DECODE`. With `create` it is `ENET_CONTEXT_ROOT_DECODE`, without
it `ENET_CONTEXT_TRY_DECODE`. -/
def contextDecodeLoop (code update minimum : Nat) (create : Bool) :
    Nat → ENetRangeCoder → (node under : Nat) → Except Stop Decoded
  | 0, _, _, _ => .error .undefined
  | fuel + 1, coder, node, under => do
      let entry ← coder.node node
      let after := u16 (under + entry.under + (entry.value + 1) * minimum)
      let before := u16 (entry.count + minimum)
      if after ≤ code then
        let under := u16 (under + entry.under)
        if entry.right ≠ 0 then
          contextDecodeLoop code update minimum create fuel coder (node + entry.right) under
        else if create then do
          let value := u8 (entry.value + 1 + (code - after) / minimum)
          let (symbol, coder) ← coder.symbolCreate value update
          return ⟨symbol, value, u16 (code - (code - after) % minimum), minimum,
            coder.modifyNode node fun entry => { entry with right := u16 (symbol - node) }⟩
        else .error .zero
      else if code + before < after then
        let coder := coder.modifyNode node fun entry => { entry with under := u16 (entry.under + update) }
        if entry.left ≠ 0 then
          contextDecodeLoop code update minimum create fuel coder (node + entry.left) under
        else if create then do
          let distance := after - before - code - 1
          let value := u8 (entry.value + 2 ^ 8 * (distance / minimum + 1) - 1 - distance / minimum)
          let (symbol, coder) ← coder.symbolCreate value update
          return ⟨symbol, value, u16 (code + 2 ^ 16 - distance % minimum), minimum,
            coder.modifyNode node fun entry => { entry with left := u16 (symbol - node) }⟩
        else .error .zero
      else
        return ⟨node, entry.value, u16 (after + 2 ^ 16 - before), u16 (minimum + entry.count),
          coder.modifyNode node fun entry =>
            { entry with under := u16 (entry.under + update), count := u8 (entry.count + update) }⟩

/-- `ENET_CONTEXT_DECODE`. -/
def contextDecode (coder : ENetRangeCoder) (context code update minimum : Nat) (create : Bool) :
    Except Stop Decoded := do
  let entry ← coder.context context
  if entry.symbols = 0 then
    if create then do
      let value := u8 (code / minimum)
      let (symbol, coder) ← coder.symbolCreate value update
      return ⟨symbol, value, u16 (code - code % minimum), minimum,
        coder.modifyContext context fun entry => { entry with symbols := u16 (symbol - context) }⟩
    else .error .zero
  else
    contextDecodeLoop code update minimum create symbolLimit coder (context + entry.symbols) 0

/-! ## Decompressing -/

structure Decompressor where
  contexts : Contexts
  order : Nat
  decoder : Decoder
  out : Bytes := []
  deriving DecidableEq, Repr

/-- A symbol that has been read: its context, the symbol and its value. -/
structure Found where
  subcontext : Nat
  bottom : Nat
  value : Nat
  deriving DecidableEq, Repr

/-- The loop over the subcontexts of a byte. Without a symbol, the root is next. -/
def decodeSubcontexts : Nat → Contexts → Decoder → (subcontext : Nat) →
    Except Stop (Option Found × Contexts × Decoder)
  | 0, _, _, _ => .error .undefined
  | fuel + 1, contexts, decoder, subcontext =>
      if subcontext = 0 then .ok (none, contexts, decoder)
      else do
        let entry ← contexts.coder.context subcontext
        if entry.escapes = 0 ∨ entry.total ≤ entry.escapes then
          decodeSubcontexts fuel contexts decoder entry.parent
        else
          let (code, decoder) ← decoder.read entry.total
          if code < entry.escapes then
            let decoder ← decoder.decode 0 entry.escapes
            decodeSubcontexts fuel contexts decoder entry.parent
          else
            let ⟨symbol, value, under, count, coder⟩ ← contextDecode contexts.coder subcontext
              (code - entry.escapes) ENET_SUBCONTEXT_SYMBOL_DELTA 0 false
            let decoder ← decoder.decode (entry.escapes + under) count
            let contexts ← ({ contexts with coder := coder } : Contexts).countSubcontext subcontext count
            return (some ⟨subcontext, symbol, value⟩, contexts, decoder)

/-- The root context; an escape there ends the data. -/
def decodeRoot (contexts : Contexts) (decoder : Decoder) :
    Except Stop (Option Found × Contexts × Decoder) := do
  let root ← contexts.coder.context 0
  let (code, decoder) ← decoder.read root.total
  if code < root.escapes then
    let decoder ← decoder.decode 0 root.escapes
    return (none, contexts, decoder)
  else
    let ⟨symbol, value, under, count, coder⟩ ← contextDecode contexts.coder 0 (code - root.escapes)
      ENET_CONTEXT_SYMBOL_DELTA ENET_CONTEXT_SYMBOL_MINIMUM true
    let decoder ← decoder.decode (root.escapes + under) count
    let contexts ← ({ contexts with coder := coder } : Contexts).countRoot count
    return (some ⟨0, symbol, value⟩, contexts, decoder)

/-- The loop behind `patchContexts`: the contexts in front of the one that had the symbol learn
it now. -/
def patchContexts (value subcontext : Nat) : Nat → Contexts → (patch : Nat) →
    (parent : Option Nat) → Except Stop (Contexts × Option Nat)
  | 0, _, _, _ => .error .undefined
  | fuel + 1, contexts, patch, parent =>
      if patch = subcontext then .ok (contexts, parent)
      else do
        let ⟨symbol, _, count, coder⟩ ←
          contextEncode contexts.coder patch value ENET_SUBCONTEXT_SYMBOL_DELTA 0
        let contexts := ({ contexts with coder := coder } : Contexts).store parent symbol
        let contexts := if count = 0 then contexts.escape patch else contexts
        let contexts ← contexts.countSubcontext patch count
        let entry ← contexts.coder.context patch
        patchContexts value subcontext fuel contexts entry.parent (some symbol)

/-- One byte of the output, or the end. -/
def decompressByte (limit : Nat) (decompressor : Decompressor) :
    Except Stop (Option Decompressor) := do
  let ⟨contexts, order, decoder, out⟩ := decompressor
  let (found, contexts, decoder) ←
    decodeSubcontexts symbolLimit contexts decoder contexts.predicted
  let (found, contexts, decoder) ←
    match found with
    | some symbol => Except.ok (some symbol, contexts, decoder)
    | none => decodeRoot contexts decoder
  match found with
  | none => return none
  | some ⟨subcontext, bottom, value⟩ =>
      let (contexts, parent) ←
        patchContexts value subcontext symbolLimit contexts contexts.predicted none
      let contexts := contexts.store parent bottom
      if limit ≤ out.length then .error .zero
      else
        let (contexts, order) ← contexts.nextInput order
        return some ⟨contexts, order, decoder, out ++ [UInt8.ofNat value]⟩

/-- The loop of `enet_range_coder_decompress`; each round but the last writes a byte. -/
def decompressLoop (limit : Nat) : Nat → Decompressor → Except Stop Bytes
  | 0, _ => .error .undefined
  | fuel + 1, decompressor => do
      match ← decompressByte limit decompressor with
      | none => return decompressor.out
      | some decompressor => decompressLoop limit fuel decompressor

def decompressFrom (inData : Bytes) (outLimit : Nat) : Except Stop Bytes :=
  if inData = [] then .error .zero
  else do
    let (_, coder) ← ENetRangeCoder.contextCreate {} ENET_CONTEXT_ESCAPE_MINIMUM
      ENET_CONTEXT_SYMBOL_MINIMUM
    decompressLoop outLimit (outLimit + 1) ⟨⟨coder, 0⟩, 0, Decoder.seed inData, []⟩

/-- `enet_range_coder_decompress`. -/
def enetRangeCoderDecompress (inData : Bytes) (outLimit : Nat) : Except Abort Bytes :=
  returned (decompressFrom inData outLimit)

end SrmotionProxy.ENet.Compress
