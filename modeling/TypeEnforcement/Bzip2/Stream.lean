/-
Compressed streams.

A stream is a header, any number of blocks, and a trailer with a check value.  What follows the
first stream does not count.

* `blockBytes` — the reader of a block after its mark;
* `decompress` — the bytes of a stream.
-/
import TypeEnforcement.Bzip2.Huffman
import TypeEnforcement.Bzip2.Transform

namespace TypeEnforcement.Bzip2

open BitReader

def blockMark : Nat := 0x314159265359

def trailerMark : Nat := 0x177245385090

/-- The number of symbols that are written with one code before the next is chosen. -/
def groupSize : Nat := 50

/-- The ones among sixteen flags, by their places. -/
def flagPlaces : BitReader (List Nat) := do
  let flags ← times 16 bit
  pure ((flags.zipIdx.filter fun entry => entry.1 = 1).map Prod.snd)

/-- Read which bytes occur in a block: which of sixteen ranges, and which bytes of these. -/
def usedBytes : BitReader (List UInt8) := do
  let ranges ← flagPlaces
  let places ← ranges.mapM fun range => do
    pure ((← flagPlaces).map fun place => UInt8.ofNat (range * 16 + place))
  pure places.flatten

/-- Read ones up to a zero, and answer their number, which is below `bound`. -/
def unary : Nat → BitReader Nat
  | 0 => failure
  | bound + 1 => do
    if (← bit) = 0 then pure 0
    else (· + 1) <$> unary bound

/-- Read which code each group of symbols is written with.  Codes are named by their places in a
list whose used entries move to the front. -/
def selectors (codes : Nat) : (count : Nat) → (front : List Nat) → BitReader (List Nat)
  | 0, _ => pure []
  | count + 1, front => do
    let place ← unary codes
    match front[place]? with
    | none => failure
    | some selected =>
      (selected :: ·) <$> selectors codes count (selected :: front.eraseIdx place)

/-- Read the length of a word, as steps from the length before.  Each step keeps inside the range of
lengths, and `bound` limits their number. -/
def codeLength : Nat → Nat → BitReader Nat
  | 0, _ => failure
  | bound + 1, length => do
    require (1 ≤ length && length ≤ maxCodeLength)
    if (← bit) = 0 then pure length
    else if (← bit) = 0 then codeLength bound (length + 1)
    else codeLength bound (length - 1)

/-- Read the lengths of the words of `count` symbols. -/
def codeLengths (bound : Nat) : (count : Nat) → (length : Nat) → BitReader (List Nat)
  | 0, _ => pure []
  | count + 1, length => do
    let next ← codeLength bound length
    (next :: ·) <$> codeLengths bound count next

/-- Read at most `count` symbols up to the last of a block; whether the last came. -/
def group (code : PrefixCode) (last : Nat) : Nat → BitReader (List Nat × Bool)
  | 0 => pure ([], false)
  | count + 1 => do
    let symbol ← code.decode
    if symbol = last then pure ([], true)
    else
      let (symbols, ended) ← group code last count
      pure (symbol :: symbols, ended)

/-- Read the symbols of a block, whose groups are written with the given codes. -/
def groups (last : Nat) : List PrefixCode → BitReader (List Nat)
  | [] => failure
  | code :: rest => do
    let (symbols, ended) ← group code last groupSize
    if ended then pure symbols else (symbols ++ ·) <$> groups last rest

/-- Read a block after its mark, for a stream whose blocks have at most `limit` bytes before their
runs are expanded.  Answers its bytes and its check value. -/
def blockBytes (limit : Nat) : BitReader (List UInt8 × UInt32) := do
  let expected ← bits 32
  require ((← bit) = 0)
  let origin ← bits 24
  let used ← usedBytes
  require (!used.isEmpty)
  let codeCount ← bits 3
  require (2 ≤ codeCount && codeCount ≤ 6)
  let selectorCount ← bits 15
  require (1 ≤ selectorCount)
  let selected ← selectors codeCount selectorCount (List.range codeCount)
  let symbolCount := used.length + 2
  let bound := 8 * (← get).bytes.size
  let codes ← times codeCount do
    let start ← bits 5
    PrefixCode.ofLengths <$> codeLengths bound symbolCount start
  let symbols ← groups (symbolCount - 1) (selected.filterMap (codes[·]?))
  match (Symbols.expand limit used symbols).bind (unsort · origin) with
  | none => failure
  | some sorted =>
    let bytes := expandRuns sorted
    require (Checksum.ofBytes bytes = UInt32.ofNat expected)
    pure (bytes, UInt32.ofNat expected)

/-- Read at most `bound` blocks and the trailer; `check` is the check value of the blocks before. -/
def blocks (limit : Nat) : (bound : Nat) → (check : UInt32) → BitReader (List UInt8)
  | 0, _ => failure
  | bound + 1, check => do
    let mark ← bits 48
    if mark = trailerMark then
      require ((← bits 32) = check.toNat)
      pure []
    else
      require (mark = blockMark)
      let (bytes, blockCheck) ← blockBytes limit
      (bytes ++ ·) <$> blocks limit bound (Checksum.combine check blockCheck)

def stream : BitReader (List UInt8) := do
  require ((← bits 24) = 0x425a68)
  let level ← bits 8
  require (0x31 ≤ level && level ≤ 0x39)
  blocks ((level - 0x30) * 100000) (8 * (← get).bytes.size) 0

/-- Whether bytes begin like a compressed stream. -/
def isCompressed (bytes : ByteArray) : Bool :=
  bytes.toList.take 3 = [0x42, 0x5a, 0x68]

/-- The bytes of the compressed stream at the start of some bytes. -/
def decompress (bytes : ByteArray) : Option ByteArray :=
  (stream { bytes }).map fun result => ⟨result.1.toArray⟩

end TypeEnforcement.Bzip2
