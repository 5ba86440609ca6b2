/-
The transforms that a block of a compressed stream undoes.

* `Symbols.expand` — symbols to bytes: runs of the front byte, and places in a list whose used
  entries move to the front;
* `unsort` — the inverse of the block-sorting transform;
* `expandRuns` — four equal bytes and a count to a run;
* `Checksum.ofBytes` — the check value of bytes.
-/

namespace TypeEnforcement.Bzip2

/-! ### Symbols -/

/-- The expansion of symbols under way. -/
structure Symbols where
  /-- The bytes that occur in the block, the one used last in front. -/
  front : List UInt8
  bytes : Array UInt8 := #[]
  /-- The length of the run that is being read, and what the next digit of it counts. -/
  run : Nat := 0
  weight : Nat := 1

namespace Symbols

/-- The bytes with the run that was being read. -/
def flush (limit : Nat) (state : Symbols) : Option Symbols :=
  if state.run = 0 then some state
  else if limit < state.bytes.size + state.run then none
  else match state.front with
    | [] => none
    | byte :: _ =>
      some { state with
        bytes := state.bytes ++ Array.replicate state.run byte, run := 0, weight := 1 }

/-- Read one symbol.  The first two are the digits one and two of the length of a run, in which each
digit counts twice as much as the one before; the others are places behind the front. -/
def step (limit : Nat) (state : Symbols) (symbol : Nat) : Option Symbols :=
  if symbol ≤ 1 then
    if limit < state.run then none
    else some { state with
      run := state.run + (symbol + 1) * state.weight, weight := state.weight * 2 }
  else do
    let state ← state.flush limit
    let place := symbol - 1
    let byte ← state.front[place]?
    if limit ≤ state.bytes.size then none
    some { state with
      front := byte :: state.front.eraseIdx place, bytes := state.bytes.push byte }

/-- The bytes of symbols, at most `limit` of them. -/
def expand (limit : Nat) (used : List UInt8) (symbols : List Nat) : Option (Array UInt8) := do
  let state ← symbols.foldlM (step limit) { front := used }
  let state ← state.flush limit
  some state.bytes

end Symbols

/-! ### Sorting -/

/-- Follow the links from a place, and answer the bytes on the way. -/
def follow (bytes : Array UInt8) (links : Array Nat) : Nat → Nat → List UInt8
  | 0, _ => []
  | count + 1, place => bytes.getD place 0 :: follow bytes links count (links.getD place 0)

/-- The bytes before they were sorted by what follows them.  The places in the order of their bytes
link each byte to the next one; `origin` is the place whose link leads to the first. -/
def unsort (bytes : Array UInt8) (origin : Nat) : Option (List UInt8) :=
  if origin < bytes.size then
    let links := ((List.range bytes.size).mergeSort fun i j =>
      bytes.getD i 0 ≤ bytes.getD j 0).toArray
    some (follow bytes links bytes.size (links.getD origin 0))
  else none

/-! ### Runs -/

/-- The bytes with their runs expanded: after `count` equal bytes `last`, of which the fourth is
followed by the number of further ones. -/
def expandRunsFrom (last : UInt8) (count : Nat) : List UInt8 → List UInt8
  | [] => []
  | byte :: rest =>
    if count = 4 then List.replicate byte.toNat last ++ expandRunsFrom last 0 rest
    else if count ≠ 0 ∧ byte = last then byte :: expandRunsFrom last (count + 1) rest
    else byte :: expandRunsFrom byte 1 rest

def expandRuns (bytes : List UInt8) : List UInt8 :=
  expandRunsFrom 0 0 bytes

/-! ### Check values -/

namespace Checksum

/-- The remainder of one more zero bit. -/
def shift (value : UInt32) : UInt32 :=
  if value &&& 0x80000000 = 0 then value <<< 1 else (value <<< 1) ^^^ 0x04c11db7

/-- The remainder of one more byte. -/
def update (value : UInt32) (byte : UInt8) : UInt32 :=
  Nat.repeat shift 8 (value ^^^ (byte.toUInt32 <<< 24))

/-- The check value of bytes. -/
def ofBytes (bytes : List UInt8) : UInt32 :=
  ~~~bytes.foldl update 0xffffffff

/-- The check value of a stream with one more block. -/
def combine (stream block : UInt32) : UInt32 :=
  ((stream <<< 1) ||| (stream >>> 31)) ^^^ block

end Checksum

end TypeEnforcement.Bzip2
