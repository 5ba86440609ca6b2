/-
Reading bits.

* `BitSource` — bytes, and the place in them of the next bit;
* `BitReader.bit`, `BitReader.bits` — the next bits, the most significant first.
-/

namespace TypeEnforcement.Bzip2

/-- Bytes that are read bit by bit. -/
structure BitSource where
  bytes : ByteArray
  /-- The number of bits that have been read. -/
  position : Nat := 0

/-- A reader of bits; it fails where it finds something wrong or nothing more. -/
abbrev BitReader (α : Type) := StateT BitSource Option α

namespace BitReader

def bit : BitReader Nat := fun source =>
  let place := source.position / 8
  if h : place < source.bytes.size then
    let byte := source.bytes[place].toNat
    some (byte / Nat.pow 2 (7 - source.position % 8) % 2,
      { source with position := source.position + 1 })
  else none

/-- Read a number of `count` bits that follows the bits of `high`. -/
def bitsAfter (high : Nat) : Nat → BitReader Nat
  | 0 => pure high
  | count + 1 => do
    let next ← bit
    bitsAfter (high * 2 + next) count

/-- Read a number of `count` bits. -/
def bits (count : Nat) : BitReader Nat :=
  bitsAfter 0 count

/-- Read the same thing several times. -/
def times {α : Type} (count : Nat) (item : BitReader α) : BitReader (List α) :=
  (List.replicate count ()).mapM fun _ => item

/-- Fail unless a condition holds. -/
def require (condition : Bool) : BitReader Unit :=
  if condition then pure () else failure

end BitReader

end TypeEnforcement.Bzip2
