/-
Reading UTF-8.

`decodeStrict` refuses bytes that are no UTF-8.  `decodeLossy` reads any bytes: each maximal start
of a broken sequence becomes one replacement character.  It is a fold of an automaton whose state
is the sequence being read.

* `Sequence` — a sequence under way: its value so far, how many bytes are missing, and the range
  the next byte must lie in;
* `decodeLossy` — the text with broken sequences replaced.
-/

namespace TypeEnforcement.Text

/-- The character that stands for a broken byte sequence. -/
def replacement : Char := '\ufffd'

/-- A multi-byte sequence under way. -/
structure Sequence where
  value : Nat
  missing : Nat
  lo : Nat
  hi : Nat

/-- The state of the lossy reader: the characters read, last first, and the sequence under way. -/
structure LossyState where
  done : List Char
  pending : Option Sequence

/-- Begin a sequence with a byte, or finish at once where the byte stands alone or is broken. -/
def LossyState.start (done : List Char) (b : Nat) : LossyState :=
  if b < 0x80 then ⟨Char.ofNat b :: done, none⟩
  else if 0xc2 ≤ b ∧ b ≤ 0xdf then ⟨done, some ⟨b - 0xc0, 1, 0x80, 0xbf⟩⟩
  else if b = 0xe0 then ⟨done, some ⟨0, 2, 0xa0, 0xbf⟩⟩
  else if b = 0xed then ⟨done, some ⟨0xd, 2, 0x80, 0x9f⟩⟩
  else if 0xe1 ≤ b ∧ b ≤ 0xef then ⟨done, some ⟨b - 0xe0, 2, 0x80, 0xbf⟩⟩
  else if b = 0xf0 then ⟨done, some ⟨0, 3, 0x90, 0xbf⟩⟩
  else if b = 0xf4 then ⟨done, some ⟨4, 3, 0x80, 0x8f⟩⟩
  else if 0xf1 ≤ b ∧ b ≤ 0xf3 then ⟨done, some ⟨b - 0xf0, 3, 0x80, 0xbf⟩⟩
  else ⟨replacement :: done, none⟩

/-- Read one byte. -/
def LossyState.step (state : LossyState) (byte : UInt8) : LossyState :=
  let b := byte.toNat
  match state.pending with
  | none => .start state.done b
  | some seq =>
    if seq.lo ≤ b ∧ b ≤ seq.hi then
      let value := seq.value * 64 + (b - 0x80)
      if seq.missing ≤ 1 then ⟨Char.ofNat value :: state.done, none⟩
      else ⟨state.done, some ⟨value, seq.missing - 1, 0x80, 0xbf⟩⟩
    else
      .start (replacement :: state.done) b

/-- The characters read, in order; a sequence cut short by the end is replaced. -/
def LossyState.finish (state : LossyState) : List Char :=
  match state.pending with
  | none => state.done.reverse
  | some _ => (replacement :: state.done).reverse

/-- The text of any bytes, broken sequences replaced. -/
def decodeLossy (bytes : ByteArray) : String :=
  String.ofList (bytes.toList.foldl LossyState.step ⟨[], none⟩).finish

def decodeStrict (bytes : ByteArray) : Option String :=
  String.fromUTF8? bytes

end TypeEnforcement.Text
