/-
Canonical prefix codes.

A canonical code is given by the lengths of its words alone: shorter words come first, words of one
length are ordered by their symbols, and each word is the least one that no earlier word begins.

* `PrefixCode.ofLengths` — the code with given lengths;
* `PrefixCode.decode` — the symbol of the next word.
-/
import TypeEnforcement.Bzip2.Bits

namespace TypeEnforcement.Bzip2

/-- The longest word of a code. -/
def maxCodeLength : Nat := 20

/-- A prefix code: for each length, from one on, the symbols with words of that length, in order. -/
structure PrefixCode where
  symbolsByLength : List (Array Nat)

namespace PrefixCode

/-- The code whose symbols have words of given lengths. -/
def ofLengths (lengths : List Nat) : PrefixCode :=
  let indexed := lengths.zipIdx
  { symbolsByLength := (List.range maxCodeLength).map fun shorter =>
      ((indexed.filter fun entry => entry.1 = shorter + 1).map Prod.snd).toArray }

/-- Read the rest of a word.  `word` is the value of the bits read so far, `first` the value of the
first word that would be as long, which is no greater, and the list has the symbols of the longer
words. -/
def decodeFrom (word first : Nat) : List (Array Nat) → BitReader Nat
  | [] => failure
  | symbols :: longer => do
    let word := word * 2 + (← BitReader.bit)
    let first := first * 2
    match symbols[word - first]? with
    | some symbol => pure symbol
    | none => decodeFrom word (first + symbols.size) longer

/-- Read a word, and answer its symbol. -/
def decode (code : PrefixCode) : BitReader Nat :=
  decodeFrom 0 0 code.symbolsByLength

end PrefixCode

end TypeEnforcement.Bzip2
