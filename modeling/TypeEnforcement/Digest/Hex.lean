/-
Bytes written in lower-case hexadecimal.

Main statements:
* `hexDigit_mem` — a digit is one of `0` to `9` and `a` to `f`;
* `length_hexOf` — two digits per byte.
-/

namespace TypeEnforcement.Digest

/-- The sixteen hexadecimal digits, in order. -/
def hexDigits : List Char :=
  ['0', '1', '2', '3', '4', '5', '6', '7', '8', '9', 'a', 'b', 'c', 'd', 'e', 'f']

/-- The digit of the low four bits of a number. -/
def hexDigit (n : Nat) : Char :=
  hexDigits.getD (n % 16) '0'

/-- Two digits per byte, the high one first. -/
def hexOf (bytes : List UInt8) : List Char :=
  bytes.flatMap fun b => [hexDigit (b.toNat / 16), hexDigit b.toNat]

theorem hexDigit_mem (n : Nat) : hexDigit n ∈ hexDigits := by
  have h : n % 16 < hexDigits.length := Nat.mod_lt _ (by decide)
  rw [hexDigit, List.getD_eq_getElem?_getD, List.getElem?_eq_getElem h, Option.getD_some]
  exact List.getElem_mem h

theorem mem_hexOf {bytes : List UInt8} {c : Char} (h : c ∈ hexOf bytes) : c ∈ hexDigits := by
  simp only [hexOf, List.mem_flatMap, List.mem_cons, List.not_mem_nil, or_false] at h
  obtain ⟨b, _, rfl | rfl⟩ := h <;> exact hexDigit_mem _

theorem length_hexOf (bytes : List UInt8) : (hexOf bytes).length = 2 * bytes.length := by
  induction bytes with
  | nil => rfl
  | cons b rest ih =>
    rw [hexOf, List.flatMap_cons, List.length_append, ← hexOf, ih]
    simp only [List.length_cons, List.length_nil]
    omega

end TypeEnforcement.Digest
