/-
Reading a module store that holds one module of a project.

The declarations of a module are a file of the store.  Its bytes are those of a text, and what is
read is this text again, unless it begins like a compressed stream.

* `ModuleStore.HoldsOnly` — the store holds one module, with one priority.

Main statements:
* `decodeLossy_toByteArray` — a text that is written is read;
* `readBounded_repr` — a number that is written is read;
* `installedAmong_of_holdsOnly` — what is found in a store with one module.
-/
import TypeEnforcement.Store.Basic

namespace TypeEnforcement

/-! ### Texts -/

namespace Text

theorem toList_bytes (bytes : ByteArray) : bytes.toList = bytes.data.toList := by
  -- The loop has the bytes before `i` in `done`, the last one first.
  have hloop (i : Nat) (done : List UInt8) :
      ByteArray.toList.loop bytes i done = done.reverse ++ bytes.data.toList.drop i := by
    induction i, done using ByteArray.toList.loop.induct bytes with
    | case1 i done hi ih =>
      have hlt : i < bytes.data.toList.length := hi
      have hget : bytes.get! i = bytes.data.toList[i] := getElem!_pos bytes.data i hi
      rw [ByteArray.toList.loop, if_pos hi, ih, List.drop_eq_getElem_cons hlt, hget,
        List.reverse_cons, List.append_assoc]
      rfl
    | case2 i done hi =>
      rw [ByteArray.toList.loop, if_neg hi, List.drop_of_length_le (Nat.le_of_not_lt hi),
        List.append_nil]
  exact hloop 0 []

theorem toList_toByteArray (text : String) :
    text.toByteArray.toList = text.toList.flatMap String.utf8EncodeChar := by
  have hbytes : text.toByteArray = (text.toList.flatMap String.utf8EncodeChar).toByteArray :=
    String.utf8Encode_toList.symm
  rw [toList_bytes, hbytes, List.data_toByteArray]

namespace LossyState

variable {done : List Char} {byte : UInt8} {b value missing lo hi : Nat}

/-- A byte that continues a sequence, but does not end it. -/
theorem step_continue (hlo : lo ≤ byte.toNat) (hhi : byte.toNat ≤ hi) :
    step ⟨done, some ⟨value, missing + 2, lo, hi⟩⟩ byte =
      ⟨done, some ⟨value * 64 + (byte.toNat - 0x80), missing + 1, 0x80, 0xbf⟩⟩ := by
  have hmissing : ¬missing + 2 ≤ 1 := by omega
  simp [step, hlo, hhi, hmissing]

/-- A byte that ends a sequence. -/
theorem step_end {c : Char} (hlo : lo ≤ byte.toNat) (hhi : byte.toNat ≤ hi)
    (hvalue : value * 64 + (byte.toNat - 0x80) = c.val.toNat) :
    step ⟨done, some ⟨value, 1, lo, hi⟩⟩ byte = ⟨c :: done, none⟩ := by
  simp [step, hlo, hhi, hvalue]

theorem start_two (hlo : 0xc2 ≤ b) (hhi : b ≤ 0xdf) :
    start done b = ⟨done, some ⟨b - 0xc0, 1, 0x80, 0xbf⟩⟩ := by
  unfold start
  rw [if_neg (by omega), if_pos ⟨hlo, hhi⟩]

/-- A sequence of three bytes has no needless length and no half of a pair. -/
theorem start_three (hlo : 0xe0 ≤ b) (hhi : b ≤ 0xef) :
    start done b = ⟨done, some ⟨b - 0xe0, 2, if b = 0xe0 then 0xa0 else 0x80,
      if b = 0xed then 0x9f else 0xbf⟩⟩ := by
  unfold start
  rw [if_neg (by omega), if_neg (by omega)]
  split
  · rename_i heq
    simp [heq]
  · split
    · rename_i heq
      simp [heq]
    · rw [if_pos ⟨by omega, hhi⟩]

/-- A sequence of four bytes has no needless length and keeps to the characters. -/
theorem start_four (hlo : 0xf0 ≤ b) (hhi : b ≤ 0xf4) :
    start done b = ⟨done, some ⟨b - 0xf0, 3, if b = 0xf0 then 0x90 else 0x80,
      if b = 0xf4 then 0x8f else 0xbf⟩⟩ := by
  unfold start
  rw [if_neg (by omega), if_neg (by omega), if_neg (by omega), if_neg (by omega),
    if_neg (by omega)]
  split
  · rename_i heq
    simp [heq]
  · split
    · rename_i heq
      simp [heq]
    · rw [if_pos ⟨by omega, by omega⟩]

end LossyState

/-- The bytes of a character are read as the character. -/
theorem foldl_step_utf8EncodeChar (c : Char) (done : List Char) :
    (String.utf8EncodeChar c).foldl LossyState.step ⟨done, none⟩ = ⟨c :: done, none⟩ := by
  have hchar : Char.ofNat c.val.toNat = c := Char.ofNat_toNat c
  have hvalid : c.val.toNat < 0xd800 ∨ 0xdfff < c.val.toNat ∧ c.val.toNat < 0x110000 := c.valid
  have hbyte {n : Nat} (hn : n < 256) : (UInt8.ofNat n).toNat = n := by
    rw [UInt8.toNat_ofNat', Nat.mod_eq_of_lt hn]
  have hstart (byte : UInt8) :
      LossyState.step ⟨done, none⟩ byte = LossyState.start done byte.toNat := rfl
  -- A character has one to four bytes, of which the first one says how many.
  unfold String.utf8EncodeChar
  dsimp only
  generalize hv : c.val.toNat = v at hchar hvalid
  split
  · rw [List.foldl_cons, List.foldl_nil, hstart, hbyte (by omega), LossyState.start,
      if_pos (by omega), hchar]
  · split
    · rw [List.foldl_cons, List.foldl_cons, List.foldl_nil, hstart, hbyte (by omega),
        LossyState.start_two (by omega) (by omega)]
      have hlast := hbyte (n := v % 64 + 128) (by omega)
      exact LossyState.step_end (by omega) (by omega) (by omega)
    · split
      · rw [List.foldl_cons, List.foldl_cons, List.foldl_cons, List.foldl_nil, hstart,
          hbyte (by omega), LossyState.start_three (by omega) (by omega)]
        have hsecond := hbyte (n := v / 64 % 64 + 128) (by omega)
        have hlast := hbyte (n := v % 64 + 128) (by omega)
        rw [LossyState.step_continue (by split <;> omega) (by split <;> omega)]
        exact LossyState.step_end (by omega) (by omega) (by omega)
      · rw [List.foldl_cons, List.foldl_cons, List.foldl_cons, List.foldl_cons, List.foldl_nil,
          hstart, hbyte (by omega), LossyState.start_four (by omega) (by omega)]
        have hsecond := hbyte (n := v / 4096 % 64 + 128) (by omega)
        have hthird := hbyte (n := v / 64 % 64 + 128) (by omega)
        have hlast := hbyte (n := v % 64 + 128) (by omega)
        rw [LossyState.step_continue (by split <;> omega) (by split <;> omega),
          LossyState.step_continue (by omega) (by omega)]
        exact LossyState.step_end (by omega) (by omega) (by omega)

/-- A text that is written is read. -/
theorem decodeLossy_toByteArray (text : String) : decodeLossy text.toByteArray = text := by
  have hfold (chars done : List Char) :
      (chars.flatMap String.utf8EncodeChar).foldl LossyState.step ⟨done, none⟩ =
        ⟨chars.reverse ++ done, none⟩ := by
    induction chars generalizing done with
    | nil => rfl
    | cons c chars ih =>
      rw [List.flatMap_cons, List.foldl_append, foldl_step_utf8EncodeChar, ih]
      simp
  rw [decodeLossy, toList_toByteArray, hfold]
  simp [LossyState.finish]

/-- A number that is written is read. -/
theorem readBounded_repr {bound n : Nat} (h : n ≤ bound) :
    readBounded bound n.repr = some n := by
  have htext : n.repr.toList = Nat.toDigits 10 n := Nat.toList_repr
  have hisDigit : ∀ c ∈ Nat.toDigits 10 n, c.isDigit = true := fun c hc =>
    Nat.isDigit_of_mem_toDigits (by decide) (by decide) hc
  have hdigits : numeralDigits (Nat.toDigits 10 n) = Nat.toDigits 10 n := by
    unfold numeralDigits
    split
    · rename_i rest heq
      exact absurd (hisDigit '+' (heq ▸ List.mem_cons_self)) (by decide)
    · rfl
  have hvalue : digitsValue (Nat.toDigits 10 n) = n := by
    have hread : Nat.ofDigitChars 10 (Nat.toDigits 10 n) 0 = n :=
      Nat.ofDigitChars_toDigits (by decide) (by decide)
    rw [Nat.ofDigitChars_eq_foldl] at hread
    simpa only [digitsValue, Nat.mul_comm] using hread
  unfold readBounded
  dsimp only
  rw [htext, hdigits, hvalue, if_pos ⟨Nat.toDigits_ne_nil, List.all_eq_true.2 hisDigit, h⟩]

end Text

/-- A text of statements, each between parentheses, is not taken for a compressed stream. -/
theorem Bzip2.isCompressed_toByteArray {text : String} (h : ∀ c ∈ text.toList.head?, c = '(') :
    isCompressed text.toByteArray = false := by
  rw [isCompressed, Text.toList_toByteArray]
  cases htext : text.toList with
  | nil => rfl
  | cons c rest =>
    obtain rfl : c = '(' := h c (by rw [htext]; rfl)
    refine decide_eq_false fun hstart => ?_
    have hfirst : String.utf8EncodeChar '(' = [0x28] := by decide
    rw [List.flatMap_cons, hfirst] at hstart
    exact absurd (List.cons.inj hstart).1 (by decide)

/-! ### A store with one module -/

namespace ModuleStore

variable {m : Type → Type} [Monad m] {machine : Machine m} {store : ModuleStore}
  {names : List String} {name text : String}

/-- As far as some modules are concerned, the store holds one of them, with one priority and the
declarations of a text. -/
def HoldsOnly (machine : Machine m) (store : ModuleStore) (names : List String)
    (name text : String) : Prop :=
  ∃ priority ≤ maxPriority,
    machine.listDirectory store.modulesPath = pure (.entries [priority.repr]) ∧
    (∀ other ∈ names, machine.isDirectory
      (Path.joinAll store.modulesPath [priority.repr, other]) = pure (decide (other = name))) ∧
    machine.readFile (Path.joinAll store.modulesPath [priority.repr, name, "cil"]) =
      pure (some text.toByteArray)

variable [LawfulMonad m]

theorem readDeclarations_eq {path : String}
    (hfile : machine.readFile path = pure (some text.toByteArray))
    (hplain : Bzip2.isCompressed text.toByteArray = false) :
    (readDeclarations machine path).run = pure (.ok text) := by
  simp [readDeclarations, hfile, hplain, Text.decodeLossy_toByteArray]

theorem installed_eq (h : HoldsOnly machine store names name text)
    (hplain : Bzip2.isCompressed text.toByteArray = false) {other : String}
    (hother : other ∈ names) : (store.installed machine other).run =
      pure (.ok (if other = name then some (.parse text) else none)) := by
  obtain ⟨priority, hbound, hlisted, hpresent, hfile⟩ := h
  have hpriority : (store.priority machine other).run =
      pure (.ok (if other = name then some priority else none)) := by
    have hnumeral := Text.readBounded_repr hbound
    by_cases hname : other = name
    · subst hname
      simp [ModuleStore.priority, prioritiesAmong, hlisted, hnumeral, hpresent other hother]
    · simp [ModuleStore.priority, prioritiesAmong, hlisted, hnumeral, hpresent other hother, hname]
  unfold installed
  rw [ExceptT.run_bind, hpriority]
  by_cases hname : other = name
  · subst hname
    simp [readDeclarations_eq hfile hplain, Except.map]
  · simp [hname]

theorem run_mapM_eq {α β ε : Type} {f : α → ExceptT ε m β} {g : α → β} {items : List α}
    (h : ∀ x ∈ items, (f x).run = pure (.ok (g x))) :
    (items.mapM f).run = pure (.ok (items.map g)) := by
  induction items with
  | nil => rfl
  | cons x items ih =>
    obtain ⟨hx, hitems⟩ := List.forall_mem_cons.1 h
    rw [List.mapM_cons, ExceptT.run_bind, hx]
    simp [ih hitems, Except.map]

/-- What is found in a store with one module. -/
theorem installedAmong_of_holdsOnly (h : HoldsOnly machine store names name text)
    (hplain : Bzip2.isCompressed text.toByteArray = false) :
    (store.installedAmong machine names).run =
      pure (.ok (names.filterMap fun other =>
        if other = name then some (.parse text) else none)) := by
  have hread : ∀ other ∈ names,
      (ExceptT.mk (do pure ((Scope.installedModule other).wrap
        (← (store.installed machine other).run))) : ExceptT Fault m (Option Installed)).run =
        pure (.ok (if other = name then some (.parse text) else none)) := by
    intro other hother
    rw [ExceptT.run_mk, installed_eq h hplain hother, pure_bind]
    rfl
  rw [installedAmong, ExceptT.run_bind, run_mapM_eq hread, pure_bind]
  show (pure (Except.ok (List.filterMap id (List.map _ names))) : m (Except Fault _)) = _
  rw [List.filterMap_map]
  rfl

end ModuleStore

end TypeEnforcement
