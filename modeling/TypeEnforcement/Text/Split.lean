/-
Cutting texts into pieces.

The functions work on lists of characters, where they are plain recursions; the versions on
`String` at the end are what the rest of the library calls.

Main statements:
* `flatten_pieces` — cutting loses nothing but the separators;
* `not_mem_of_mem_pieces` — no piece holds a separator;
* `dropStart?_eq_some_iff`, `dropEnd?_eq_some_iff` — taking a known start or end off a text;
* `splitLast_eq_some` — the cut at the last separator is where it says.
-/
import TypeEnforcement.Text.Blank

namespace TypeEnforcement.Text

/-! ### Pieces between separators -/

/-- The pieces of a text between its separators; a text without separators is one piece. -/
def pieces (isSep : Char → Bool) : List Char → List (List Char)
  | [] => [[]]
  | c :: rest =>
    if isSep c then [] :: pieces isSep rest
    else match pieces isSep rest with
      | [] => [[c]]
      | piece :: others => (c :: piece) :: others

theorem pieces_ne_nil (isSep : Char → Bool) (text : List Char) : pieces isSep text ≠ [] := by
  cases text with
  | nil => simp [pieces]
  | cons c rest =>
    rw [pieces]
    split
    · simp
    · split <;> simp

theorem not_mem_of_mem_pieces {isSep : Char → Bool} {text piece : List Char}
    (h : piece ∈ pieces isSep text) : ∀ c ∈ piece, isSep c = false := by
  induction text generalizing piece with
  | nil => simp_all [pieces]
  | cons d rest ih =>
    rw [pieces] at h
    split at h
    · rcases List.mem_cons.1 h with rfl | h
      · simp
      · exact ih h
    · rename_i hd
      split at h
      · simp_all
      · rename_i first others heq
        rcases List.mem_cons.1 h with rfl | h
        · intro c hc
          rcases List.mem_cons.1 hc with rfl | hc
          · simpa using hd
          · exact ih (by rw [heq]; exact List.mem_cons_self) c hc
        · exact ih (by rw [heq]; exact List.mem_cons_of_mem _ h)

/-- Cutting keeps every character that is no separator. -/
theorem flatten_pieces (isSep : Char → Bool) (text : List Char) :
    (pieces isSep text).flatten = text.filter (fun c => !isSep c) := by
  induction text with
  | nil => simp [pieces]
  | cons c rest ih =>
    rw [pieces]
    split
    · rename_i h
      simp [h, ih]
    · rename_i h
      split
      · rename_i heq
        exact absurd heq (pieces_ne_nil _ _)
      · rename_i piece others heq
        rw [heq] at ih
        simp [h, ← ih]

/-! ### Blanks at the ends, words and lines -/

/-- The text without its leading characters that satisfy `p`. -/
def trimStart (p : Char → Bool) (text : List Char) : List Char :=
  text.dropWhile p

/-- The text without its trailing characters that satisfy `p`. -/
def trimEnd (p : Char → Bool) (text : List Char) : List Char :=
  (text.reverse.dropWhile p).reverse

/-- The text without the blanks around it. -/
def trimBlanks (text : List Char) : List Char :=
  trimEnd isBlank (trimStart isBlank text)

/-- The lines of a text.  A line ends with a line feed, before which one carriage return is
dropped; text after the last line feed is a line as it stands, unless it is empty. -/
def linesOf (text : List Char) : List (List Char) :=
  let all := pieces (· == '\n') text
  let complete := all.dropLast.map fun line =>
    match line.reverse with
    | '\r' :: rest => rest.reverse
    | _ => line
  match all.getLast? with
  | some [] | none => complete
  | some rest => complete ++ [rest]

/-! ### Known starts and ends -/

/-- What follows `start` in a text that begins with it. -/
def dropStart? : List Char → List Char → Option (List Char)
  | [], text => some text
  | _ :: _, [] => none
  | p :: ps, c :: cs => if p = c then dropStart? ps cs else none

def dropEnd? (ending text : List Char) : Option (List Char) :=
  (dropStart? ending.reverse text.reverse).map List.reverse

theorem dropStart?_eq_some_iff {start text rest : List Char} :
    dropStart? start text = some rest ↔ text = start ++ rest := by
  induction start generalizing text with
  | nil => simp [dropStart?]
  | cons p ps ih =>
    cases text with
    | nil => simp [dropStart?]
    | cons c cs =>
      rw [dropStart?]
      split
      · rename_i h
        simp [ih, h]
      · rename_i h
        simp [Ne.symm h]

theorem dropEnd?_eq_some_iff {ending text rest : List Char} :
    dropEnd? ending text = some rest ↔ text = rest ++ ending := by
  simp only [dropEnd?, Option.map_eq_some_iff, dropStart?_eq_some_iff]
  constructor
  · rintro ⟨front, h, rfl⟩
    have := congrArg List.reverse h
    simpa using this
  · rintro rfl
    exact ⟨rest.reverse, by simp, by simp⟩

/-! ### One cut -/

/-- The two sides of the first separator. -/
def splitFirst (sep : Char) : List Char → Option (List Char × List Char)
  | [] => none
  | c :: rest =>
    if c = sep then some ([], rest)
    else (splitFirst sep rest).map fun (before, after) => (c :: before, after)

/-- The two sides of the last separator. -/
def splitLast (sep : Char) : List Char → Option (List Char × List Char)
  | [] => none
  | c :: rest =>
    match splitLast sep rest with
    | some (before, after) => some (c :: before, after)
    | none => if c = sep then some ([], rest) else none

theorem splitLast_eq_some {sep : Char} {text before after : List Char}
    (h : splitLast sep text = some (before, after)) : text = before ++ sep :: after := by
  induction text generalizing before with
  | nil => simp [splitLast] at h
  | cons c rest ih =>
    rw [splitLast] at h
    split at h
    · rename_i front back heq
      simp only [Option.some.injEq, Prod.mk.injEq] at h
      obtain ⟨rfl, rfl⟩ := h
      rw [ih heq, List.cons_append]
    · split at h
      · simp_all
      · simp at h

/-! ### On strings -/

/-- The pieces of a string between the occurrences of a separator. -/
def split (sep : Char) (text : String) : List String :=
  (pieces (· == sep) text.toList).map String.ofList

/-- The maximal runs of characters that are not blank. -/
def words (text : String) : List String :=
  ((pieces isBlank text.toList).filter (· ≠ [])).map String.ofList

def lines (text : String) : List String :=
  (linesOf text.toList).map String.ofList

/-- The string without the blanks around it. -/
def trim (text : String) : String :=
  String.ofList (trimBlanks text.toList)

def trimRight (text : String) : String :=
  String.ofList (trimEnd isBlank text.toList)

/-- The string without the copies of `c` around it. -/
def trimChar (c : Char) (text : String) : String :=
  String.ofList (trimEnd (· == c) (trimStart (· == c) text.toList))

/-- What follows `start` in a string that begins with it. -/
def afterStart? (start text : String) : Option String :=
  (dropStart? start.toList text.toList).map String.ofList

def beforeEnd? (ending text : String) : Option String :=
  (dropEnd? ending.toList text.toList).map String.ofList

/-- The two sides of the first separator of a string. -/
def cutFirst (sep : Char) (text : String) : Option (String × String) :=
  (splitFirst sep text.toList).map fun (before, after) =>
    (String.ofList before, String.ofList after)

/-- The two sides of the last separator of a string. -/
def cutLast (sep : Char) (text : String) : Option (String × String) :=
  (splitLast sep text.toList).map fun (before, after) =>
    (String.ofList before, String.ofList after)

/-- The strings one after another, each ended by a line feed. -/
def unlines (items : List String) : String :=
  String.join (items.map (· ++ "\n"))

end TypeEnforcement.Text
