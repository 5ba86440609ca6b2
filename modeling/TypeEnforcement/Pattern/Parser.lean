/-
Reading patterns.

The tokens of a pattern are read from left to right over a stack of open groups.  An open group
holds its finished alternatives, the parts of the alternative under way, and the flags in force.

* `Flags`, `Group` — the flags in force and a group being read;
* `Builder.step` — the effect of one token;
* `Pattern.parse?` — the pattern that a text writes, if it writes one;
* `Pattern.compile` — the pattern that a file-context entry writes, held to both ends of the path.

Design notes.  Limits are idealised.  Groups may nest to any depth, and a pattern may take any
space, except that counted repetitions may not write out more than `Pattern.maxWeight` parts, as
only these make a large pattern of a short text.  So a text that is refused for its depth or its
size alone is a pattern here, unless counts are what makes it large.
-/
import TypeEnforcement.Pattern.Token

namespace TypeEnforcement

/-- The flags in force at a place. -/
structure Flags where
  ignoreCase : Bool := false
  multiLine : Bool := false
  dotAll : Bool := false
deriving DecidableEq

def Flags.change (flags : Flags) (c : FlagChange) : Flags :=
  ⟨c.ignoreCase.getD flags.ignoreCase, c.multiLine.getD flags.multiLine,
    c.dotAll.getD flags.dotAll⟩

/-- A group being read: the flags in force, the finished alternatives and the parts of the
alternative under way, both with the last one first.  `repeatable` says that a repetition sign may
follow, for which the alternative must end in a part. -/
structure Group where
  flags : Flags := {}
  alternatives : List Pattern := []
  parts : List Pattern := []
  repeatable : Bool := false
deriving DecidableEq

namespace Group

/-- The alternative under way. -/
def current (g : Group) : Pattern :=
  Pattern.seqAll g.parts.reverse

def pattern (g : Group) : Pattern :=
  g.alternatives.foldl (fun later p => .alt p later) g.current

def push (g : Group) (p : Pattern) : Group :=
  { g with parts := p :: g.parts, repeatable := true }

/-- The group at the start of a further alternative. -/
def nextAlternative (g : Group) : Group :=
  { g with alternatives := g.current :: g.alternatives, parts := [], repeatable := false }

end Group

namespace Pattern

/-- The number of parts of a pattern. -/
def weight : Pattern → Nat
  | empty | set _ | anchor _ => 1
  | seq p q | alt p q => p.weight + q.weight
  | star p => p.weight + 1

/-- The greatest number of parts that counted repetitions may make of a pattern.  It stands in for
a limit on the space that a whole pattern takes. -/
def maxWeight : Nat := 262144

/-- The pattern repeated, unless writing out the copies would take too many parts. -/
def repeated? (p : Pattern) (lo : Nat) (hi : Option Nat) : Option Pattern :=
  let copies := hi.getD lo
  if copies ≤ 1 ∨ copies * p.weight ≤ maxWeight then some (p.repeated lo hi) else none

end Pattern

/-- The groups being read: the innermost one, and the open ones around it from the inside out. -/
structure Builder where
  group : Group := {}
  outer : List Group := []
deriving DecidableEq

namespace Builder

/-- Add a part to the innermost group. -/
def push (b : Builder) (p : Pattern) : Builder :=
  { b with group := b.group.push p }

/-- The set that a set of the syntax means under flags. -/
def setUnder (flags : Flags) (s : CharSet) : Pattern :=
  .set (if flags.ignoreCase then s.ignoringCase else s)

def step (b : Builder) (token : Token) : Option Builder :=
  let flags := b.group.flags
  match token with
  | .literal c => some (b.push (setUnder flags (.single c)))
  | .set s => some (b.push (setUnder flags s))
  | .dot => some (b.push (.set (if flags.dotAll then .all else .other '\n')))
  | .caret => some (b.push (.anchor (if flags.multiLine then .lineStart else .textStart)))
  | .dollar => some (b.push (.anchor (if flags.multiLine then .lineEnd else .textEnd)))
  | .anchor a => some (b.push (.anchor a))
  | .bar => some { b with group := b.group.nextAlternative }
  | .openGroup change => some ⟨{ flags := flags.change change }, b.group :: b.outer⟩
  | .setFlags change =>
    some { b with group := { b.group with flags := flags.change change, repeatable := false } }
  | .closeGroup =>
    match b.outer with
    | [] => none
    | around :: outer => some ⟨around.push b.group.pattern, outer⟩
  | .repetition lo hi =>
    match b.group.repeatable, b.group.parts with
    | true, p :: parts =>
      (p.repeated? lo hi).map fun q =>
        { b with group := { b.group with parts := q :: parts } }
    | _, _ => none

/-- Read tokens one after another. -/
def run (b : Builder) (tokens : List Token) : Option Builder :=
  tokens.foldlM step b

/-- The pattern read, if no group is open. -/
def finish (b : Builder) : Option Pattern :=
  if b.outer.isEmpty then some b.group.pattern else none

theorem run_append (b : Builder) (s t : List Token) :
    b.run (s ++ t) = (b.run s).bind (·.run t) := by
  simp only [run, List.foldlM_append]
  rfl

end Builder

namespace Pattern

/-- The pattern that a text writes, if it writes one. -/
def parse? (text : List Char) : Option Pattern := do
  let tokens ← Token.readAll text
  let builder ← Builder.run {} tokens
  builder.finish

/-- What is pasted before a pattern to hold it to both ends. -/
def opening : List Char :=
  "^(?:".toList

/-- What is pasted behind it. -/
def closing : List Char :=
  ")$".toList

/-- The text of a pattern held to both ends: the pattern as it stands, in a group of its own
between the anchors. -/
def anchoredText (pattern : String) : List Char :=
  opening ++ pattern.toList ++ closing

/-- The pattern that a file-context entry writes, held to both ends of a path, if it is one in the
syntax that is read here and within its limits. -/
def compile (pattern : String) : Option Pattern :=
  parse? (anchoredText pattern)

end Pattern

end TypeEnforcement
