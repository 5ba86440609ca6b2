/-
The arguments of the program.

Options of the program stand before or after the word for the command, options of a command after
it.  An option has its value attached (`--out=dir`, `-odir`) or in the next argument, which then
must not look like an option.  After `--` every argument stands for itself.

* `Command`, `Invocation` — what the program is asked to do;
* `Invocation.parse` — reading the arguments.
-/
import TypeEnforcement.Text.Split

namespace TypeEnforcement

/-! ### Options -/

inductive OptionKind where
  /-- Nothing; the option is there or not. -/
  | flag
  /-- A text, at most once. -/
  | text
  /-- The path of a file, which is not empty, at most once. -/
  | path
  /-- The paths of files, one each time. -/
  | paths
deriving DecidableEq

structure OptionForm where
  name : String
  letter : Option Char := none
  kind : OptionKind
deriving DecidableEq

/-- Why the arguments name nothing to do. -/
inductive NoInvocation where
  /-- The version is asked for. -/
  | version
  /-- Help is asked for. -/
  | help
  /-- The arguments are not understood. -/
  | misuse
deriving DecidableEq

/-- The options that have been read, with their values, the last one first, and the other arguments,
the last one first too. -/
structure ReadArguments where
  options : List (String × String) := []
  others : List String := []

namespace ReadArguments

/-- The values of an option, in the order in which they were given. -/
def valuesOf (read : ReadArguments) (name : String) : List String :=
  (read.options.filter (·.1 = name)).reverse.map Prod.snd

/-- The value of an option that is given at most once. -/
def value? (read : ReadArguments) (name : String) : Option String :=
  (read.valuesOf name).head?

def add (read : ReadArguments) (form : OptionForm) (value : String) :
    Except NoInvocation ReadArguments :=
  let repeated := read.options.any (·.1 = form.name)
  let refused := match form.kind with
    | .flag | .text => repeated
    | .path => repeated || value = ""
    | .paths => value = ""
  if refused then .error .misuse
  else .ok { read with options := (form.name, value) :: read.options }

/-- Add an argument that is no option, if there may be one more. -/
def addOther (read : ReadArguments) (maxOthers : Nat) (argument : String) :
    Except NoInvocation ReadArguments :=
  if read.others.length < maxOthers then .ok { read with others := argument :: read.others }
  else .error .misuse

end ReadArguments

/-- How an argument is understood. -/
inductive ArgumentForm where
  /-- The end of the options. -/
  | endOfOptions
  /-- An option, and the value attached to it. -/
  | option (form : OptionForm) (attached : Option String)
  | unknownOption
  /-- Anything else. -/
  | other

/-- An option that is named by its letter, with what stands behind the letter.  A flag takes
nothing: the options that are flags and have a letter end the reading, so it does not matter what
follows. -/
def ArgumentForm.letterOption (form : OptionForm) (value : List Char) : ArgumentForm :=
  option form (if form.kind = .flag then none else some (String.ofList value))

def ArgumentForm.of (forms : List OptionForm) (argument : String) : ArgumentForm :=
  match argument.toList with
  | ['-', '-'] => endOfOptions
  | '-' :: '-' :: long =>
    let (name, attached) := match Text.splitFirst '=' long with
      | some (name, value) => (String.ofList name, some (String.ofList value))
      | none => (String.ofList long, none)
    match forms.find? (·.name = name) with
    | some form => option form attached
    | none => unknownOption
  | '-' :: letter :: rest =>
    match forms.find? (·.letter = some letter), rest with
    | some form, [] => option form none
    | some form, '=' :: value => letterOption form value
    | some form, value => letterOption form value
    | none, _ => unknownOption
  | _ => other

/-- Whether an argument is neither an option nor the end of the options. -/
def isPlainArgument (argument : String) : Bool :=
  match argument.toList with
  | '-' :: _ :: _ => false
  | _ => true

/-- What reading ends at, apart from the end of the arguments. -/
inductive ReadingGoal where
  /-- The first argument that is no option. -/
  | firstOther
  /-- The end; so many arguments may be no options. -/
  | allWith (maxOthers : Nat)

def helpOption : OptionForm :=
  { name := "help", letter := some 'h', kind := .flag }

def versionOption : OptionForm :=
  { name := "version", letter := some 'V', kind := .flag }

/-- Read arguments that all stand for themselves. -/
def readOthers (goal : ReadingGoal) (read : ReadArguments) (arguments : List String) :
    Except NoInvocation ReadArguments :=
  match goal with
  | .firstOther => if arguments = [] then .ok read else .error .misuse
  | .allWith maxOthers => arguments.foldlM (·.addOther maxOthers ·) read

/-- Read arguments up to the goal, and answer those that are left. -/
def readArguments (forms : List OptionForm) (goal : ReadingGoal) (read : ReadArguments) :
    List String → Except NoInvocation (ReadArguments × List String)
  | [] => .ok (read, [])
  | argument :: rest =>
    match ArgumentForm.of forms argument with
    | .endOfOptions => (readOthers goal read rest).map (·, [])
    | .unknownOption => .error .misuse
    | .other =>
      match goal with
      | .firstOther => .ok (read, argument :: rest)
      | .allWith maxOthers => do
        readArguments forms goal (← read.addOther maxOthers argument) rest
    | .option form attached =>
      match form.kind, attached with
      | .flag, some _ => .error .misuse
      | .flag, none =>
        if form = helpOption then .error .help
        else if form = versionOption then .error .version
        else do readArguments forms goal (← read.add form "") rest
      | _, some value => do readArguments forms goal (← read.add form value) rest
      | _, none =>
        match rest with
        | [] => .error .misuse
        | value :: others =>
          if isPlainArgument value then do
            readArguments forms goal (← read.add form value) others
          else .error .misuse

/-! ### Commands -/

/-- What the program is asked to do. -/
inductive Command where
  | build (projects : List String) (out : String) (packaging : Bool) (engine : String)
  | lookup (path classWord : String)
  | engines
  | status (name engine : String)
deriving DecidableEq

/-- What the program is asked to do, with the options that do not depend on it. -/
structure Invocation where
  /-- The file of the settings. -/
  settings : Option String
  /-- The directory for log files. -/
  logDirectory : Option String
  command : Command
deriving DecidableEq

namespace Invocation

/-- The options of every command. -/
def commonOptions : List OptionForm := [
  { name := "settings", kind := .path }, { name := "log-dir", kind := .path }, helpOption]

/-- The engine that is used unless another one is named. -/
def defaultEngine : String := "selinux"

/-- The options of a command, and how many other arguments it has. -/
def commandForm? : String → Option (List OptionForm × Nat)
  | "build" => some ([
      { name := "project", letter := some 'p', kind := .paths },
      { name := "out", letter := some 'o', kind := .path },
      { name := "no-package", kind := .flag },
      { name := "engine", kind := .text }], 0)
  | "lookup" => some ([{ name := "class", kind := .text }], 1)
  | "engines" => some ([], 0)
  | "status" => some ([{ name := "engine", kind := .text }], 1)
  | _ => none

/-- The command that arguments describe; what it needs must be there. -/
def command? (name : String) (read : ReadArguments) : Option Command :=
  let engine := (read.value? "engine").getD defaultEngine
  match name, read.others with
  | "build", [] => do
    let out ← read.value? "out"
    let projects := read.valuesOf "project"
    if projects = [] then none
    else some (.build projects out (read.value? "no-package").isNone engine)
  | "lookup", [path] => some (.lookup path ((read.value? "class").getD "all"))
  | "engines", [] => some .engines
  | "status", [module] => some (.status module engine)
  | _, _ => none

/-- Whether help can be asked for with these arguments: with none, or with a word for a command. -/
def isHelpTopic : List String → Bool
  | [] => true
  | [topic] => topic = "help" || (commandForm? topic).isSome
  | _ => false

/-- Read the arguments after the word for the command.  An option of every command that is given
again after this word counts there. -/
def parseCommand (before : ReadArguments) (name : String) (arguments : List String) :
    Except NoInvocation Invocation :=
  match commandForm? name with
  | none => .error (if name = "help" && isHelpTopic arguments then .help else .misuse)
  | some (forms, maxOthers) => do
    let (read, _) ← readArguments (commonOptions ++ forms) (.allWith maxOthers) {} arguments
    let common (option : String) : Option String :=
      (read.value? option).or (before.value? option)
    match command? name read with
    | some command =>
      pure { settings := common "settings", logDirectory := common "log-dir", command }
    | none => throw .misuse

def parse (arguments : List String) : Except NoInvocation Invocation := do
  let (before, rest) ← readArguments (versionOption :: commonOptions) .firstOther {} arguments
  match rest with
  | [] => throw .misuse
  | name :: rest => parseCommand before name rest

end Invocation

end TypeEnforcement
