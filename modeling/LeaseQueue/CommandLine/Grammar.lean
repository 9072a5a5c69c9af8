/-
The grammar of a command line:

* `Parameter`: a named argument, which is a switch or takes a value;
* `Level`: the arguments that the program, or one of its commands, takes;
* `Level.scan`: the words of a command line, up to the name of a command;
* `Level.complete`: the values that variables give to arguments that were not given;
* `UsageFault`: why a command line is not accepted.

A value may stand in the same word as its name or be the next word. A word that
starts with a dash is no value, unless it stands behind the word `--`. The value of
an argument is looked at when the next one begins, so that a word that cannot be
read at all is the fault that counts.
-/
import LeaseQueue.Task.Basic

namespace LeaseQueue.CommandLine

/-- Why a command line is not accepted, or only asks for a text about the program. -/
inductive UsageFault where
  | helpAsked
  | versionAsked
  /-- There is nothing on the command line. -/
  | nothingGiven
  | missingCommand
  | unknownCommand
  | unknownArgument
  /-- An argument was given twice. -/
  | repeatedArgument
  | missingValue
  | invalidValue
  /-- A switch was given a value. -/
  | unneededValue
  | missingArgument
  deriving DecidableEq

/-! ### Values -/

/-- The kinds of values. -/
inductive ValueKind where
  | text
  | taskId
  | natural
  | port
  deriving DecidableEq

/-- A value of an argument; a switch that is on has none. -/
inductive Value where
  | text (text : String)
  | number (n : Int)
  | on
  deriving DecidableEq

/-- The port of a text, which may have either sign. -/
def readPort (text : String) : Option Value :=
  match Text.readInteger text.toList with
  | .ok n => if 0 ≤ n ∧ n ≤ Text.maxNat16 then some (.number n) else none
  | .error _ => none

/-- Reads a value. -/
def ValueKind.read (text : String) : ValueKind → Option Value
  | .text => some (.text text)
  | .taskId => (TaskId.read text).toOption.map .number
  | .natural => (Text.readNatural Text.maxNat64 text.toList).toOption.map fun n => .number n
  | .port => readPort text

/-- The values of arguments by name. -/
abbrev Values := List (String × Value)

namespace Values

/-- The text of an argument. -/
def text? (values : Values) (name : String) : Option String :=
  match values.lookup name with
  | some (.text text) => some text
  | _ => none

/-- The number of an argument. -/
def number? (values : Values) (name : String) : Option Int :=
  match values.lookup name with
  | some (.number n) => some n
  | _ => none

/-- The switch is on. -/
def isOn (values : Values) (name : String) : Bool := values.lookup name == some .on

end Values

/-! ### Arguments -/

/-- What a named argument is for. -/
inductive Role where
  | switch
  | value (kind : ValueKind)
  | help
  | version

/-- A named argument, with its letter, and with the variable that gives its value
when it is not given. -/
structure Parameter where
  name : String
  letter : Option Char := none
  role : Role
  variableName : Option String := none

/-- An argument that is known by its place. -/
structure Operand where
  name : String
  kind : ValueKind

/-- The arguments of a program or of a command, and the names of its commands. -/
structure Level where
  parameters : List Parameter
  operand : Option Operand := none
  commands : List String := []

namespace Level

/-- The parameter of a name. -/
def named? (level : Level) (name : String) : Option Parameter :=
  level.parameters.find? fun parameter => parameter.name == name

/-- The parameter of a letter. -/
def lettered? (level : Level) (letter : Char) : Option Parameter :=
  level.parameters.find? fun parameter => parameter.letter == some letter

end Level

/-! ### Words -/

/-- A word of a command line. -/
inductive Word where
  /-- Behind this word no word is the name of an argument. -/
  | escape
  | long (name : String) (value : Option String)
  | letters (letters : List Char)
  | plain

/-- The part in front of the first equals sign, and the part behind it. -/
def splitValue (text : List Char) : String × Option String :=
  match text.dropWhile (· != '=') with
  | [] => (String.ofList text, none)
  | _ :: value => (String.ofList (text.takeWhile (· != '=')), some (String.ofList value))

/-- The form of a word. -/
def Word.ofText (text : String) : Word :=
  match text.toList with
  | ['-', '-'] => .escape
  | '-' :: '-' :: rest => let (name, value) := splitValue rest; .long name value
  | ['-'] => .plain
  | '-' :: rest => .letters rest
  | _ => .plain

/-! ### Reading -/

/-- An argument that has begun. -/
structure Pending where
  name : String
  kind : ValueKind
  text : Option String

/-- What was read so far. -/
structure Progress where
  values : Values := []
  pending : Option Pending := none
  /-- The word `--` was there. -/
  escaped : Bool := false
  hasOperand : Bool := false

namespace Progress

/-- The next word may be a value. -/
def awaitsValue (progress : Progress) : Bool :=
  progress.pending.any fun pending => pending.text.isNone

/-- Adds a value, unless the argument has one. -/
def add (progress : Progress) (name : String) (value : Option Value) :
    Except UsageFault Progress :=
  if (progress.values.lookup name).isSome then .error .repeatedArgument
  else
    match value with
    | some value => .ok { progress with values := progress.values ++ [(name, value)] }
    | none => .error .invalidValue

/-- Ends the argument that has begun. -/
def settle (progress : Progress) : Except UsageFault Progress :=
  match progress.pending with
  | none => .ok progress
  | some ⟨_, _, none⟩ => .error .missingValue
  | some ⟨name, kind, some text⟩ => { progress with pending := none }.add name (kind.read text)

/-- Begins an argument that takes a value, perhaps with the value from the same
word. -/
def beginValue (progress : Progress) (name : String) (kind : ValueKind)
    (attached : Option String) : Except UsageFault Progress := do
  let progress ← progress.settle
  match attached with
  | some text => progress.add name (kind.read text)
  | none => pure { progress with pending := some ⟨name, kind, none⟩ }

/-- An argument without a value. -/
def giveSwitch (progress : Progress) (parameter : Parameter) : Except UsageFault Progress := do
  let progress ← progress.settle
  match parameter.role with
  | .help => throw .helpAsked
  | .version => throw .versionAsked
  | .switch | .value _ => progress.add parameter.name (some .on)

/-- An argument by its name. -/
def giveLong (level : Level) (progress : Progress) (name : String) (attached : Option String) :
    Except UsageFault Progress :=
  match level.named? name with
  | none => .error .unknownArgument
  | some parameter =>
    match parameter.role, attached with
    | .value kind, attached => progress.beginValue parameter.name kind attached
    | _, some _ => .error .unneededValue
    | _, none => progress.giveSwitch parameter

/-- The value that follows a letter in its word. An equals sign may stand between. -/
def attachedValue : List Char → Option String
  | [] => none
  | '=' :: value => some (String.ofList value)
  | value => some (String.ofList value)

/-- Arguments by their letters. What follows one that takes a value is the value. -/
def giveLetters (level : Level) : Progress → List Char → Except UsageFault Progress
  | progress, [] => .ok progress
  | progress, letter :: rest =>
    match level.lettered? letter with
    | none => .error .unknownArgument
    | some parameter =>
      match parameter.role with
      | .value kind => progress.beginValue parameter.name kind (attachedValue rest)
      | .switch | .help | .version =>
        match progress.giveSwitch parameter with
        | .ok progress => giveLetters level progress rest
        | .error fault => .error fault

/-- The fault of a word that has no place. -/
def misplaced (level : Level) (progress : Progress) (text : String) : UsageFault :=
  if level.commands.isEmpty || (progress.escaped && level.commands.contains text) then
    .unknownArgument
  else .unknownCommand

/-- A word that is known by its place. -/
def giveOperand (level : Level) (progress : Progress) (text : String) :
    Except UsageFault Progress :=
  match level.operand, progress.hasOperand with
  | some operand, false => do
    let progress ← progress.settle
    pure
      { progress with
        pending := some ⟨operand.name, operand.kind, some text⟩
        hasOperand := true }
  | _, _ => .error (misplaced level progress text)

/-- A word that is no name: the value that is awaited, or an operand. -/
def givePlain (level : Level) (progress : Progress) (text : String) :
    Except UsageFault Progress :=
  match progress.pending with
  | some ⟨name, kind, none⟩ => .ok { progress with pending := some ⟨name, kind, some text⟩ }
  | _ => progress.giveOperand level text

/-- The next word. -/
def give (level : Level) (progress : Progress) (text : String) : Except UsageFault Progress :=
  if progress.escaped then progress.giveOperand level text
  else
    match Word.ofText text with
    | .escape => .ok { progress with escaped := true }
    | .long name value => progress.giveLong level name value
    | .letters word => progress.giveLetters level word
    | .plain => progress.givePlain level text

end Progress

namespace Level

/-- The word is the name of a command. -/
def startsCommand (level : Level) (progress : Progress) (text : String) : Bool :=
  !progress.escaped && !progress.awaitsValue && level.commands.contains text

/-- Reads words up to the name of a command, and gives the words behind it. -/
def scan (level : Level) :
    Progress → List String → Except UsageFault (Progress × Option (String × List String))
  | progress, [] => .ok (progress, none)
  | progress, text :: rest =>
    if level.startsCommand progress text then .ok (progress, some (text, rest))
    else
      match progress.give level text with
      | .ok progress => scan level progress rest
      | .error fault => .error fault

/-- Adds the values that variables give. -/
def complete (level : Level) (lookup : String → Option String) (progress : Progress) :
    Except UsageFault Values :=
  level.parameters.foldlM (fun values parameter =>
    match parameter.role, parameter.variableName.bind lookup with
    | .value kind, some text =>
      if (values.lookup parameter.name).isSome then .ok values
      else
        match kind.read text with
        | some value => .ok (values ++ [(parameter.name, value)])
        | none => .error .invalidValue
    | _, _ => .ok values) progress.values

end Level
end LeaseQueue.CommandLine
