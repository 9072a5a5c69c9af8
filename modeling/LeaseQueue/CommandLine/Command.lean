/-
The commands of the program:

* `Command`: a command with its arguments;
* `Invocation`: a command, the storage that it works on and the level of the log;
* `Invocation.parse`: the invocation of a command line and of variables.

The arguments on storage and log may stand before the command or behind it, where
those behind it win over those before it, and both over variables.
-/
import LeaseQueue.CommandLine.Grammar
import LeaseQueue.Settings.Scheduler
import LeaseQueue.Settings.Storage

namespace LeaseQueue.CommandLine

/-- The arguments of the command that runs workers. -/
structure WorkOptions where
  workers : Nat
  leaseSeconds : Nat
  heartbeatSeconds : Nat
  channel : String
  fallbackSeconds : Option Nat
  shutdownTimeoutSeconds : Nat
  migrate : Bool
  deriving DecidableEq

/-- A command. -/
inductive Command where
  | migrate (reset list : Bool)
  | create (taskType : String) (state : Option String) (parent : Option TaskId)
  | get (id : TaskId)
  | children (id : TaskId)
  | resume (id : TaskId) (state : Option String)
  | cancel (id : TaskId)
  | work (options : WorkOptions)
  deriving DecidableEq

/-- A command with the storage that it works on. -/
structure Invocation where
  command : Command
  storage : StorageSettings
  logLevel : String
  deriving DecidableEq

/-! ### Arguments -/

/-- The arguments that may stand anywhere. -/
def sharedParameters : List Parameter := [
  { name := "pg-host", role := .value .text, variableName := some StorageSettings.hostVariable },
  { name := "pg-port", role := .value .port, variableName := some StorageSettings.portVariable },
  { name := "pg-user", role := .value .text, variableName := some StorageSettings.userVariable },
  { name := "pg-password", role := .value .text,
    variableName := some StorageSettings.passwordVariable },
  { name := "pg-dbname", role := .value .text,
    variableName := some StorageSettings.databaseVariable },
  { name := "log-level", letter := some 'l', role := .value .text },
  { name := "help", letter := some 'h', role := .help }]

/-- The arguments of a command and the command that they make. There is none while
the operand is missing. -/
structure CommandForm where
  name : String
  parameters : List Parameter := []
  operand : Option Operand := none
  ofValues : Values → Option Command

def stateParameter : Parameter := { name := "state", letter := some 's', role := .value .text }

def idOperand : Operand := ⟨"id", .taskId⟩

/-- An argument that takes a natural number. -/
def naturalParameter (name : String) (letter : Option Char) : Parameter :=
  { name, letter, role := .value .natural }

/-- A natural number, or another one when it was not given. -/
def Values.natural (values : Values) (name : String) (other : Nat) : Nat :=
  ((values.number? name).map Int.toNat).getD other

/-- The options of the command that runs workers. -/
def WorkOptions.ofValues (values : Values) : WorkOptions where
  workers := values.natural "workers" 4
  leaseSeconds := values.natural "lease-secs" 300
  heartbeatSeconds := values.natural "heartbeat-secs" 60
  channel := (values.text? "channel").getD Channel.standard.name
  fallbackSeconds := (values.number? "fallback-secs").map Int.toNat
  shutdownTimeoutSeconds := values.natural "shutdown-timeout-secs" 60
  migrate := values.isOn "migrate"

/-- All commands. -/
def forms : List CommandForm := [
  { name := "migrate"
    parameters := [{ name := "reset", role := .switch }, { name := "list", role := .switch }]
    ofValues := fun values => some (.migrate (values.isOn "reset") (values.isOn "list")) },
  { name := "create"
    parameters :=
      [stateParameter, { name := "parent", letter := some 'p', role := .value .taskId }]
    operand := some ⟨"task_type", .text⟩
    ofValues := fun values => (values.text? "task_type").map fun taskType =>
      .create taskType (values.text? "state") (values.number? "parent") },
  { name := "get", operand := some idOperand
    ofValues := fun values => (values.number? "id").map .get },
  { name := "children", operand := some idOperand
    ofValues := fun values => (values.number? "id").map .children },
  { name := "resume", parameters := [stateParameter], operand := some idOperand
    ofValues := fun values => (values.number? "id").map fun id =>
      .resume id (values.text? "state") },
  { name := "cancel", operand := some idOperand
    ofValues := fun values => (values.number? "id").map .cancel },
  { name := "work"
    parameters := [
      naturalParameter "workers" (some 'w'),
      naturalParameter "lease-secs" none,
      naturalParameter "heartbeat-secs" none,
      { name := "channel", role := .value .text },
      naturalParameter "fallback-secs" none,
      naturalParameter "shutdown-timeout-secs" none,
      { name := "migrate", role := .switch }]
    ofValues := fun values => some (.work (.ofValues values)) }]

/-- The arguments of a command, with those that may stand anywhere. -/
def CommandForm.level (form : CommandForm) : Level where
  parameters := form.parameters ++ sharedParameters
  operand := form.operand

/-- The command that tells about the others. -/
def helpName : String := "help"

/-- The arguments in front of a command. -/
def programLevel : Level where
  parameters := sharedParameters ++ [{ name := "version", letter := some 'V', role := .version }]
  commands := forms.map CommandForm.name ++ [helpName]

/-! ### Reading -/

/-- Reads the words behind the name of a command: the values given there, and the
command. -/
def CommandForm.parse (form : CommandForm) (lookup : String → Option String)
    (words : List String) : Except UsageFault (Values × Command) := do
  let (progress, _) ← form.level.scan {} words
  let progress ← progress.settle
  match form.ofValues (← form.level.complete lookup progress) with
  | some command => pure (progress.values, command)
  | none => throw .missingArgument

/-- What a request for help leads to. It may name one command. -/
def helpFault : List String → UsageFault
  | [] => .helpAsked
  | [name] => if programLevel.commands.contains name then .helpAsked else .unknownCommand
  | _ => .unknownCommand

/-- Reads a command by its name. -/
def parseCommand (lookup : String → Option String) (name : String) (words : List String) :
    Except UsageFault (Values × Command) :=
  if name = helpName then .error (helpFault words)
  else
    match forms.find? fun form => form.name == name with
    | some form => form.parse lookup words
    | none => .error .unknownCommand

/-- The storage that values describe. -/
def storageOfValues (values : Values) : StorageSettings :=
  let text name other := (values.text? name).getD other
  (StorageSettings.ofParts (text "pg-host" "localhost") (text "pg-user" "postgres")
    (text "pg-password" "") (text "pg-dbname" "leasehold")).withPort
      (values.natural "pg-port" StorageSettings.standardPort)

/-- The invocation of a command line. The words behind the name of the command count
before those in front of it. -/
def Invocation.parse (lookup : String → Option String) (words : List String) :
    Except UsageFault Invocation := do
  let (progress, found) ← programLevel.scan {} words
  let inner ← found.mapM fun (name, rest) => parseCommand lookup name rest
  let progress ← progress.settle
  let outer ← programLevel.complete lookup progress
  match inner with
  | some (given, command) =>
    let values : Values := given ++ outer
    pure ⟨command, storageOfValues values, (values.text? "log-level").getD "info"⟩
  | none => throw (if outer.isEmpty then .nothingGiven else .missingCommand)

end LeaseQueue.CommandLine
