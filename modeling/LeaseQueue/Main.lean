/-
The program: one command of a command line, on a store that is empty at the start
and lives as long as the program.
-/
import LeaseQueue.CommandLine.Execution
import LeaseQueue.CommandLine.Help

namespace LeaseQueue.CommandLine

/-- The variables that give the storage. -/
def variableNames : List String := [
  StorageSettings.hostVariable, StorageSettings.portVariable, StorageSettings.userVariable,
  StorageSettings.passwordVariable, StorageSettings.databaseVariable]

/-- Looks up the variables of the process. -/
def readVariables : IO (String → Option String) := do
  let values ← variableNames.mapM fun name => do
    pure (name, ← IO.getEnv name)
  pure fun name => (values.lookup name).join

/-- Says why a command line was not accepted. -/
def refuse (fault : UsageFault) : IO UInt32 := do
  if fault.isRequest then
    IO.println fault.message
    pure 0
  else
    IO.eprintln fault.message
    pure 2

/-- Executes an invocation and prints what it leaves. -/
def perform (invocation : Invocation) : IO UInt32 := do
  let output := (invocation.execute (.reachable { clock := 0 })).output
  IO.print output.text
  match output.error with
  | none => pure 0
  | some error =>
    IO.eprintln s!"Error: {error.message}"
    pure 1

end LeaseQueue.CommandLine

/-- Runs the command that the words name. -/
def main (words : List String) : IO UInt32 := do
  let lookup ← LeaseQueue.CommandLine.readVariables
  match LeaseQueue.CommandLine.Invocation.parse lookup words with
  | .ok invocation => LeaseQueue.CommandLine.perform invocation
  | .error fault => LeaseQueue.CommandLine.refuse fault
