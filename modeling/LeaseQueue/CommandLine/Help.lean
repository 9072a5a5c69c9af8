/-
What the program tells about its command line:

* `helpText`: the commands with their arguments, and the arguments of all of them;
* `UsageFault.message`: the wording of a fault.
-/
import LeaseQueue.CommandLine.Command

namespace LeaseQueue.CommandLine

/-- An argument as the help shows it. -/
def Parameter.listing (parameter : Parameter) : String :=
  let letter := (parameter.letter.map fun c => s!"-{c}, ").getD ""
  let value := if parameter.role matches .value _ then " <value>" else ""
  s!"{letter}--{parameter.name}{value}"

/-- A command as the help shows it, with its arguments below. -/
def CommandForm.listing (form : CommandForm) : List String :=
  let operand := (form.operand.map fun operand => s!" <{operand.name}>").getD ""
  s!"  {form.name}{operand}" :: form.parameters.map fun parameter => s!"    {parameter.listing}"

/-- The commands and their arguments. -/
def helpText : String :=
  let shared := programLevel.parameters.map fun parameter => s!"  {parameter.listing}"
  "\n".intercalate
    (["Usage: leasehold [OPTIONS] <COMMAND>", "", "Commands:"]
      ++ forms.flatMap CommandForm.listing ++ ["", "Options:"] ++ shared)

/-- The version of the program. -/
def versionText : String := "leasehold 0.1.0"

/-- The wording of a fault. -/
def UsageFault.message : UsageFault → String
  | .helpAsked | .nothingGiven => helpText
  | .versionAsked => versionText
  | .missingCommand => "error: a command is missing"
  | .unknownCommand => "error: unknown command"
  | .unknownArgument => "error: unknown argument"
  | .repeatedArgument => "error: an argument was given twice"
  | .missingValue => "error: an argument has no value"
  | .invalidValue => "error: the value of an argument is invalid"
  | .unneededValue => "error: a switch has no value"
  | .missingArgument => "error: an argument is missing"

/-- The fault only asks for a text. -/
def UsageFault.isRequest : UsageFault → Bool
  | .helpAsked | .versionAsked => true
  | _ => false

end LeaseQueue.CommandLine
