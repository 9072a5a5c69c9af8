/-
Handlers: what runs a task. A handler is a program that performs operations in the
transaction of its run, looks at each answer before it goes on, and ends in an
outcome or in a panic:

* `Program`: such a program;
* `Program.performAll`: operations up to the first one that fails;
* `Handler`: a program for every task of a type.
-/
import LeaseQueue.Store.Operation

namespace LeaseQueue

/-- A program of operations. -/
inductive Program where
  | finish (outcome : Outcome)
  /-- The program breaks off, perhaps with a text. -/
  | panic (text : Option String)
  | perform (operation : Operation) (next : Except TaskError Answer → Program)
  /-- Time passes. -/
  | pause (millis : Nat) (next : Program)
  /-- The scheduler is asked to stop. -/
  | stop (next : Program)

namespace Program

/-- Performs operations up to the first one that fails. -/
def performAll (next : Except TaskError Unit → Program) : List Operation → Program
  | [] => next (.ok ())
  | operation :: rest =>
    .perform operation fun
      | .ok _ => performAll next rest
      | .error e => next (.error e)

end Program

/-- What a handler knows of the run that it is started for. -/
structure RunContext where
  task : ClaimedTask
  channel : Channel
  /-- The number of earlier runs of this type by the same scheduler. -/
  earlierRuns : Nat := 0

/-- A handler of a task type. -/
abbrev Handler := RunContext → Program

end LeaseQueue
