/-
The run of a handler: everything that it writes and its outcome are one
transaction, beside which the lease is renewed on another connection.

* `OpenRun`: a store with the transaction of a run that is open;
* `OpenRun.renew`: a renewal beside the transaction;
* `Program.execute`: the way of a program through its transaction;
* `Store.run`: a whole run, from the begin of its transaction to the end.
-/
import LeaseQueue.Handler.Program
import LeaseQueue.Store

namespace LeaseQueue

/-! ### An open transaction -/

/-- A store, as others see it, and the transaction of a run. -/
structure OpenRun where
  store : Store
  tx : Transaction

namespace OpenRun

/-- Opens the transaction of a run. The failure still to come is met in it. -/
def start (store : Store) : OpenRun := ⟨{ store with fault := none }, store.begin⟩

/-- The transaction has written the row of a task, which keeps others from it. -/
def holdsRow (run : OpenRun) (id : TaskId) : Bool :=
  run.store.database.rows.find? id != run.tx.database.rows.find? id

/-- Puts a row into the transaction's view. -/
def see (run : OpenRun) (row : Row) : OpenRun :=
  let write := Table.update (fun old => old.id == row.id) fun _ => row
  let database := run.tx.database
  { run with tx :=
      { run.tx with database := { database with tasks := database.tasks.map write } } }

/-- A lease is renewed on another connection. A row that the transaction has written
has to wait for the end; any other is seen by it at once. -/
def renew (run : OpenRun) (task : TaskId) (worker : WorkerId) (lease : Duration) : OpenRun :=
  if run.holdsRow task then run
  else
    let store := (run.store.renew task worker lease).store
    match store.database.rows.find? task with
    | some row => ({ run with store } : OpenRun).see row
    | none => run

/-- Time passes for everybody but the transaction. -/
def advance (run : OpenRun) (micros : Micros) : OpenRun :=
  { run with store := run.store.advance micros }

/-- Ends the run without a trace. -/
def rollback (run : OpenRun) : Store := run.store.rollback run.tx

/-- Ends the run with a commit. -/
def commit (run : OpenRun) : Store.Reply SqlState Unit := run.store.commit run.tx

end OpenRun

/-! ### The way of a program -/

/-- How a program has ended. -/
inductive Ending where
  | finished (outcome : Outcome)
  | panicked (text : Option String)
  deriving DecidableEq

/-- The outcome of a program, or its panic as an error. -/
def Ending.outcome? : Ending → Except TaskError Outcome
  | .finished outcome => .ok outcome
  | .panicked text => .error (.handlerPanicked (text.getD "non-string panic payload"))

/-- What a program met on its way. -/
inductive TraceEvent where
  | answered (answer : Except TaskError Answer)
  | paused (millis : Nat)
  | stopped

/-- How long an event holds the handler up, in milliseconds. -/
def TraceEvent.pause : TraceEvent → Nat
  | .paused millis => millis
  | .answered _ | .stopped => 0

/-- The way of a program through its transaction. -/
structure Execution where
  ending : Ending
  trace : List TraceEvent
  run : OpenRun

/-- An event in front of the others. -/
def Execution.after (event : TraceEvent) (execution : Execution) : Execution :=
  { execution with trace := event :: execution.trace }

/-- What happens around a run while its program pauses for some milliseconds. -/
abbrev Surroundings := Nat → OpenRun → OpenRun

/-- Nothing happens around the run. -/
def Surroundings.still : Surroundings := fun _ run => run

/-- Performs an operation in the transaction of a run. -/
def OpenRun.perform (run : OpenRun) (channel : Channel) (operation : Operation) :
    Except TaskError Answer × OpenRun :=
  let (answer, tx) := (operation.action channel).run run.tx
  (answer, { run with tx })

/-- Takes a program through the transaction of a run. -/
def Program.execute (around : Surroundings) (channel : Channel) : Program → OpenRun → Execution
  | .finish outcome, run => ⟨.finished outcome, [], run⟩
  | .panic text, run => ⟨.panicked text, [], run⟩
  | .perform operation next, run =>
    let (answer, run) := run.perform channel operation
    (execute around channel (next answer) run).after (.answered answer)
  | .pause millis next, run =>
    (execute around channel next (around millis run)).after (.paused millis)
  | .stop next, run => (execute around channel next run).after .stopped

/-! ### A whole run -/

/-- What a run leaves. -/
structure RunReply where
  answer : Except TaskError Transition
  published : List Channel
  store : Store
  trace : List TraceEvent

/-- The end of a run, behind its program: the outcome is written and committed, and
any error undoes the whole run. -/
def Execution.finish (execution : Execution) (context : RunContext) : RunReply :=
  let run := execution.run
  match execution.ending.outcome? with
  | .error e => ⟨.error e, [], run.rollback, execution.trace⟩
  | .ok outcome =>
    let final := TaskAction.finish context.channel context.task.id context.task.worker outcome
    match final.run run.tx with
    | (.error e, tx) => ⟨.error e, [], OpenRun.rollback { run with tx }, execution.trace⟩
    | (.ok transition, tx) =>
      let reply := OpenRun.commit { run with tx }
      ⟨(reply.answer.mapError .refused).map fun _ => transition,
        reply.published, reply.store, execution.trace⟩

/-- Runs a handler for a claimed task. -/
def Store.run (store : Store) (around : Surroundings) (handler : Handler)
    (context : RunContext) : RunReply :=
  ((handler context).execute around context.channel (OpenRun.start store)).finish context

end LeaseQueue
