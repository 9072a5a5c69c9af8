/-
Tasks and what happens to them:

* `Task`: one task as clients see it;
* `Outcome`: what a handler reports about a run, with its constructors;
* `ClaimedTask`, `Claim`: what a claim gives to a worker;
* `Transition`: what the final write of a run changed.
-/
import LeaseQueue.Json.Basic
import LeaseQueue.Task.Status
import LeaseQueue.Text.Blank
import LeaseQueue.Text.Integer
import LeaseQueue.Time.Timestamp

namespace LeaseQueue

/-- The number of a task, in 64 signed bits. -/
abbrev TaskId := Int

/-- Reads the number of a task between blanks. -/
def TaskId.read (text : String) : Except Text.IntegerError TaskId :=
  Text.readInteger (Text.trim text.toList)

/-- The name of a worker. -/
abbrev WorkerId := String

/-- The error of a task that was cancelled. -/
def cancelledError : String := "cancelled"

/-- A task. A running one has a worker and the end of its lease, a failed one an
error. -/
structure Task where
  id : TaskId
  taskType : String
  state : Json
  status : Status
  worker : Option WorkerId
  leaseExpires : Option Timestamp
  error : Option String
  parent : Option TaskId
  created : Timestamp
  updated : Timestamp
  deriving DecidableEq

/-- The task is completed or failed. -/
def Task.isTerminal (t : Task) : Bool := t.status.isTerminal

/-- What a handler reports about a run. Without a state the old one stays. -/
structure Outcome where
  state : Option Json
  status : Status
  error : Option String
  deriving DecidableEq

namespace Outcome

/-- Run the task again. -/
def pending (state : Option Json) : Outcome := ⟨state, .pending, none⟩
/-- Wait until somebody resumes the task. -/
def waiting (state : Option Json) : Outcome := ⟨state, .waiting, none⟩
/-- The task is done and keeps its state. -/
def completed : Outcome := ⟨none, .completed, none⟩
/-- The task is done and ends in a state. -/
def completedWith (state : Json) : Outcome := ⟨some state, .completed, none⟩
/-- The task has failed. -/
def failed (message : String) : Outcome := ⟨none, .failed, some message⟩

end Outcome

/-- A task in the hands of the worker that holds its lease. -/
structure ClaimedTask where
  id : TaskId
  taskType : String
  state : Json
  worker : WorkerId
  deriving DecidableEq

/-- The answer to a claim: a task, nothing to do, or a race lost to another
claim. -/
inductive Claim where
  | claimed (task : ClaimedTask)
  | empty
  | contended
  deriving DecidableEq

/-- What the final write of a run changed: the new status of the task, and the
parent that was resumed by it. -/
structure Transition where
  task : TaskId
  status : Status
  resumedParent : Option TaskId
  deriving DecidableEq

end LeaseQueue
