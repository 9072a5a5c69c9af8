/-
Rows of the task table:

* `StatusColumn`: the status of a row, which may be a text that is no status;
* `Row`: one task as it is stored, with its times in microseconds since 1970;
* `Row.isEligible`: the row can be claimed;
* `Row.resumed`, `cancelled`, `claimed`, `renewed`, `finished`: the row after
  each of the changes that a row goes through;
* `Row.readState`: the state as it comes back from its column;
* `Row.given`, `Row.task`: the row as a worker gets it and as clients see it, or why it
  cannot be read.

A row holds what was written. Its texts, and those in its state, are free of U+0000: the
database takes none.
-/
import LeaseQueue.Error
import LeaseQueue.Json.Column

namespace LeaseQueue

/-- A point in time, in microseconds since the start of 1970. -/
abbrev Micros := Int

/-- What the status column of a row holds. -/
inductive StatusColumn where
  | known (status : Status)
  | foreign (text : String)
  deriving DecidableEq

namespace StatusColumn

/-- The text of the column. -/
def text : StatusColumn → String
  | .known status => status.name
  | .foreign text => text

/-- The column of a text. -/
def ofText (text : String) : StatusColumn :=
  match Status.ofName? text with
  | some status => .known status
  | none => .foreign text

/-- The column is neither completed nor failed. -/
def isLive : StatusColumn → Bool
  | .known status => !status.isTerminal
  | .foreign _ => true

@[simp] theorem ofText_name (status : Status) : ofText status.name = .known status := by
  simp [ofText]

theorem text_ofText (text : String) : (ofText text).text = text := by
  unfold ofText
  split
  · next h => exact (Status.ofName?_eq_some_iff.1 h).symm
  · rfl

end StatusColumn

/-- A stored task. Its state is the one that was written, and comes back as `Row.readState`
says. -/
structure Row where
  id : TaskId
  taskType : String
  state : Json
  status : StatusColumn
  worker : Option WorkerId
  leaseExpires : Option Micros
  error : Option String
  parent : Option TaskId
  created : Micros
  updated : Micros
  deriving DecidableEq

namespace Row

/-! ### What a row is -/

/-- The row has a status. -/
def hasStatus (row : Row) (status : Status) : Bool := row.status == .known status

/-- The task is neither completed nor failed. -/
def isLive (row : Row) : Bool := row.status.isLive

/-- The lease has run out: its end is strictly in the past. -/
def leaseExpired (row : Row) (now : Micros) : Bool :=
  row.leaseExpires.any fun deadline => decide (deadline < now)

/-- The task can be claimed: it is pending, or its worker has let the lease run
out. -/
def isEligible (now : Micros) (types : List String) (row : Row) : Bool :=
  (row.hasStatus .pending || (row.hasStatus .running && row.leaseExpired now))
    && types.contains row.taskType

/-- The task runs under a worker. -/
def isHeldBy (worker : WorkerId) (row : Row) : Bool :=
  row.worker == some worker && row.hasStatus .running

/-- One row comes before another: it was created earlier, or at the same time with
a smaller number. -/
def before (a b : Row) : Bool :=
  decide (a.created < b.created) || (a.created == b.created && decide (a.id < b.id))

/-! ### What becomes of a row -/

/-- A new task. -/
def fresh (now : Micros) (id : TaskId) (taskType : String) (state : Json)
    (parent : Option TaskId) : Row where
  id
  taskType
  state
  status := .known .pending
  worker := none
  leaseExpires := none
  error := none
  parent
  created := now
  updated := now

/-- The task is pending again. -/
def resumed (now : Micros) (row : Row) : Row :=
  { row with status := .known .pending, updated := now }

/-- The task is pending again, with another state. -/
def resumedWith (now : Micros) (state : Json) (row : Row) : Row :=
  { row with status := .known .pending, state, updated := now }

/-- The task was cancelled. -/
def cancelled (now : Micros) (row : Row) : Row :=
  { row with
    status := .known .failed
    error := some cancelledError
    worker := none
    leaseExpires := none
    updated := now }

/-- The task runs under a worker until a deadline. -/
def claimed (now : Micros) (worker : WorkerId) (deadline : Micros) (row : Row) : Row :=
  { row with
    status := .known .running
    worker := some worker
    leaseExpires := some deadline
    updated := now }

/-- The lease ends at another deadline. -/
def renewed (now deadline : Micros) (row : Row) : Row :=
  { row with leaseExpires := some deadline, updated := now }

/-- The run of the task has ended in an outcome. Only a failed task has an error. -/
def finished (now : Micros) (outcome : Outcome) (row : Row) : Row :=
  { row with
    status := .known outcome.status
    state := outcome.state.getD row.state
    error := if outcome.status = .failed then some (outcome.error.getD "") else none
    worker := none
    leaseExpires := none
    updated := now }

/-! ### Reading -/

/-- The state that comes back from its column. -/
def readState (row : Row) : Except TaskError Json :=
  match Json.readColumn? Json.depthLimit row.state with
  | some state => .ok state
  | none => .error (.database (.undecodable "state"))

/-- The task of a row as it is given to a worker. -/
def given (row : Row) (worker : WorkerId) : Except TaskError ClaimedTask := do
  let state ← row.readState
  pure ⟨row.id, row.taskType, state, worker⟩

/-- The time in a column. One that has no date is an error here; the driver may also break off
at it, and gives no answer either way. -/
def readTime (column : String) (time : Micros) : Except TaskError Timestamp :=
  match Timestamp.ofMicros? time with
  | some time => .ok time
  | none => .error (.database (.undecodable column))

/-- The status in the column. -/
def readStatus : StatusColumn → Except TaskError Status
  | .known status => .ok status
  | .foreign text => .error (.unknownStatus text)

/-- The time in a column that may be empty. -/
def readOptionalTime (column : String) : Option Micros → Except TaskError (Option Timestamp)
  | none => .ok none
  | some time => (readTime column time).map some

/-- The task of a row. A state that cannot be read counts before a foreign status, and that
before a time out of range. -/
def task (row : Row) : Except TaskError Task := do
  let state ← row.readState
  let status ← readStatus row.status
  let leaseExpires ← readOptionalTime "lease_expires_at" row.leaseExpires
  let created ← readTime "created_at" row.created
  let updated ← readTime "updated_at" row.updated
  pure
    { id := row.id, taskType := row.taskType, state, status
      worker := row.worker, leaseExpires, error := row.error, parent := row.parent
      created, updated }

end Row
end LeaseQueue
