/-
The database as one transaction leaves it to the next:

* `Database`: the task table, the next number of a task and the record of applied
  migrations; either table may be missing;
* `Database.insertTask` and the other statements on the task table, each with the
  answer that it gives or the code of its failure;
* `Database.leaseMicros`, `Database.leaseDeadline?`: the length of a lease and its end,
  if they can be represented.

A failed statement leaves the rows alone. It may use up a number.
-/
import LeaseQueue.Store.Table
import LeaseQueue.Task.Forest
import LeaseQueue.Time.Duration

namespace LeaseQueue

/-- A migration that was applied. -/
structure AppliedMigration where
  name : String
  applied : Micros
  deriving DecidableEq

/-- The tables of the database. Numbers of tasks are given out in ascending order
from 1 and never again. -/
structure Database where
  tasks : Option Table := none
  nextId : TaskId := 1
  migrations : Option (List AppliedMigration) := none
  deriving DecidableEq

namespace Database

/-- The database without any table. -/
def empty : Database := {}

/-- The rows of the task table; there are none while it is missing. -/
def rows (database : Database) : Table := database.tasks.getD []

/-- The database before a transaction that is undone. The numbers that it took are
used up. -/
def undo (before after : Database) : Database := { before with nextId := after.nextId }

@[simp] theorem rows_undo (before after : Database) : (before.undo after).rows = before.rows :=
  rfl

/-- The answer of a statement and the database behind it. -/
abbrev Reply (α : Type) := Except SqlState α × Database

/-- Changes the task table, if there is one. -/
def onTasks {α : Type} (database : Database) (statement : Table → Except SqlState (α × Table)) :
    Reply α :=
  match database.tasks with
  | none => (.error .undefinedTable, database)
  | some table =>
    match statement table with
    | .error state => (.error state, database)
    | .ok (answer, table) => (.ok answer, { database with tasks := some table })

/-- Asks the task table, if there is one. -/
def ask {α : Type} (database : Database) (question : Table → α) : Reply α :=
  database.onTasks fun table => .ok (question table, table)

/-- A question changes nothing. -/
theorem ask_database {α : Type} (database : Database) (question : Table → α) :
    (database.ask question).2 = database := by
  unfold ask onTasks
  cases h : database.tasks with
  | none => rfl
  | some table => simp [← h]

/-! ### New tasks -/

/-- Adds a pending task and gives its number. Its parent is looked up behind the
insertion, so that a task can be its own parent. An unknown parent is refused, which
uses the number up. -/
def insertTask (database : Database) (now : Micros) (taskType : String) (state : Json)
    (parent : Option TaskId) : Reply TaskId :=
  match database.tasks with
  | none => (.error .undefinedTable, database)
  | some table =>
    let id := database.nextId
    let database := { database with nextId := id + 1 }
    let table := table ++ [Row.fresh now id taskType state parent]
    if parent.all (Table.has table) then (.ok id, { database with tasks := some table })
    else (.error .foreignKeyViolation, database)

/-- A new task comes behind all others, and a refused one is not there. -/
theorem rows_insertTask (database : Database) (now : Micros) (taskType : String) (state : Json)
    (parent : Option TaskId) :
    (database.insertTask now taskType state parent).2.rows =
      match (database.insertTask now taskType state parent).1 with
      | .ok id => database.rows ++ [Row.fresh now id taskType state parent]
      | .error _ => database.rows := by
  unfold insertTask
  cases h : database.tasks with
  | none => simp [rows, h]
  | some table =>
    dsimp only
    split <;> simp [rows, h]

/-! ### Changes of one row -/

/-- Changes the row of a number under a condition, and tells whether it did. -/
def updateRow (database : Database) (id : TaskId) (condition : Row → Bool) (change : Row → Row) :
    Reply Bool :=
  database.onTasks fun table =>
    .ok (table.any (Table.only id condition), table.update (Table.only id condition) change)

/-- A waiting task becomes pending. -/
def resume (database : Database) (now : Micros) (id : TaskId) : Reply Bool :=
  database.updateRow id (·.hasStatus .waiting) (Row.resumed now)

/-- A waiting task becomes pending with another state. -/
def resumeWith (database : Database) (now : Micros) (id : TaskId) (state : Json) : Reply Bool :=
  database.updateRow id (·.hasStatus .waiting) (Row.resumedWith now state)

/-- The parent of a task, in the table. -/
def parentOf (table : Table) (child : TaskId) : Option TaskId :=
  (table.find? child).bind Row.parent

/-- The parent of a task becomes pending if it is waiting, and is the answer. -/
def resumeParent (database : Database) (now : Micros) (child : TaskId) : Reply (Option TaskId) :=
  database.onTasks fun table =>
    match parentOf table child with
    | none => .ok (none, table)
    | some parent =>
      let pick := Table.only parent (·.hasStatus .waiting)
      .ok (if table.any pick then some parent else none, table.update pick (Row.resumed now))

/-- A task that is neither completed nor failed fails as cancelled. -/
def cancelTask (database : Database) (now : Micros) (id : TaskId) : Reply Bool :=
  database.updateRow id Row.isLive (Row.cancelled now)

/-- The run of a task under a worker ends in an outcome. -/
def finishTask (database : Database) (now : Micros) (id : TaskId) (worker : WorkerId)
    (outcome : Outcome) : Reply Bool :=
  database.updateRow id (Row.isHeldBy worker) (Row.finished now outcome)

/-! ### Leases -/

/-- The milliseconds of a lease, of which there are at most as many as an integer
of 64 bits can count. -/
def leaseMillis (lease : Duration) : Nat := min lease.wholeMillis Text.maxInt64.toNat

/-- The microseconds of a lease. The database multiplies in doubles: from 2 ^ 53 on the
product is rounded. -/
def leaseMicros (lease : Duration) : Nat :=
  ((Double.ofNat (leaseMillis lease)).mul (.ofNat 1000)).roundToNat Text.maxNat64

/-- The interval of a lease can be represented: 64 bits can count its microseconds. -/
def IsInterval (lease : Duration) : Prop := (leaseMicros lease : Int) ≤ Text.maxInt64

instance (lease : Duration) : Decidable (IsInterval lease) :=
  inferInstanceAs (Decidable ((leaseMicros lease : Int) ≤ Text.maxInt64))

/-- The end of the timestamps that the database can represent: the start of the year
294277. -/
def endOfTime : Micros := 9224318016000000000

/-- The end of a lease that starts now, if it can be represented. -/
def leaseDeadline? (now : Micros) (lease : Duration) : Option Micros :=
  let deadline := now + leaseMicros lease
  if IsInterval lease ∧ deadline < endOfTime then some deadline else none

/-- Gives the row of the oldest task that can be claimed to a worker. The interval of the
lease is computed when the statement is planned, before any row is looked for, and its end
only for a row. -/
def claimTask (database : Database) (now : Micros) (types : List String) (worker : WorkerId)
    (lease : Duration) : Reply (Option Row) :=
  database.onTasks fun table =>
    if IsInterval lease then
      match Table.oldest? (table.filter (Row.isEligible now types)) with
      | none => .ok (none, table)
      | some row =>
        match leaseDeadline? now lease with
        | none => .error .datetimeOverflow
        | some deadline =>
          .ok (some row,
            table.update (Table.only row.id fun _ => true) (Row.claimed now worker deadline))
    else .error .datetimeOverflow

/-- Moves the end of the lease of a task that runs under a worker. Here too the interval is
computed first. -/
def renewLease (database : Database) (now : Micros) (id : TaskId) (worker : WorkerId)
    (lease : Duration) : Reply Bool :=
  database.onTasks fun table =>
    let pick := Table.only id (Row.isHeldBy worker)
    if IsInterval lease then
      if table.any pick then
        match leaseDeadline? now lease with
        | none => .error .datetimeOverflow
        | some deadline => .ok (true, table.update pick (Row.renewed now deadline))
      else .ok (false, table)
    else .error .datetimeOverflow

/-! ### Questions -/

/-- The row of a task. -/
def findTask (database : Database) (id : TaskId) : Reply (Option Row) :=
  database.ask fun table => table.find? id

/-- The rows of the children of a task, oldest first. -/
def childRows (database : Database) (parent : TaskId) : Reply (List Row) :=
  database.ask fun table => table.children parent

/-- The rows of the children of some rows, once for each of these that is their
parent. -/
def nextRound (table round : Table) : Table :=
  round.flatMap fun row => table.filter fun child => child.parent == some row.id

/-- The edges of a round, of the next one and so on, until one is empty. There are so
many rounds at most: otherwise there is no answer. -/
def walk (table : Table) : (rounds : Nat) → (round : Table) → Option (List Edge)
  | _, [] => some []
  | 0, _ :: _ => none
  | rounds + 1, round =>
    (walk table rounds (nextRound table round)).map fun edges =>
      round.map (fun row => (row.id, row.parent)) ++ edges

/-- The edges of the tree of a task; none if there is no such task. A walk that takes
more rounds than there are rows goes round in a circle. It has no end, and is cut off at
some time. -/
def tree (database : Database) (root : TaskId) : Reply (List Edge) :=
  database.onTasks fun table =>
    match walk table table.length (table.filter fun row => row.id == root) with
    | some edges => .ok (edges, table)
    | none => .error .queryCanceled

/-! ### The schema -/

/-- Adds the task table, if there is none. Numbers start at 1 again. -/
def createTaskTable (database : Database) : Database :=
  match database.tasks with
  | some _ => database
  | none => { database with tasks := some [], nextId := 1 }

/-- Adds the record of migrations, if there is none. -/
def createRecord (database : Database) : Database :=
  { database with migrations := some (database.migrations.getD []) }

/-- The applied migrations, in the order in which they were recorded. -/
def record (database : Database) : Reply (List AppliedMigration) :=
  match database.migrations with
  | none => (.error .undefinedTable, database)
  | some record => (.ok record, database)

/-- Records a migration as applied. A name can be recorded once. -/
def recordMigration (database : Database) (now : Micros) (name : String) : Reply Unit :=
  match database.migrations with
  | none => (.error .undefinedTable, database)
  | some record =>
    if record.any fun applied => applied.name == name then (.error .uniqueViolation, database)
    else (.ok (), { database with migrations := some (record ++ [⟨name, now⟩]) })

end Database
end LeaseQueue
