/-
The store of tasks: a database and its clock, with calls that are transactions of
their own:

* `Store`: the database, the clock and a failure still to come;
* `Store.transact`, `Store.autocommit`: an action in a transaction of its own, or
  as a single statement;
* `Store.perform`: an operation on tasks;
* `Store.claim`, `Store.renew`, `Store.finish`: the calls of a worker;
* `Store.migrate`, `Store.reset`, `Store.appliedMigrations`: the schema.

Each call gives an answer, the channels it has published on and the next store.
-/
import LeaseQueue.Store.Migration
import LeaseQueue.Store.Operation

namespace LeaseQueue

/-- The database, its clock and the failure still to come. -/
structure Store where
  database : Database := .empty
  clock : Micros
  fault : Option PlannedFault := none
  deriving DecidableEq

namespace Store

/-- What a call leaves. -/
structure Reply (ε α : Type) where
  answer : Except ε α
  published : List Channel
  store : Store

/-- The transaction that begins now. -/
def begin (store : Store) : Transaction where
  now := store.clock
  database := store.database
  fault := store.fault

/-- The store behind the end of a transaction. -/
def after (store : Store) (finish : Transaction.End) : Store :=
  { store with database := finish.database, fault := finish.fault }

/-- Ends a transaction with a commit. -/
def commit (store : Store) (tx : Transaction) : Reply SqlState Unit :=
  let finish := tx.commit store.database
  ⟨finish.answer, finish.published, store.after finish⟩

/-- Ends a transaction without a trace. -/
def rollback (store : Store) (tx : Transaction) : Store := store.after (tx.rollback store.database)

variable {ε α : Type}

/-- Runs an action in a transaction of its own, which is undone when the action
fails. -/
def transact (store : Store) (refused : SqlState → ε) (action : Action ε α) : Reply ε α :=
  match action.run store.begin with
  | (.error e, tx) => ⟨.error e, [], store.rollback tx⟩
  | (.ok a, tx) =>
    let reply := store.commit tx
    ⟨(reply.answer.mapError refused).map fun _ => a, reply.published, reply.store⟩

/-- A transaction that answers an error leaves no trace. -/
theorem transact_error {store : Store} {refused : SqlState → ε} {action : Action ε α} {e : ε}
    (h : (store.transact refused action).answer = .error e) :
    (store.transact refused action).store.database.rows = store.database.rows ∧
      (store.transact refused action).published = [] := by
  unfold transact at h ⊢
  split
  · exact ⟨rfl, rfl⟩
  · next a tx ha =>
    simp only [ha] at h
    have hc : ∃ state, (tx.commit store.database).answer = .error state := by
      cases hr : (tx.commit store.database).answer with
      | error state => exact ⟨state, rfl⟩
      | ok u => simp only [commit, hr] at h; cases h
    obtain ⟨state, hs⟩ := hc
    exact Transaction.commit_error hs

/-- Runs a single statement, which is undone when it fails. There is no commit that
could fail. -/
def autocommit (store : Store) (action : Action ε α) : Reply ε α :=
  match action.run store.begin with
  | (.error e, tx) => ⟨.error e, [], store.rollback tx⟩
  | (.ok a, tx) =>
    ⟨.ok a, tx.published, { store with database := tx.database, fault := tx.fault }⟩

/-! ### Tasks -/

/-- Runs an operation. -/
def perform (store : Store) (channel : Channel) (operation : Operation) :
    Reply TaskError Answer :=
  if operation.isTransactional then store.transact .refused (operation.action channel)
  else store.autocommit (operation.action channel)

/-- The claim of a task: the row is changed, and then read. -/
def claiming (types : List String) (worker : WorkerId) (lease : Duration) :
    Action TaskError (Option ClaimedTask) := do
  let row ← Action.onTasks fun now database => database.claimTask now types worker lease
  Action.ofExcept (row.mapM fun row => row.given worker)

/-- Claims a task in a transaction. A row that cannot be read is not claimed. -/
def tryClaim (store : Store) (types : List String) (worker : WorkerId) (lease : Duration) :
    Reply TaskError (Option ClaimedTask) :=
  store.transact .refused (claiming types worker lease)

/-- The answer to a claim. A race lost to another transaction is no error. -/
def claimAnswer : Except TaskError (Option ClaimedTask) → Except TaskError Claim
  | .ok (some task) => .ok (.claimed task)
  | .ok none => .ok .empty
  | .error e => if e = .refused .serializationFailure then .ok .contended else .error e

/-- Leases the oldest task of some types that is pending, or whose lease has run
out, to a worker. Without any type the database is not asked. -/
def claim (store : Store) (types : List String) (worker : WorkerId) (lease : Duration) :
    Reply TaskError Claim :=
  if types.isEmpty then ⟨.ok .empty, [], store⟩
  else
    let reply := store.tryClaim types worker lease
    ⟨claimAnswer reply.answer, reply.published, reply.store⟩

/-- Renews the lease of a task, if it still runs under the worker. -/
def renew (store : Store) (task : TaskId) (worker : WorkerId) (lease : Duration) :
    Reply TaskError Bool :=
  store.autocommit
    (Action.onTasks fun now database => database.renewLease now task worker lease)

/-- Writes the outcome of a run in a transaction of its own. -/
def finish (store : Store) (channel : Channel) (task : TaskId) (worker : WorkerId)
    (outcome : Outcome) : Reply TaskError Transition :=
  store.transact .refused (TaskAction.finish channel task worker outcome)

/-! ### The schema -/

/-- A statement of the database failed outside of a migration. -/
def refusedSchema (state : SqlState) : MigrationError := .database (.refused state)

/-- Brings the schema up to date, and counts the migrations that were applied. -/
def migrate (store : Store) : Reply MigrationError Nat :=
  store.transact refusedSchema (Migration.runAll Schema.Statement.execute Schema.migrations)

/-- The applied migrations, oldest first. -/
def appliedMigrations (store : Store) : Reply MigrationError (List AppliedMigration) :=
  store.autocommit Migration.listApplied

/-- Drops the schema, with all tasks. -/
def reset (store : Store) : Reply MigrationError Unit := store.transact refusedSchema Schema.reset

/-! ### Interventions -/

/-- Time passes. -/
def advance (store : Store) (micros : Micros) : Store :=
  { store with clock := store.clock + micros }

/-- Writes a text into the status column of a task, whatever it was. -/
def setStatus (store : Store) (id : TaskId) (text : String) : Store :=
  let write := Table.update (fun row => row.id == id) fun row =>
    { row with status := .ofText text }
  { store with database := { store.database with tasks := store.database.tasks.map write } }

/-- The rows that differ from those of an earlier table. -/
def changedSince (store : Store) (seen : Table) : Table :=
  store.database.rows.filter fun row => !seen.contains row

end Store

/-! ### The server -/

/-- A server that can be reached holds a store; otherwise there is a reason. -/
inductive Server where
  | reachable (store : Store)
  | unreachable (fault : ConnectionFault)

/-- Connects to a server. -/
def Server.connect : Server → Except DatabaseError Store
  | .reachable store => .ok store
  | .unreachable fault => .error (.unreachable fault)

end LeaseQueue
