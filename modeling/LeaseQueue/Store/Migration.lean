/-
Changes of the schema, each applied once:

* `Migration`: named statements that belong together;
* `Migration.pending`: the ones that are not recorded as applied, in order;
* `Migration.runAll`: applies the pending ones and records them;
* `Schema.migrations`: the migrations of the task table, oldest first.

The statements are a parameter, with what each of them does.
-/
import LeaseQueue.Store.Transaction

namespace LeaseQueue

/-- A named change of the schema. -/
structure Migration (σ : Type) where
  name : String
  statements : List σ

namespace Migration

variable {σ : Type}

/-- The migrations that are not recorded, in order. -/
def pending (all : List (Migration σ)) (applied : List String) : List (Migration σ) :=
  all.filter fun migration => !applied.contains migration.name

/-- A statement of the bookkeeping. -/
def bookkeeping {α : Type} (body : Micros → Database → Database.Reply α) :
    Action MigrationError α :=
  (Action.statement none body).mapError fun state => .database (.refused state)

/-- Runs statements in order, up to the first one that fails. -/
def runStatements (execute : σ → Action SqlState Unit) : List σ → Action SqlState Unit
  | [] => pure ()
  | first :: rest => do
    execute first
    runStatements execute rest

/-- Runs the statements of a migration and records it. -/
def apply (execute : σ → Action SqlState Unit) (migration : Migration σ) :
    Action MigrationError Unit := do
  (runStatements execute migration.statements).mapError
    fun state => .failed migration.name (.refused state)
  bookkeeping fun now database => database.recordMigration now migration.name

/-- Applies migrations in order, up to the first one that fails. -/
def applyAll (execute : σ → Action SqlState Unit) :
    List (Migration σ) → Action MigrationError Unit
  | [] => pure ()
  | first :: rest => do
    apply execute first
    applyAll execute rest

/-- Creates the record of migrations, if there is none. -/
def createRecord : Action MigrationError Unit :=
  bookkeeping fun _ database => (.ok (), database.createRecord)

/-- Applies the migrations that are not recorded, and counts them. -/
def runAll (execute : σ → Action SqlState Unit) (all : List (Migration σ)) :
    Action MigrationError Nat := do
  createRecord
  let record ← bookkeeping fun _ database => database.record
  let due := pending all (record.map AppliedMigration.name)
  applyAll execute due
  pure due.length

/-- One record comes before another: it was made earlier, or at the same time with
a smaller name. -/
def recordedBefore (a b : AppliedMigration) : Bool :=
  decide (a.applied < b.applied) || (a.applied == b.applied && decide (a.name < b.name))

/-- The applied migrations, oldest first. -/
def listApplied : Action MigrationError (List AppliedMigration) := do
  createRecord
  let record ← bookkeeping fun _ database => database.record
  pure (record.mergeSort fun a b => !recordedBefore b a)

end Migration

/-! ### The schema -/

namespace Schema

/-- The statements of the schema. -/
inductive Statement where
  | createTaskTable
  | createIndex (name : String)
  deriving DecidableEq

/-- What a statement does. An index needs the task table and changes no answer. -/
def Statement.execute : Statement → Action SqlState Unit
  | .createTaskTable =>
    .statement (some .schema) fun _ database => (.ok (), database.createTaskTable)
  | .createIndex _ => .statement none fun _ database => database.ask fun _ => ()

/-- All migrations, oldest first. -/
def migrations : List (Migration Statement) := [
  { name := "0001_create_tasks"
    statements := [
      .createTaskTable,
      .createIndex "idx_tasks_status_created_at",
      .createIndex "idx_tasks_parent_id"] }]

/-- The statements of all migrations, in order. -/
def statements : List Statement := migrations.flatMap Migration.statements

/-- Drops both tables, with all tasks. -/
def reset : Action MigrationError Unit := do
  (Action.statement (some .tasks) fun _ database =>
    (.ok (), { database with tasks := none })).mapError fun state => .database (.refused state)
  Migration.bookkeeping fun _ database => (.ok (), { database with migrations := none })

end Schema
end LeaseQueue
