/-
What the commands of the program do:

* `Output`: the lines that a command prints, and why it ended early;
* `CommandError`: the reasons, with their wording;
* `Command.execute`: a command on a server, with the server behind it.

A command looks at its own arguments before it connects.
-/
import LeaseQueue.CommandLine.Command
import LeaseQueue.Handler.Builtin
import LeaseQueue.Json.Reader
import LeaseQueue.Scheduler.Live
import LeaseQueue.Task.Codec

namespace LeaseQueue.CommandLine

/-- Why a command ended early. -/
inductive CommandError where
  | malformedState (text : String) (fault : Json.Fault)
  | connect (host : String) (port : Nat) (error : DatabaseError)
  | task (error : TaskError)
  | config (error : ConfigError)
  | migration (error : MigrationError)
  | registry (error : RegistryError)
  | scheduler (error : SchedulerError)

namespace CommandError

/-- The wording of an error, from the command down to the cause. -/
def message : CommandError → String
  | .malformedState text fault => s!"state is not valid JSON: {text}: {fault.message text}"
  | .connect host port error => s!"failed to connect to {host}:{port}: {error.message}"
  | .task error => error.message
  | .config error => error.message
  | .migration error => error.message
  | .registry error => error.message
  | .scheduler error => error.message

/-- The error of the database behind an error, if there is one. -/
def database? : CommandError → Option DatabaseError
  | .connect _ _ error => some error
  | .task (.database error) => some error
  | .migration (.database error) => some error
  | .migration (.failed _ error) => some error
  | .scheduler (.connect error) => some error
  | .scheduler (.listen _ error) => some error
  | .scheduler (.task (.database error)) => some error
  | .scheduler (.migration (.database error)) => some error
  | .scheduler (.migration (.failed _ error)) => some error
  | _ => none

end CommandError

/-- What a command prints, and why it ended early. -/
structure Output where
  lines : List String := []
  error : Option CommandError := none

/-- The text of the lines. -/
def Output.text (output : Output) : String := String.join (output.lines.map (· ++ "\n"))

/-- What a command leaves. -/
structure Reply where
  output : Output
  server : Server

namespace Command

/-! ### Answers -/

/-- The lines of an answer, or its error. -/
def report {ε α : Type} (reply : Store.Reply ε α) (wrap : ε → CommandError)
    (lines : α → List String) : Reply :=
  match reply.answer with
  | .ok answer => ⟨{ lines := lines answer }, .reachable reply.store⟩
  | .error e => ⟨{ error := some (wrap e) }, .reachable reply.store⟩

/-- A list of tasks as lines of JSON. -/
def prettyTasks (tasks : List Task) : String :=
  Json.pretty (.array (tasks.map fun task => .object task.fields))

/-- The line of an answer about a task. -/
def line (id : TaskId) : Answer → String
  | .created id => toString id
  | .resumed true => s!"resumed {id}"
  | .resumed false => s!"task {id} is not waiting"
  | .task task => task.pretty
  | .tasks tasks => prettyTasks tasks
  | .cancelled count => s!"cancelled {count} task(s)"
  | .finished transition => toString transition.task
  | .notified => ""

/-- Performs an operation about a task. -/
def perform (store : Store) (id : TaskId) (operation : Operation) : Reply :=
  report (store.perform .standard operation) .task fun answer => [line id answer]

/-! ### The schema -/

/-- The line of an applied migration. -/
def migrationLine (migration : AppliedMigration) : String :=
  match Timestamp.ofMicros? migration.applied with
  | some time => s!"{time.textWithOffset}\t{migration.name}"
  | none => s!"\t{migration.name}"

/-- Lists the applied migrations behind a line. -/
def listMigrations (store : Store) (first : String) : Reply :=
  let reply := report store.appliedMigrations .migration (·.map migrationLine)
  { reply with output := { reply.output with lines := first :: reply.output.lines } }

/-- Brings the schema up to date. -/
def migrateSchema (store : Store) (list : Bool) : Reply :=
  let reply := store.migrate
  match reply.answer with
  | .error e => ⟨{ error := some (.migration e) }, .reachable reply.store⟩
  | .ok applied =>
    let first := s!"applied {applied} migration(s)"
    if list then listMigrations reply.store first
    else ⟨{ lines := [first] }, .reachable reply.store⟩

/-- Drops the schema when it is asked to, and brings it up to date. -/
def resetAndMigrate (store : Store) (reset list : Bool) : Reply :=
  if reset then
    let reply := store.reset
    match reply.answer with
    | .ok () => migrateSchema reply.store list
    | .error e => ⟨{ error := some (.migration e) }, .reachable reply.store⟩
  else migrateSchema store list

/-! ### Workers -/

/-- The settings of the scheduler that options ask for. -/
def settings (options : WorkOptions) : Except CommandError SchedulerSettings := do
  let channel ← (Channel.read options.channel).mapError .task
  let fallback := options.fallbackSeconds.map fun seconds =>
    Setting.fallback (some (.ofSeconds seconds))
  let settings := (SchedulerSettings.ofWorkers options.workers).applyAll
    ([.lease (.ofSeconds options.leaseSeconds),
      .heartbeat (.ofSeconds options.heartbeatSeconds),
      .channel channel,
      .shutdownTimeout (.ofSeconds options.shutdownTimeoutSeconds)] ++ fallback.toList)
  settings.validate.mapError .config
  pure settings

/-- A bound on the steps of a scheduler that comes to rest. -/
def schedulerSteps : Nat := 100000

/-- The names of the workers. -/
def workerName (n : Nat) : WorkerId := s!"worker-{n}"

/-- Runs the built-in handlers until there is nothing left to do. -/
def runWorkers (store : Store) (storage : StorageSettings) (settings : SchedulerSettings) :
    Reply :=
  let stay (error : CommandError) : Reply := ⟨{ error := some error }, .reachable store⟩
  match Registry.empty.registerAll Builtin.handlers with
  | (some why, _) => stay (.registry why)
  | (none, registry) =>
    let connections := (storage.withMinConnections settings.requiredConnections).maxConnections
    match Live.start store connections registry settings workerName with
    | .error e => stay (.scheduler e)
    | .ok live =>
      ⟨{}, .reachable ((live.rest schedulerSteps).shutdown schedulerSteps).store⟩

/-- Migrates when it is asked to, and runs workers. -/
def migrateAndWork (store : Store) (storage : StorageSettings) (settings : SchedulerSettings)
    (migrate : Bool) : Reply :=
  if migrate then
    let reply := store.migrate
    match reply.answer with
    | .ok _ => runWorkers reply.store storage settings
    | .error e => ⟨{ error := some (.migration e) }, .reachable reply.store⟩
  else runWorkers store storage settings

/-! ### Commands -/

/-- The state that an argument gives. -/
def parseState (text : String) : Except CommandError Json :=
  (Json.parse text).mapError (.malformedState text)

/-- What a command asks of the store, once its own arguments are in order. -/
def plan (storage : StorageSettings) : Command → Except CommandError (Store → Reply)
  | .migrate reset list => pure fun store => resetAndMigrate store reset list
  | .create taskType state parent => do
    let state ← state.mapM parseState
    let operation :=
      match parent with
      | some parent => Operation.createChild parent taskType state
      | none => Operation.create taskType state
    pure fun store => perform store 0 operation
  | .get id => pure fun store => perform store id (.get id)
  | .children id => pure fun store => perform store id (.children id)
  | .resume id state => do
    let operation :=
      match ← state.mapM parseState with
      | some state => Operation.resumeWith id state
      | none => Operation.resume id
    pure fun store => perform store id operation
  | .cancel id => pure fun store => perform store id (.cancel id)
  | .work options => do
    let settings ← settings options
    pure fun store => migrateAndWork store storage settings options.migrate

end Command

/-- Executes an invocation on a server. -/
def Invocation.execute (invocation : Invocation) (server : Server) : Reply :=
  match invocation.command.plan invocation.storage with
  | .error e => ⟨{ error := some e }, server⟩
  | .ok action =>
    match server.connect with
    | .ok store => action store
    | .error e =>
      ⟨{ error := some (.connect invocation.storage.host invocation.storage.port e) }, server⟩

end LeaseQueue.CommandLine
