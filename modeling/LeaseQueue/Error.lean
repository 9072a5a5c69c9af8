/-
What can go wrong, by cause, and the wording of each cause:

* `DatabaseError`: the database refused a statement, could not be reached, or
  holds a value that has no counterpart here;
* `TaskError`: faults of the operations on tasks;
* `ConfigError`: faults of the settings and of the variables they come from;
* `RegistryError`, `MigrationError`, `SchedulerError`: the faults of the rest.
-/
import LeaseQueue.Channel
import LeaseQueue.Task.Basic
import LeaseQueue.Text.Quoted
import LeaseQueue.Time.Duration

namespace LeaseQueue

/-! ### The database -/

/-- The five characters by which a database names the kind of an error. -/
abbrev SqlState := String

namespace SqlState

/-- A parent that does not exist. -/
def foreignKeyViolation : SqlState := "23503"
/-- A key that is taken. -/
def uniqueViolation : SqlState := "23505"
/-- A table that does not exist. -/
def undefinedTable : SqlState := "42P01"
/-- A time outside of the range of timestamps. -/
def datetimeOverflow : SqlState := "22008"
/-- A statement behind one that failed in the same transaction. -/
def failedTransaction : SqlState := "25P02"
/-- A race lost to another transaction. -/
def serializationFailure : SqlState := "40001"
/-- A statement that was cut off before it had come to an end. -/
def queryCanceled : SqlState := "57014"

end SqlState

/-- Why the operating system opened no connection: the number, the kind and the
wording of its error. -/
structure ConnectionFault where
  code : Nat
  kind : String
  description : String
  deriving DecidableEq

/-- The fields of the fault, with their names. -/
def ConnectionFault.listing (fault : ConnectionFault) : String :=
  s!"Os \x7b code: {fault.code}, kind: {fault.kind}, " ++
    s!"message: {Text.quote fault.description} \x7d"

/-- An error of the database or of the way to it. -/
inductive DatabaseError where
  | refused (state : SqlState)
  | unreachable (fault : ConnectionFault)
  | undecodable (column : String)
  deriving DecidableEq

namespace DatabaseError

/-- The code that stands for the error: the one of the database, or the kind of
an error that is not its own. -/
def code : DatabaseError → String
  | .refused state => state
  | .unreachable _ => "Io"
  | .undecodable _ => "ColumnDecode"

/-- The wording of a database error. -/
def message : DatabaseError → String
  | .refused state => s!"error returned from database: SQLSTATE {state}"
  | .unreachable fault =>
    s!"error communicating with database: {fault.description} (os error {fault.code})"
  | .undecodable column => s!"error occurred while decoding column {Text.quote column}"

end DatabaseError

/-! ### Tasks -/

/-- Why an operation on tasks has failed. -/
inductive TaskError where
  | database (error : DatabaseError)
  | notFound (id : TaskId)
  | unknownStatus (text : String)
  | invalidOutcome (status : Status)
  | leaseLost (task : TaskId) (worker : WorkerId)
  | handlerPanicked (text : String)
  | invalidChannel (name : String)
  | serialization (fault : String)
  deriving DecidableEq

namespace TaskError

/-- The database refused a statement. -/
def refused (state : SqlState) : TaskError := .database (.refused state)

/-- The wording of an error. -/
def message : TaskError → String
  | .database error => s!"Database error: {error.message}"
  | .notFound id => s!"Task {id} not found"
  | .unknownStatus text => s!"Unknown task status {Text.quote text}"
  | .invalidOutcome status => s!"handler returned invalid status '{status.name}'"
  | .leaseLost task worker => s!"Task {task} is no longer leased by worker {worker}"
  | .handlerPanicked text => s!"Handler panicked: {text}"
  | .invalidChannel name =>
    s!"Invalid notification channel {Text.quote name}: " ++
      s!"must be an SQL identifier of at most {Channel.maxLength} characters"
  | .serialization fault => s!"Serialization error: {fault}"

end TaskError

/-- The channel of a name, or the error that says that it is none. -/
def Channel.read (name : String) : Except TaskError Channel :=
  match Channel.ofName? name with
  | some channel => .ok channel
  | none => .error (.invalidChannel name)

/-! ### Settings -/

/-- Why settings do not work. -/
inductive InvalidSetting where
  | noWorkers
  | zeroHeartbeat
  | heartbeatTooLong (heartbeat lease : Duration)
  | zeroFallback
  | shrinkingBackoff
  | poolTooSmall (workers required given : Nat)
  | stated (reason : String)
  deriving DecidableEq

/-- The wording of a reason. -/
def InvalidSetting.message : InvalidSetting → String
  | .noWorkers => "at least one worker is required"
  | .zeroHeartbeat => "heartbeat interval must be positive"
  | .heartbeatTooLong heartbeat lease =>
    s!"heartbeat interval ({heartbeat.text}) must be shorter than the lease ({lease.text})"
  | .zeroFallback => "fallback rescan interval must be positive"
  | .shrinkingBackoff => "backoff must start above zero and never shrink"
  | .poolTooSmall workers required given =>
    s!"{workers} workers need a pool of at least {required} connections, got {given}"
  | .stated reason => reason

/-- Why there are no settings, or why they do not work. -/
inductive ConfigError where
  | missingVariable (name : String)
  | malformedVariable (name value reason : String)
  | invalid (why : InvalidSetting)
  deriving DecidableEq

/-- The wording of an error. -/
def ConfigError.message : ConfigError → String
  | .missingVariable name => s!"missing required environment variable {name}"
  | .malformedVariable name value reason =>
    s!"malformed environment variable {name}={Text.quote value}: {reason}"
  | .invalid why => s!"invalid configuration: {why.message}"

/-! ### The rest -/

/-- Why a handler was not registered. -/
inductive RegistryError where
  | alreadyRegistered (taskType : String)
  deriving DecidableEq

/-- The wording of an error. -/
def RegistryError.message : RegistryError → String
  | .alreadyRegistered taskType =>
    s!"handler already registered for task type {Text.quote taskType}"

/-- Why the schema was not changed: by a statement of the bookkeeping, or by one
of a migration. -/
inductive MigrationError where
  | database (error : DatabaseError)
  | failed (name : String) (error : DatabaseError)
  deriving DecidableEq

/-- The wording of an error. -/
def MigrationError.message : MigrationError → String
  | .database error => s!"Database error: {error.message}"
  | .failed name error => s!"Migration {name} failed: {error.message}"

/-- Why a scheduler did not start or stop. -/
inductive SchedulerError where
  | connect (error : DatabaseError)
  | listen (channel : Channel) (error : DatabaseError)
  | invalidConfig (why : ConfigError)
  | migration (error : MigrationError)
  | task (error : TaskError)
  | shutdownTimeout (after : Duration)
  deriving DecidableEq

/-- The wording of an error. -/
def SchedulerError.message : SchedulerError → String
  | .connect error => s!"Failed to connect to database: {error.message}"
  | .listen channel error =>
    s!"Failed to LISTEN on channel {Text.quote channel.name}: {error.message}"
  | .invalidConfig why => s!"Invalid configuration: {why.message}"
  | .migration error => s!"Migration error: {error.message}"
  | .task error => s!"Task error: {error.message}"
  | .shutdownTimeout after => s!"Shutdown timed out after {after.text}"

end LeaseQueue
