/-
Tasks and outcomes as JSON:

* `Task.toJson`, `Task.ofJson`, `Task.parse`: a task as a value, and back from a
  value or from text;
* `Outcome.toJson`, `Outcome.ofJson`, `Outcome.parse`: the same for an outcome.

Both are records: absent values are `null`, and when reading they may be missing.
-/
import LeaseQueue.Record.OfText

namespace LeaseQueue

namespace Task

/-- The fields of a task. -/
def shape : Shape where
  name := "Task"
  fields := [
    .required "id" .integer,
    .required "task_type" .string,
    .required "state" .json,
    .required "status" .status,
    .optional "worker_id" .string,
    .optional "lease_expires_at" .time,
    .optional "error" .string,
    .optional "parent_id" .integer,
    .required "created_at" .time,
    .required "updated_at" .time]

/-- The task of the values of its fields. -/
def ofValues : Shape.Values shape.fields → Task
  | (id, taskType, state, status, worker, leaseExpires, error, parent, created, updated, ()) =>
    ⟨id, taskType, state, status, worker, leaseExpires, error, parent, created, updated⟩

/-- The names and values of the fields of a task, in order. -/
def fields (t : Task) : List (String × Json) := [
  ("id", .int t.id),
  ("task_type", .string t.taskType),
  ("state", t.state),
  ("status", .string t.status.name),
  ("worker_id", .ofOption .string t.worker),
  ("lease_expires_at", .ofOption (fun time => .string time.text) t.leaseExpires),
  ("error", .ofOption .string t.error),
  ("parent_id", .ofOption .int t.parent),
  ("created_at", .string t.created.text),
  ("updated_at", .string t.updated.text)]

/-- A task as a JSON object. -/
def toJson (t : Task) : Json := .ofEntries t.fields

/-- The task of a JSON value. -/
def ofJson (value : Json) : Except Json.Mismatch Task := (shape.ofJson value).map ofValues

/-- The task of a JSON text. -/
def parse (text : String) : Except Json.Fault Task := (shape.parse text).map ofValues

/-- A task as lines of JSON, its fields in the order of the record. -/
def pretty (t : Task) : String := Json.pretty (.object t.fields)

end Task

namespace Outcome

/-- The fields of an outcome. -/
def shape : Shape where
  name := "TaskResult"
  fields := [
    .optional "new_state" .json,
    .required "new_status" .status,
    .optional "error" .string]

/-- The outcome of the values of its fields. -/
def ofValues : Shape.Values shape.fields → Outcome
  | (state, status, error, ()) => ⟨state, status, error⟩

/-- The names and values of the fields of an outcome, in order. -/
def fields (o : Outcome) : List (String × Json) := [
  ("new_state", o.state.getD .null),
  ("new_status", .string o.status.name),
  ("error", .ofOption .string o.error)]

/-- An outcome as a JSON object. -/
def toJson (o : Outcome) : Json := .ofEntries o.fields

/-- The outcome of a JSON value. -/
def ofJson (value : Json) : Except Json.Mismatch Outcome := (shape.ofJson value).map ofValues

/-- The outcome of a JSON text. -/
def parse (text : String) : Except Json.Fault Outcome := (shape.parse text).map ofValues

end Outcome
end LeaseQueue
