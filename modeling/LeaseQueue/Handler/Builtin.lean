/-
The handlers that are built in:

* `echo`: completes at once and keeps its state;
* `fanOut`: creates a child for each entry of its state, waits for them and
  completes with a summary of how they ended;
* `FanOutState`: the state of a fan-out, with its JSON form;
* `summarize`: the summary of finished children, none while one is unfinished.
-/
import LeaseQueue.Handler.Program
import LeaseQueue.Record.OfJson
import LeaseQueue.Registry

namespace LeaseQueue

/-! ### The state of a fan-out -/

/-- The states of the children to create, and whether they are created. -/
structure FanOutState where
  children : List Json
  spawned : Bool
  deriving DecidableEq

namespace FanOutState

/-- The fields of the state, which may both be missing. -/
def shape : Shape where
  name := "FanOutState"
  fields := [⟨"children", .array, some ([] : List Json)⟩, ⟨"spawned", .boolean, some false⟩]

/-- The state of the values of its fields. -/
def ofValues : Shape.Values shape.fields → FanOutState
  | (children, spawned, ()) => ⟨children, spawned⟩

/-- The state of a JSON value. -/
def ofJson (value : Json) : Except Json.Mismatch FanOutState :=
  (shape.ofJson value).map ofValues

/-- The state as a JSON object. -/
def toJson (state : FanOutState) : Json :=
  .ofEntries [("children", .array state.children), ("spawned", .bool state.spawned)]

end FanOutState

/-! ### Summaries -/

/-- What a summary says of a child. -/
def summaryEntry (child : Task) : Json :=
  .ofEntries [
    ("id", .int child.id),
    ("status", .string child.status.name),
    ("state", child.state),
    ("error", .ofOption .string child.error)]

/-- The children as they ended, in their order; nothing while one is unfinished. -/
def summarize (children : List Task) : Option Json :=
  if children.all Task.isTerminal then
    some (.ofEntries [
      ("children", .int children.length),
      ("failed", .int (children.countP fun child => child.status == .failed)),
      ("results", .array (children.map summaryEntry))])
  else none

/-! ### Handlers -/

namespace Builtin

/-- The type of tasks that only keep their state. -/
def echoType : String := "echo"

/-- The type of tasks that create children. -/
def fanOutType : String := "fan_out"

/-- Completes with the state it was started with. -/
def echo : Handler := fun run => .finish (.completedWith run.task.state)

/-- The end of a first run, behind the creation of the children. -/
def afterSpawn (state : FanOutState) : Except TaskError Unit → Program
  | .error e => .finish (.failed s!"failed to create child: {e.message}")
  | .ok () =>
    if state.children.isEmpty then .finish (.completedWith ((summarize []).getD .null))
    else .finish (.waiting (some { state with spawned := true }.toJson))

/-- The end of a later run, behind the look at the children. -/
def afterChildren : Except TaskError Answer → Program
  | .error e => .finish (.failed s!"failed to list children: {e.message}")
  | .ok (.tasks children) =>
    match summarize children with
    | some summary => .finish (.completedWith summary)
    | none => .finish (.waiting none)
  | .ok _ => .finish (.waiting none)

/-- A first run creates the children and waits; a later one completes when all of
them are at an end. -/
def fanOut : Handler := fun run =>
  match FanOutState.ofJson run.task.state with
  | .error why => .finish (.failed s!"invalid fan_out state: {why.message}")
  | .ok state =>
    if state.spawned then .perform (.lockChildren run.task.id) afterChildren
    else
      Program.performAll (afterSpawn state)
        (state.children.map fun child => .createChild run.task.id echoType (some child))

/-- The built-in handlers by their types. -/
def handlers : List (String × Handler) := [(echoType, echo), (fanOutType, fanOut)]

end Builtin
end LeaseQueue
