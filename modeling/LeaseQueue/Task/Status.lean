/-
The lifecycle states of a task and their names:

* `Status`: pending, running, waiting, completed and failed;
* `Status.name`, `Status.ofName?`: the written form and the way back;
* `ofName?_eq_some_iff`: a name is read exactly as the state it is the name of;
* `Status.isTerminal`: completed or failed.
-/
namespace LeaseQueue

/-- The lifecycle state of a task. -/
inductive Status where
  | pending
  | running
  | waiting
  | completed
  | failed
  deriving DecidableEq, Repr, Inhabited

namespace Status

/-- The states in the order of the lifecycle. -/
def all : List Status := [.pending, .running, .waiting, .completed, .failed]

/-- The name of a state. -/
def name : Status → String
  | .pending => "pending"
  | .running => "running"
  | .waiting => "waiting"
  | .completed => "completed"
  | .failed => "failed"

/-- The state of a name. -/
def ofName? (text : String) : Option Status :=
  all.find? fun status => status.name = text

theorem mem_all (s : Status) : s ∈ all := by cases s <;> decide

theorem name_injective {s t : Status} (h : s.name = t.name) : s = t := by
  cases s <;> cases t <;> first | rfl | simp [name] at h

@[simp] theorem ofName?_name (s : Status) : ofName? s.name = some s := by
  cases s <;> decide

theorem ofName?_eq_some_iff {text : String} {s : Status} :
    ofName? text = some s ↔ text = s.name := by
  constructor
  · intro h
    simpa [eq_comm] using List.find?_some h
  · rintro rfl
    exact ofName?_name s

/-- The state is final. -/
def isTerminal : Status → Bool
  | .completed | .failed => true
  | .pending | .running | .waiting => false

end Status
end LeaseQueue
