/-
Handlers that follow a script: fixed steps and a fixed end.

* `Script`: the steps of one run and how it ends;
* `Script.program`: the program of a run;
* `Script.handler`: one script for each run of a type, the last one again and again.
-/
import LeaseQueue.Handler.Program

namespace LeaseQueue

/-- A step of a script. Some steps are about the task that runs. -/
inductive ScriptStep where
  | perform (operation : Operation)
  | createChild (taskType : String) (state : Option Json)
  | children
  | lockChildren
  | self
  | pause (millis : Nat)
  | stop

/-- How a script ends. -/
inductive ScriptEnd where
  | outcome (outcome : Outcome)
  /-- The task is completed with the state that it was started with. -/
  | echo
  | panic (text : Option String)

/-- The steps of a run and its end. -/
structure Script where
  steps : List ScriptStep
  ending : ScriptEnd

/-- A step in front of a program, whatever it answers. -/
def ScriptStep.before (task : TaskId) (next : Program) : ScriptStep → Program
  | .perform operation => .perform operation fun _ => next
  | .createChild taskType state => .perform (.createChild task taskType state) fun _ => next
  | .children => .perform (.children task) fun _ => next
  | .lockChildren => .perform (.lockChildren task) fun _ => next
  | .self => .perform (.get task) fun _ => next
  | .pause millis => .pause millis next
  | .stop => .stop next

namespace Script

/-- The end of a run. -/
def last (script : Script) (run : RunContext) : Program :=
  match script.ending with
  | .outcome outcome => .finish outcome
  | .echo => .finish (.completedWith run.task.state)
  | .panic text => .panic text

/-- The program of a run. -/
def program (script : Script) : Handler := fun run =>
  script.steps.foldr (fun step next => step.before run.task.id next) (script.last run)

/-- The handler of some scripts. Without any script a run changes nothing and
completes. -/
def handler (scripts : List Script) : Handler := fun run =>
  match scripts[min run.earlierRuns (scripts.length - 1)]? with
  | some script => script.program run
  | none => .finish .completed

end Script
end LeaseQueue
