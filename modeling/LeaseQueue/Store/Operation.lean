/-
The operations on tasks that run inside a transaction:

* `TaskAction`: an action that may fail with an error of tasks, with the
  operations `create`, `resume`, `get`, `children`, `cancel`, `finish` and `notify`;
* `Operation`, `Answer`: the same operations and their answers as data;
* `Operation.action`: what an operation does.

An operation that makes a task pending publishes on the channel of the store.
-/
import LeaseQueue.Store.Transaction

namespace LeaseQueue

/-- An action that may fail with an error of tasks. -/
abbrev TaskAction := Action TaskError

namespace TaskAction

/-! ### Creation -/

/-- Adds a pending task; without a state it has the empty object. -/
def create (channel : Channel) (taskType : String) (state : Option Json)
    (parent : Option TaskId) : TaskAction TaskId := do
  let id ← Action.onTasks fun now database =>
    database.insertTask now taskType (state.getD Json.emptyObject) parent
  Action.notify channel
  pure id

/-! ### Resumption -/

/-- Publishes on a channel if something was resumed. -/
def notifyIf (channel : Channel) (resumed : Bool) : TaskAction Unit :=
  if resumed then Action.notify channel else pure ()

/-- A waiting task becomes pending, perhaps with another state. Tells whether it was
waiting. -/
def resume (channel : Channel) (id : TaskId) (state : Option Json) : TaskAction Bool := do
  let resumed ← Action.onTasks fun now database =>
    match state with
    | none => database.resume now id
    | some state => database.resumeWith now id state
  notifyIf channel resumed
  pure resumed

/-- The parent of a task becomes pending if it is waiting, and is the answer. -/
def resumeParent (channel : Channel) (child : TaskId) : TaskAction (Option TaskId) := do
  let parent ← Action.onTasks fun now database => database.resumeParent now child
  notifyIf channel parent.isSome
  pure parent

/-! ### Questions -/

/-- The task of a number. -/
def get (id : TaskId) : TaskAction Task := do
  match ← Action.onTasks fun _ database => database.findTask id with
  | some row => Action.ofExcept row.task
  | none => Action.fail (.notFound id)

/-- The children of a task, oldest first. -/
def children (parent : TaskId) : TaskAction (List Task) := do
  let rows ← Action.onTasks fun _ database => database.childRows parent
  Action.ofExcept (rows.mapM Row.task)

/-! ### Cancellation -/

/-- Cancels tasks in order: how many there were to cancel, and whether the root was
among them. -/
def cancelEach (root : TaskId) : List TaskId → TaskAction (Nat × Bool)
  | [] => pure (0, false)
  | id :: rest => do
    let done ← Action.onTasks fun now database => database.cancelTask now id
    let (count, rootDone) ← cancelEach root rest
    pure (count + done.toNat, rootDone || (done && id == root))

/-- The parent of a root, if it lies outside of the tree. -/
def outsideParent (root : TaskId) (edges : List Edge) : Option TaskId :=
  match (edges.find? fun edge => edge.1 == root).bind Prod.snd with
  | none => none
  | some parent => if edges.any fun edge => edge.1 == parent then none else some parent

/-- Cancels a task and all below it, and counts those that were not at an end yet.
When the task itself was one of them, a waiting parent is resumed. -/
def cancelTree (channel : Channel) (id : TaskId) : TaskAction Nat := do
  let edges ← Action.onTasks fun _ database => database.tree id
  if edges.isEmpty then Action.fail (.notFound id)
  else
    let (count, rootDone) ← cancelEach id (cancellationOrder id edges)
    if rootDone && (outsideParent id edges).isSome then
      let _ ← resumeParent channel id
      pure count
    else pure count

/-- Cancels a tree, or leaves the transaction as it was. -/
def cancel (channel : Channel) (id : TaskId) : TaskAction Nat :=
  (cancelTree channel id).savepoint

/-! ### The end of a run -/

/-- Writes the outcome of a run of a task, as long as the task runs under this
worker. The end of a task resumes a waiting parent. -/
def finish (channel : Channel) (task : TaskId) (worker : WorkerId) (outcome : Outcome) :
    TaskAction Transition := do
  if outcome.status = .running then Action.fail (.invalidOutcome outcome.status)
  else
    let held ← Action.onTasks fun now database => database.finishTask now task worker outcome
    if !held then Action.fail (.leaseLost task worker)
    else if outcome.status.isTerminal then
      let parent ← resumeParent channel task
      pure ⟨task, outcome.status, parent⟩
    else
      notifyIf channel (outcome.status == .pending)
      pure ⟨task, outcome.status, none⟩

end TaskAction

/-! ### Operations as data -/

/-- An operation on tasks. -/
inductive Operation where
  | create (taskType : String) (state : Option Json)
  | createChild (parent : TaskId) (taskType : String) (state : Option Json)
  | resume (id : TaskId)
  | resumeWith (id : TaskId) (state : Json)
  | get (id : TaskId)
  | children (parent : TaskId)
  | lockChildren (parent : TaskId)
  | cancel (id : TaskId)
  | finish (task : TaskId) (worker : WorkerId) (outcome : Outcome)
  | notify
  deriving DecidableEq

/-- The answer to an operation. -/
inductive Answer where
  | created (id : TaskId)
  | resumed (done : Bool)
  | task (task : Task)
  | tasks (tasks : List Task)
  | cancelled (count : Nat)
  | finished (transition : Transition)
  | notified
  deriving DecidableEq

namespace Operation

/-- What an operation does. Children are locked against other transactions only,
and here one runs at a time. -/
def action (channel : Channel) : Operation → TaskAction Answer
  | .create taskType state => .created <$> TaskAction.create channel taskType state none
  | .createChild parent taskType state =>
    .created <$> TaskAction.create channel taskType state (some parent)
  | .resume id => .resumed <$> TaskAction.resume channel id none
  | .resumeWith id state => .resumed <$> TaskAction.resume channel id (some state)
  | .get id => .task <$> TaskAction.get id
  | .children parent | .lockChildren parent => .tasks <$> TaskAction.children parent
  | .cancel id => .cancelled <$> TaskAction.cancel channel id
  | .finish task worker outcome =>
    .finished <$> TaskAction.finish channel task worker outcome
  | .notify => (fun _ => .notified) <$> Action.notify channel

/-- The operation needs a transaction of its own; a question or a notification is a
single statement. -/
def isTransactional : Operation → Bool
  | .get _ | .children _ | .lockChildren _ | .notify => false
  | _ => true

end Operation
end LeaseQueue
