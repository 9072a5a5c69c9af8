/-
The operations on tasks by their statements.

* `Routine`: statements one after the other, as data: what comes next depends on the answers;
* `Routine.run`: the action that a routine is;
* `Effect`, `Routine.changes`: what each statement found and left, unless it was undone;
* `Operation.routine`, `Operation.run_routine`: the routine of an operation, and that it is what
  the operation does.

An action is a function, which does not tell by which statements it has come to its end. A
routine does, and `run_routine` keeps both together.
-/
import LeaseQueue.Proofs.Store.Statement

namespace LeaseQueue

/-! ### Routines -/

/-- Statements on the task table and notifications, one after the other. -/
inductive Routine : Type → Type 1 where
  | done {α : Type} (result : Except TaskError α) : Routine α
  | statement {α β : Type} (body : Micros → Database → Database.Reply α) (next : α → Routine β) :
      Routine β
  | notify {α : Type} (channel : Channel) (next : Routine α) : Routine α
  /-- The inner routine is undone when it fails. -/
  | savepoint {α β : Type} (inner : Routine α) (next : α → Routine β) : Routine β

namespace Routine

variable {α β : Type}

/-- Goes on with the answer of a routine, unless it has failed. -/
protected def bind : Routine α → (α → Routine β) → Routine β
  | .done (.ok a), f => f a
  | .done (.error e), _ => .done (.error e)
  | .statement body next, f => .statement body fun a => (next a).bind f
  | .notify channel next, f => .notify channel (next.bind f)
  | .savepoint inner next, f => .savepoint inner fun a => (next a).bind f

instance : Monad Routine where
  pure a := .done (.ok a)
  bind := Routine.bind

instance : LawfulMonad Routine :=
  LawfulMonad.mk' Routine
    (fun routine => by
      induction routine with
      | done result => cases result <;> rfl
      | statement body next ih => exact congrArg _ (funext ih)
      | notify channel next ih => exact congrArg _ ih
      | savepoint inner next _ ih => exact congrArg _ (funext ih))
    (fun _ _ => rfl)
    (fun routine f _ => by
      induction routine with
      | done result => cases result <;> rfl
      | statement body next ih => exact congrArg _ (funext fun a => ih a f)
      | notify channel next ih => exact congrArg _ (ih f)
      | savepoint inner next _ ih => exact congrArg _ (funext fun a => ih a f))

/-- A single statement on the task table. -/
def ask (body : Micros → Database → Database.Reply α) : Routine α := .statement body pure

/-- Fails. -/
def fail (e : TaskError) : Routine α := .done (.error e)

/-! ### What a routine does -/

/-- The action that a routine is. -/
def run : {α : Type} → Routine α → TaskAction α
  | _, .done result => Action.ofExcept result
  | _, .statement body next => Action.onTasks body >>= fun a => (next a).run
  | _, .notify channel next => Action.notify channel >>= fun _ => next.run
  | _, .savepoint inner next => inner.run.savepoint >>= fun a => (next a).run

end Routine

namespace Action

instance {ε : Type} : LawfulMonad (Action ε) :=
  LawfulMonad.mk' (Action ε)
    (fun action => by
      funext tx
      change run (action >>= fun a => pure a) tx = run action tx
      rw [run_bind]
      obtain ⟨_ | a, after⟩ := run action tx <;> rfl)
    (fun _ _ => rfl)
    (fun action f g => by
      funext tx
      change run (action >>= f >>= g) tx = run (action >>= fun a => f a >>= g) tx
      simp only [run_bind]
      obtain ⟨_ | a, after⟩ := run action tx <;> rfl)

end Action

namespace Routine

variable {α β : Type}

@[simp] lemma run_pure (a : α) : (pure a : Routine α).run = pure a := rfl

@[simp] lemma run_ask (body : Micros → Database → Database.Reply α) :
    (ask body).run = Action.onTasks body :=
  bind_pure _

@[simp] lemma run_bind (routine : Routine α) (f : α → Routine β) :
    (routine >>= f).run = routine.run >>= fun a => (f a).run := by
  induction routine with
  | done result => cases result <;> rfl
  | statement body next ih =>
      change (Action.onTasks body >>= fun a => (next a >>= f).run) = _
      simp only [ih, run, bind_assoc]
  | notify channel next ih =>
      change (Action.notify channel >>= fun _ => (next >>= f).run) = _
      simp only [ih, run, bind_assoc]
  | savepoint inner next _ ih =>
      change (inner.run.savepoint >>= fun a => (next a >>= f).run) = _
      simp only [ih, run, bind_assoc]

@[simp] lemma run_map (f : α → β) (routine : Routine α) : (f <$> routine).run = f <$> routine.run :=
  run_bind routine fun a => pure (f a)

end Routine

/-! ### Changes -/

/-- The database before a statement and behind it. -/
structure Effect where
  before : Database
  after : Database

/-- What the statements of a routine found and left in a transaction. A part that was undone has
left nothing. -/
def Routine.changes : {α : Type} → Routine α → Transaction → List Effect
  | _, .done _, _ => []
  | _, .statement body next, tx =>
    let (answer, after) := (Action.onTasks body).run tx
    ⟨tx.database, after.database⟩ ::
      match answer with
      | .ok a => (next a).changes after
      | .error _ => []
  | _, .notify channel next, tx =>
    match (Action.notify channel).run tx with
    | (.ok _, after) => next.changes after
    | (.error _, _) => []
  | _, .savepoint inner next, tx =>
    match inner.run.savepoint.run tx with
    | (.ok a, after) => inner.changes tx ++ (next a).changes after
    | (.error _, _) => []

/-! ### The operations -/

namespace Routine

variable (channel : Channel)

/-- Publishes on a channel. -/
def tell : Routine Unit := .notify channel (pure ())

/-- Adds a pending task. -/
def create (taskType : String) (state : Option Json) (parent : Option TaskId) :
    Routine TaskId := do
  let id ← ask fun now database =>
    database.insertTask now taskType (state.getD Json.emptyObject) parent
  tell channel
  pure id

/-- Publishes if something was resumed. -/
def tellIf (resumed : Bool) : Routine Unit := if resumed then tell channel else pure ()

/-- Resumes a waiting task. -/
def resume (id : TaskId) (state : Option Json) : Routine Bool := do
  let resumed ← ask fun now database =>
    match state with
    | none => database.resume now id
    | some state => database.resumeWith now id state
  tellIf channel resumed
  pure resumed

/-- Resumes the parent of a task, if it is waiting. -/
def resumeParent (child : TaskId) : Routine (Option TaskId) := do
  let parent ← ask fun now database => database.resumeParent now child
  tellIf channel parent.isSome
  pure parent

/-- The task of a number. -/
def get (id : TaskId) : Routine Task := do
  match ← ask fun _ database => database.findTask id with
  | some row => .done row.task
  | none => fail (.notFound id)

/-- The children of a task. -/
def children (parent : TaskId) : Routine (List Task) := do
  let rows ← ask fun _ database => database.childRows parent
  .done (rows.mapM Row.task)

/-- Cancels tasks in order. -/
def cancelEach (root : TaskId) : List TaskId → Routine (Nat × Bool)
  | [] => pure (0, false)
  | id :: rest => do
    let done ← ask fun now database => database.cancelTask now id
    let (count, rootDone) ← cancelEach root rest
    pure (count + done.toNat, rootDone || (done && id == root))

/-- Cancels a tree, and resumes a parent that waits for it. -/
def cancelTree (id : TaskId) : Routine Nat := do
  let edges ← ask fun _ database => database.tree id
  if edges.isEmpty then fail (.notFound id)
  else
    let (count, rootDone) ← cancelEach id (cancellationOrder id edges)
    if rootDone && (TaskAction.outsideParent id edges).isSome then
      let _ ← resumeParent channel id
      pure count
    else pure count

/-- Writes the outcome of a run, and resumes a parent that waits for it. -/
def finish (task : TaskId) (worker : WorkerId) (outcome : Outcome) : Routine Transition := do
  if outcome.status = .running then fail (.invalidOutcome outcome.status)
  else
    let held ← ask fun now database => database.finishTask now task worker outcome
    if !held then fail (.leaseLost task worker)
    else if outcome.status.isTerminal then
      let parent ← resumeParent channel task
      pure ⟨task, outcome.status, parent⟩
    else
      tellIf channel (outcome.status == .pending)
      pure ⟨task, outcome.status, none⟩

lemma run_tell : (tell channel).run = Action.notify channel := bind_pure _

lemma run_tellIf (resumed : Bool) :
    (tellIf channel resumed).run = TaskAction.notifyIf channel resumed := by
  cases resumed with
  | false => rfl
  | true => exact run_tell channel

lemma run_create (taskType : String) (state : Option Json) (parent : Option TaskId) :
    (create channel taskType state parent).run =
      TaskAction.create channel taskType state parent := by
  simp only [create, TaskAction.create, run_bind, run_ask, run_tell, run_pure]

lemma run_resume (id : TaskId) (state : Option Json) :
    (resume channel id state).run = TaskAction.resume channel id state := by
  cases state <;> simp only [resume, TaskAction.resume, run_bind, run_ask, run_tellIf, run_pure]

lemma run_resumeParent (child : TaskId) :
    (resumeParent channel child).run = TaskAction.resumeParent channel child := by
  simp only [resumeParent, TaskAction.resumeParent, run_bind, run_ask, run_tellIf, run_pure]

lemma run_get (id : TaskId) : (get id).run = TaskAction.get id := by
  simp only [get, TaskAction.get, run_bind, run_ask]
  refine congrArg _ (funext fun row => ?_)
  cases row <;> rfl

lemma run_children (parent : TaskId) : (children parent).run = TaskAction.children parent := by
  simp only [children, TaskAction.children, run_bind, run_ask]
  rfl

lemma run_cancelEach (root : TaskId) (ids : List TaskId) :
    (cancelEach root ids).run = TaskAction.cancelEach root ids := by
  induction ids with
  | nil => rfl
  | cons id rest ih =>
      simp only [cancelEach, TaskAction.cancelEach, run_bind, run_ask, ih, run_pure]

lemma run_cancelTree (id : TaskId) :
    (cancelTree channel id).run = TaskAction.cancelTree channel id := by
  simp only [cancelTree, TaskAction.cancelTree, run_bind, run_ask]
  refine congrArg _ (funext fun edges => ?_)
  split
  · rfl
  · simp only [run_bind, run_cancelEach]
    refine congrArg _ (funext fun cancelled => ?_)
    split
    · simp only [run_bind, run_resumeParent, run_pure]
    · rfl

lemma run_finish (task : TaskId) (worker : WorkerId) (outcome : Outcome) :
    (finish channel task worker outcome).run = TaskAction.finish channel task worker outcome := by
  simp only [finish, TaskAction.finish]
  split
  · rfl
  · simp only [run_bind, run_ask]
    refine congrArg _ (funext fun held => ?_)
    split
    · rfl
    · split
      · simp only [run_bind, run_resumeParent, run_pure]
      · simp only [run_bind, run_tellIf, run_pure]

end Routine

namespace Operation

/-- The statements of an operation. -/
def routine (channel : Channel) : Operation → Routine Answer
  | .create taskType state => .created <$> Routine.create channel taskType state none
  | .createChild parent taskType state =>
    .created <$> Routine.create channel taskType state (some parent)
  | .resume id => .resumed <$> Routine.resume channel id none
  | .resumeWith id state => .resumed <$> Routine.resume channel id (some state)
  | .get id => .task <$> Routine.get id
  | .children parent | .lockChildren parent => .tasks <$> Routine.children parent
  | .cancel id => .savepoint (Routine.cancelTree channel id) fun count => pure (.cancelled count)
  | .finish task worker outcome => .finished <$> Routine.finish channel task worker outcome
  | .notify => (fun _ => .notified) <$> Routine.tell channel

/-- An operation does what its statements do. -/
theorem run_routine (channel : Channel) (operation : Operation) :
    (operation.routine channel).run = operation.action channel := by
  cases operation with
  | create | createChild =>
      simp only [routine, action, Routine.run_map, Routine.run_create]
  | resume | resumeWith => simp only [routine, action, Routine.run_map, Routine.run_resume]
  | get => simp only [routine, action, Routine.run_map, Routine.run_get]
  | children | lockChildren =>
      simp only [routine, action, Routine.run_map, Routine.run_children]
  | cancel id =>
      rw [routine, Routine.run, Routine.run_cancelTree]
      rfl
  | finish => simp only [routine, action, Routine.run_map, Routine.run_finish]
  | notify => simp only [routine, action, Routine.run_map, Routine.run_tell]

end Operation
end LeaseQueue
