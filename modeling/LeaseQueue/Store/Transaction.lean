/-
Transactions and what runs inside them:

* `Transaction`: the database as the transaction sees it, the time at which it
  began and the channels it will publish on;
* `Action`: a program of statements, which ends in an answer or an error and
  leaves a transaction either way;
* `Action.statement`: one statement; after a failed one all others fail, too;
* `Action.savepoint`: a part that is undone when it fails, so that the
  transaction stays usable;
* `Transaction.commit`, `Transaction.rollback`: both ends.
-/
import LeaseQueue.Store.Database

namespace LeaseQueue

/-- Where the database can be made to fail: at a statement on the task table, at a
notification, at a commit, where the task table is created, and where a listener
subscribes. -/
inductive FaultPoint where
  | tasks
  | notify
  | commit
  | schema
  | listen
  deriving DecidableEq

/-- A fault that is still to come: the first time that its point is reached. -/
structure PlannedFault where
  point : FaultPoint
  state : SqlState
  deriving DecidableEq

/-- A transaction under way. -/
structure Transaction where
  now : Micros
  database : Database
  published : List Channel := []
  aborted : Bool := false
  fault : Option PlannedFault := none
  deriving DecidableEq

namespace Transaction

/-- The transaction meets the fault that is still to come. -/
def faultAt (tx : Transaction) (point : FaultPoint) : Option SqlState :=
  tx.fault.bind fun fault => if fault.point = point then some fault.state else none

/-- The fault to come is used up, and a statement has failed by it. -/
def spendFault (tx : Transaction) : Transaction := { tx with fault := none, aborted := true }

/-- Publishes on a channel at the end, once however often it is asked to. -/
def publish (tx : Transaction) (channel : Channel) : Transaction :=
  if channel ∈ tx.published then tx else { tx with published := tx.published ++ [channel] }

/-- The transaction as it was, behind a part that is undone. -/
def restore (before after : Transaction) : Transaction :=
  { before with database := before.database.undo after.database, fault := after.fault }

/-! ### The end -/

/-- What the end of a transaction leaves: the answer to the commit, the
notifications, the database, and the failure still to come. -/
structure End where
  answer : Except SqlState Unit
  published : List Channel
  database : Database
  fault : Option PlannedFault

/-- Undoes a transaction that began on a database. -/
def rollback (tx : Transaction) (before : Database) : End :=
  ⟨.ok (), [], before.undo tx.database, tx.fault⟩

/-- Ends a transaction that began on a database. One in which a statement has
failed is undone, and nobody is told. -/
def commit (tx : Transaction) (before : Database) : End :=
  if tx.aborted then tx.rollback before
  else
    match tx.faultAt .commit with
    | some state => ⟨.error state, [], before.undo tx.database, none⟩
    | none => ⟨.ok (), tx.published, tx.database, tx.fault⟩

/-- A commit that fails leaves no trace. -/
theorem commit_error {tx : Transaction} {before : Database} {state : SqlState}
    (h : (tx.commit before).answer = .error state) :
    (tx.commit before).database.rows = before.rows ∧ (tx.commit before).published = [] := by
  unfold commit at h ⊢
  by_cases ha : tx.aborted = true
  · simp [ha, rollback] at h
  · cases hf : tx.faultAt .commit <;> simp_all

end Transaction

/-! ### Actions -/

/-- A program of statements in a transaction. -/
def Action (ε α : Type) := Transaction → Except ε α × Transaction

namespace Action

variable {ε α β : Type}

/-- Runs an action in a transaction. -/
def run (action : Action ε α) (tx : Transaction) : Except ε α × Transaction := action tx

/-- Gives an answer and does nothing. -/
protected def pure (a : α) : Action ε α := fun tx => (.ok a, tx)

/-- Goes on with the answer of an action, unless it has failed. -/
protected def bind (action : Action ε α) (next : α → Action ε β) : Action ε β := fun tx =>
  match action tx with
  | (.ok a, tx) => next a tx
  | (.error e, tx) => (.error e, tx)

instance : Monad (Action ε) where
  pure := Action.pure
  bind := Action.bind

/-- Fails. -/
def fail (e : ε) : Action ε α := fun tx => (.error e, tx)

/-- Gives the answer or the error that is at hand. -/
def ofExcept (result : Except ε α) : Action ε α := fun tx => (result, tx)

/-- Puts the error of an action into other words. -/
def mapError {δ : Type} (f : ε → δ) (action : Action ε α) : Action δ α := fun tx =>
  match action tx with
  | (.ok a, tx) => (.ok a, tx)
  | (.error e, tx) => (.error (f e), tx)

@[simp] theorem run_pure (a : α) (tx : Transaction) :
    run (pure a : Action ε α) tx = (.ok a, tx) := rfl

theorem run_bind (action : Action ε α) (next : α → Action ε β) (tx : Transaction) :
    run (action >>= next) tx =
      match run action tx with
      | (.ok a, tx) => run (next a) tx
      | (.error e, tx) => (.error e, tx) := rfl

@[simp] theorem run_fail (e : ε) (tx : Transaction) :
    run (fail e : Action ε α) tx = (.error e, tx) := rfl

@[simp] theorem run_ofExcept (result : Except ε α) (tx : Transaction) :
    run (ofExcept result) tx = (result, tx) := rfl

/-! ### Statements -/

/-- A statement that changes the database, at a point where it can be made to
fail. -/
def statement (point : Option FaultPoint) (body : Micros → Database → Database.Reply α) :
    Action SqlState α := fun tx =>
  if tx.aborted then (.error .failedTransaction, tx)
  else
    match point.bind tx.faultAt with
    | some state => (.error state, tx.spendFault)
    | none =>
      match body tx.now tx.database with
      | (.ok a, database) => (.ok a, { tx with database })
      | (.error state, database) => (.error state, { tx with database, aborted := true })

/-- A statement on the task table. -/
def onTasks (body : Micros → Database → Database.Reply α) : Action TaskError α :=
  (statement (some .tasks) body).mapError .refused

/-- Publishes on a channel when the transaction is committed. -/
def notify (channel : Channel) : Action TaskError Unit := fun tx =>
  match statement (some .notify) (fun _ database => (.ok (), database)) tx with
  | (.ok (), tx) => (.ok (), tx.publish channel)
  | (.error state, tx) => (.error (.refused state), tx)

/-- An action that is undone when it fails. -/
def savepoint (action : Action TaskError α) : Action TaskError α := fun tx =>
  if tx.aborted then (.error (.refused .failedTransaction), tx)
  else
    match action tx with
    | (.ok a, after) =>
      if after.aborted then (.error (.refused .failedTransaction), tx.restore after)
      else (.ok a, after)
    | (.error e, after) => (.error e, tx.restore after)

/-- What is undone leaves the rows and the notifications of the transaction as they
were. -/
theorem savepoint_error {action : Action TaskError α} {tx after : Transaction} {e : TaskError}
    (h : run (savepoint action) tx = (.error e, after)) :
    after.database.rows = tx.database.rows ∧ after.published = tx.published := by
  simp only [run, savepoint] at h
  split at h
  · cases h; exact ⟨rfl, rfl⟩
  · split at h
    · split at h
      · cases h; exact ⟨rfl, rfl⟩
      · cases h
    · cases h; exact ⟨rfl, rfl⟩

end Action
end LeaseQueue
