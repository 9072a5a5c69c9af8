/-
What an operation makes of a transaction that meets no failure.

* `Database.answered`, `Database.performed`: the answer to an operation and the database behind it;
* `Database.Announces`: the operation publishes a notification;
* `Database.Refuses`: the operation names a parent that is not there;
* `Operation.run_answered`: a transaction answers and holds just that, unless it is refused;
* `Operation.run_refused`: behind an operation that is refused it cannot go on;
* `Operation.run_quiet`: what it holds, if it can go on;
* `Operation.run_aborted`: one that cannot go on stays what it is.
-/
import LeaseQueue.Proofs.Store.Cancellation

namespace LeaseQueue

namespace Database

/-- The database behind an operation at a time. -/
def performed (database : Database) (now : Micros) : Operation → Database
  | .create taskType state =>
    (database.insertTask now taskType (state.getD Json.emptyObject) none).2
  | .createChild parent taskType state =>
    (database.insertTask now taskType (state.getD Json.emptyObject) (some parent)).2
  | .resume id => database.change (Table.only id (·.hasStatus .waiting)) (Row.resumed now)
  | .resumeWith id state =>
    database.change (Table.only id (·.hasStatus .waiting)) (Row.resumedWith now state)
  | .cancel id =>
    if (∃ row ∈ database.rows, row.id = id) ∧ ¬ database.rows.IsOwnParent id then
      database.treeCancelled now id
    else database
  | .finish task worker outcome =>
    if outcome.status ≠ .running ∧ database.Holds task worker then
      database.settled now task worker outcome
    else database
  | .get _ | .children _ | .lockChildren _ | .notify => database

/-- The answer to an operation at a time. -/
def answered (database : Database) (now : Micros) : Operation → Except TaskError Answer
  | .create _ _ => .ok (.created database.nextId)
  | .createChild parent _ _ =>
    if database.Admits (some parent) then .ok (.created database.nextId)
    else .error (.refused .foreignKeyViolation)
  | .resume id | .resumeWith id _ =>
    .ok (.resumed (database.rows.any (Table.only id (·.hasStatus .waiting))))
  | .cancel id =>
    if database.rows.IsOwnParent id then .error (.refused .queryCanceled)
    else if ∃ row ∈ database.rows, row.id = id then
      .ok (.cancelled (database.liveAmong (database.treeOrder id)))
    else .error (.notFound id)
  | .finish task worker outcome =>
    if outcome.status = .running then .error (.invalidOutcome outcome.status)
    else if database.Holds task worker then
      .ok (.finished ⟨task, outcome.status, database.settledParent? now task worker outcome⟩)
    else .error (.leaseLost task worker)
  | .get id => (((database.rows.find? id).elim (.error (.notFound id)) Row.task).map .task)
  | .children parent | .lockChildren parent =>
    ((database.rows.children parent).mapM Row.task).map .tasks
  | .notify => .ok .notified

/-- The operation names a parent that is not there. -/
def Refuses (database : Database) : Operation → Prop
  | .createChild parent _ _ => ¬ database.Admits (some parent)
  | _ => False

/-- The operation publishes a notification. -/
def Announces (database : Database) (now : Micros) : Operation → Prop
  | .create _ _ | .notify => True
  | .createChild parent _ _ => database.Admits (some parent)
  | .resume id | .resumeWith id _ =>
    ∃ row ∈ database.rows, row.id = id ∧ row.hasStatus .waiting = true
  | .cancel id =>
    ((∃ row ∈ database.rows, row.id = id) ∧ ¬ database.rows.IsOwnParent id) ∧
      (database.cancelledParent? now id).isSome = true
  | .finish task worker outcome =>
    (outcome.status ≠ .running ∧ database.Holds task worker) ∧
      (outcome.status = .pending ∨
        (database.settledParent? now task worker outcome).isSome = true)
  | .get _ | .children _ | .lockChildren _ => False

instance (database : Database) (now : Micros) :
    ∀ operation, Decidable (database.Announces now operation)
  | .create _ _ | .notify => .isTrue trivial
  | .createChild parent _ _ =>
    inferInstanceAs (Decidable (database.Admits (some parent)))
  | .resume id | .resumeWith id _ =>
    inferInstanceAs (Decidable (∃ row ∈ database.rows, row.id = id ∧ _))
  | .cancel _ | .finish _ _ _ => inferInstanceAs (Decidable (_ ∧ _))
  | .get _ | .children _ | .lockChildren _ => .isFalse id

/-- What is refused is answered with an error of the database, and is silent. -/
lemma Refuses.silent {database : Database} {operation : Operation}
    (refused : database.Refuses operation) (now : Micros) :
    database.answered now operation = .error (.refused .foreignKeyViolation) ∧
      ¬ database.Announces now operation := by
  cases operation with
  | createChild => exact ⟨if_neg refused, refused⟩
  | _ => cases refused

end Database

/-! ### The transaction behind an operation -/

/-- The transaction behind an operation that is not refused. -/
def Transaction.performed (channel : Channel) (tx : Transaction) (operation : Operation) :
    Transaction :=
  { tx with
    database := tx.database.performed tx.now operation
    published := if tx.database.Announces tx.now operation then (tx.publish channel).published
      else tx.published }

namespace Transaction

variable (channel : Channel) {tx : Transaction}

/-- What changes nothing and is silent leaves the transaction as it is. -/
lemma performed_eq_self {operation : Operation}
    (hdatabase : tx.database.performed tx.now operation = tx.database)
    (hsilent : ¬ tx.database.Announces tx.now operation) : tx.performed channel operation = tx := by
  rw [performed, hdatabase, if_neg hsilent]

/-- A cancellation that does not apply. -/
lemma performed_cancel_idle {id : TaskId}
    (h : ¬ ((∃ row ∈ tx.database.rows, row.id = id) ∧ ¬ tx.database.rows.IsOwnParent id)) :
    tx.performed channel (.cancel id) = tx :=
  performed_eq_self channel (if_neg h) fun announces => h announces.1

/-- The end of a run that does not apply. -/
lemma performed_finish_idle {task : TaskId} {worker : WorkerId} {outcome : Outcome}
    (h : ¬ (outcome.status ≠ .running ∧ tx.database.Holds task worker)) :
    tx.performed channel (.finish task worker outcome) = tx :=
  performed_eq_self channel (if_neg h) fun announces => h announces.1

end Transaction

namespace TaskAction

variable {channel : Channel} {tx : Transaction}

/-- The creation of a task. -/
lemma run_create (channel : Channel) (quiet : tx.Quiet) (ha : tx.aborted = false)
    (taskType : String) (state : Option Json) {parent : Option TaskId}
    (hp : tx.database.Admits parent) :
    Action.run (create channel taskType state parent) tx =
      (.ok tx.database.nextId,
        { tx with
          database :=
            (tx.database.insertTask tx.now taskType (state.getD Json.emptyObject) parent).2
          published := (tx.publish channel).published }) := by
  obtain ⟨table, ht⟩ := quiet.table
  have hinsert : tx.database.insertTask tx.now taskType (state.getD Json.emptyObject) parent =
      (.ok tx.database.nextId,
        (tx.database.insertTask tx.now taskType (state.getD Json.emptyObject) parent).2) := by
    rw [Database.insertTask_eq ht, if_pos hp]
  exact run_announced channel ha (quiet.faultAt _) (quiet.faultAt _) hinsert fun _ => true

/-- The creation of a task whose parent is not there. -/
lemma run_create_orphan (channel : Channel) (quiet : tx.Quiet) (ha : tx.aborted = false)
    (taskType : String) (state : Option Json) {parent : Option TaskId}
    (hp : ¬ tx.database.Admits parent) :
    Action.run (create channel taskType state parent) tx =
      (.error (.refused .foreignKeyViolation),
        { tx with
          database :=
            (tx.database.insertTask tx.now taskType (state.getD Json.emptyObject) parent).2
          aborted := true }) := by
  obtain ⟨table, ht⟩ := quiet.table
  have hinsert : tx.database.insertTask tx.now taskType (state.getD Json.emptyObject) parent =
      (.error .foreignKeyViolation,
        (tx.database.insertTask tx.now taskType (state.getD Json.emptyObject) parent).2) := by
    rw [Database.insertTask_eq ht, if_neg hp]
  rw [create, Action.run_bind, Action.run_onTasks_error ha (quiet.faultAt _) hinsert]

/-- The resumption of a task. -/
lemma run_resume (channel : Channel) (quiet : tx.Quiet) (ha : tx.aborted = false) (id : TaskId)
    (state : Option Json) :
    Action.run (resume channel id state) tx =
      (.ok (tx.database.rows.any (Table.only id (·.hasStatus .waiting))),
        { tx with
          database := tx.database.change (Table.only id (·.hasStatus .waiting))
            (state.elim (Row.resumed tx.now) (Row.resumedWith tx.now))
          published := if tx.database.rows.any (Table.only id (·.hasStatus .waiting)) then
            (tx.publish channel).published else tx.published }) := by
  obtain ⟨table, ht⟩ := quiet.table
  have hupdate : ∀ f : Row → Row,
      tx.database.updateRow id (·.hasStatus .waiting) f =
        (.ok (tx.database.rows.any (Table.only id (·.hasStatus .waiting))),
          tx.database.change (Table.only id (·.hasStatus .waiting)) f) := by
    intro f
    rw [← Database.updateRow_database]
    simp only [Database.updateRow, Database.onTasks, Database.rows, ht, Option.getD_some]
  refine run_announced channel ha (quiet.faultAt _) (quiet.faultAt _) ?_ fun resumed => resumed
  cases state with
  | none => exact hupdate _
  | some state => exact hupdate _

/-- The cancellation of a tree whose root is there is performed. -/
lemma treeCancelled_eq_performed (channel : Channel) {id : TaskId}
    (h : (∃ row ∈ tx.database.rows, row.id = id) ∧ ¬ tx.database.rows.IsOwnParent id) :
    treeCancelled channel tx id = tx.performed channel (.cancel id) := by
  rw [Transaction.performed, Database.performed, if_pos h]
  exact congrArg (Transaction.mk _ _ · _ _) (if_congr (and_iff_right h).symm rfl rfl)

/-- The end of a run that applies is performed. -/
lemma settle_eq_performed (channel : Channel) {task : TaskId} {worker : WorkerId}
    {outcome : Outcome} (h : outcome.status ≠ .running ∧ tx.database.Holds task worker) :
    settle channel tx task worker outcome = tx.performed channel (.finish task worker outcome) := by
  rw [Transaction.performed, Database.performed, if_pos h]
  exact congrArg (Transaction.mk _ _ · _ _) (if_congr (and_iff_right h).symm rfl rfl)

end TaskAction

/-! ### Operations -/

namespace Operation

variable {channel : Channel} {tx : Transaction}

/-- Operations leave a transaction that cannot go on as it is. -/
lemma run_aborted (ha : tx.aborted = true) (operation : Operation) :
    ((operation.action channel).run tx).2 = tx := by
  have htasks : ∀ {α : Type} (body : Micros → Database → Database.Reply α),
      Action.run (Action.onTasks body) tx = (.error (.refused .failedTransaction), tx) := by
    intro α body
    rw [Action.run_onTasks, if_pos ha]
  cases operation with
  | create | createChild =>
      rw [action, Action.run_map, TaskAction.create, Action.run_bind, htasks]
  | resume | resumeWith =>
      rw [action, Action.run_map, TaskAction.resume, Action.run_bind, htasks]
  | get => rw [action, Action.run_map, TaskAction.get, Action.run_bind, htasks]
  | children | lockChildren =>
      rw [action, Action.run_map, TaskAction.children, Action.run_bind, htasks]
  | cancel =>
      rw [action, Action.run_map]
      simp only [Action.run, TaskAction.cancel, Action.savepoint, ha, if_true]
  | finish task worker outcome =>
      rw [action, Action.run_map, TaskAction.finish]
      split
      · rfl
      · rw [Action.run_bind, htasks]
  | notify =>
      rw [action, Action.run_map, Action.run_notify, if_pos ha]

/-- A transaction answers an operation, and holds what is behind it. -/
theorem run_answered (quiet : tx.Quiet) (ha : tx.aborted = false) {operation : Operation}
    (taken : ¬ tx.database.Refuses operation) :
    (operation.action channel).run tx =
      (tx.database.answered tx.now operation, tx.performed channel operation) := by
  cases operation with
  | create taskType state =>
      rw [action, Action.run_map,
        TaskAction.run_create channel quiet ha taskType state tx.database.admits_none]
      rfl
  | createChild parent taskType state =>
      have hp : tx.database.Admits (some parent) := not_not.mp taken
      have hannounces : tx.database.Announces tx.now (.createChild parent taskType state) := hp
      rw [action, Action.run_map, TaskAction.run_create channel quiet ha taskType state hp,
        Transaction.performed, if_pos hannounces, Database.answered, if_pos hp]
      rfl
  | resume id =>
      rw [action, Action.run_map, TaskAction.run_resume channel quiet ha id none,
        Transaction.performed]
      refine Prod.ext rfl ?_
      exact congrArg (Transaction.mk _ _ · _ _) (if_congr Table.any_only_iff rfl rfl)
  | resumeWith id state =>
      rw [action, Action.run_map, TaskAction.run_resume channel quiet ha id (some state),
        Transaction.performed]
      refine Prod.ext rfl ?_
      exact congrArg (Transaction.mk _ _ · _ _) (if_congr Table.any_only_iff rfl rfl)
  | get id =>
      have hask := TaskAction.run_ask quiet ha fun table => table.find? id
      have hidle : tx.performed channel (.get id) = tx :=
        tx.performed_eq_self channel rfl fun h => h
      rw [hidle, action, Action.run_map, TaskAction.get, Action.run_bind,
        show Action.run (Action.onTasks fun _ database => database.findTask id) tx = _ from hask,
        Database.answered]
      cases tx.database.rows.find? id <;> rfl
  | children parent | lockChildren parent =>
      have hask := TaskAction.run_ask quiet ha fun table => table.children parent
      have hidle : tx.performed channel (.children parent) = tx :=
        tx.performed_eq_self channel rfl fun h => h
      refine Eq.trans ?_ (congrArg (Prod.mk _) hidle.symm)
      rw [action, Action.run_map, TaskAction.children, Action.run_bind,
        show Action.run (Action.onTasks fun _ database => database.childRows parent) tx = _ from
          hask]
      rfl
  | cancel id =>
      rw [action, Action.run_map, Database.answered]
      by_cases hown : tx.database.rows.IsOwnParent id
      · rw [TaskAction.run_cancel_endless quiet ha hown, if_pos hown,
          tx.performed_cancel_idle channel fun h => h.2 hown]
        rfl
      · rw [if_neg hown]
        by_cases hrow : ∃ row ∈ tx.database.rows, row.id = id
        · rw [TaskAction.run_cancel channel quiet ha hrow hown, if_pos hrow,
            TaskAction.treeCancelled_eq_performed channel ⟨hrow, hown⟩]
          rfl
        · rw [TaskAction.run_cancel_missing quiet ha fun row hmem hid => hrow ⟨row, hmem, hid⟩,
            if_neg hrow, tx.performed_cancel_idle channel fun h => hrow h.1]
          rfl
  | finish task worker outcome =>
      rw [action, Action.run_map, Database.answered]
      by_cases hp : outcome.status = .running
      · rw [TaskAction.run_finish_improper hp, if_pos hp,
          tx.performed_finish_idle channel fun h => h.1 hp]
        rfl
      · rw [if_neg hp]
        by_cases hheld : tx.database.Holds task worker
        · rw [TaskAction.run_finish_spared ⟨hp, ha, hheld⟩
              ⟨quiet.faultAt _, fun _ => quiet.faultAt _⟩,
            TaskAction.settle_eq_performed channel ⟨hp, hheld⟩, if_pos hheld]
          rfl
        · obtain ⟨table, ht⟩ := quiet.table
          rw [TaskAction.run_finish_lost hp ha (quiet.faultAt _) ht hheld, if_neg hheld,
            tx.performed_finish_idle channel fun h => hheld h.2]
          rfl
  | notify =>
      rw [action, Action.run_map, Action.run_notify, if_neg (by simp [ha]), quiet.faultAt]
      exact congrArg (Prod.mk _) (Transaction.publish_eq tx channel)

/-- A child of a parent that is not there is refused, and the transaction cannot go on. -/
theorem run_refused (quiet : tx.Quiet) (ha : tx.aborted = false) {operation : Operation}
    (refused : tx.database.Refuses operation) :
    (operation.action channel).run tx =
      (.error (.refused .foreignKeyViolation),
        { tx with database := tx.database.performed tx.now operation, aborted := true }) := by
  cases operation with
  | createChild parent taskType state =>
      rw [action, Action.run_map, TaskAction.run_create_orphan channel quiet ha taskType state
        refused]
      rfl
  | _ => cases refused

/-- What is behind an operation, if the transaction can go on there. -/
theorem run_quiet (quiet : tx.Quiet) (operation : Operation)
    (usable : ((operation.action channel).run tx).2.aborted = false) :
    ((operation.action channel).run tx).2 = tx.performed channel operation := by
  have ha := (operation.extends channel tx).usable usable
  by_cases refused : tx.database.Refuses operation
  · rw [run_refused quiet ha refused] at usable
    cases usable
  · rw [run_answered quiet ha refused]

end Operation
end LeaseQueue
