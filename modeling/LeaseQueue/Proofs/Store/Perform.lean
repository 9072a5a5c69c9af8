/-
An operation in a transaction of its own that meets no failure.

* `Answer.ReportsNothing`: an answer by which nothing was done;
* `Database.performed_idle`: behind an operation with such an answer, or with an error, the
  database is what it was;
* `Store.perform_quiet`: the answer to an operation, what it publishes and the store behind it;
* `Store.perform_idle`: the same where nothing was done;
* `Store.finish_quiet`: what the end of a run answers, publishes and leaves;
* `Store.perform_finish`: it is such an operation.
-/
import LeaseQueue.Proofs.Store.Effect

namespace LeaseQueue

/-! ### Answers -/

/-- By this answer nothing was done. -/
def Answer.ReportsNothing : Answer → Prop
  | .resumed done => done = false
  | .cancelled count => count = 0
  | .created _ | .task _ | .tasks _ | .finished _ | .notified => False

instance : DecidablePred Answer.ReportsNothing
  | .resumed done => inferInstanceAs (Decidable (done = false))
  | .cancelled count => inferInstanceAs (Decidable (count = 0))
  | .created _ | .task _ | .tasks _ | .finished _ | .notified => .isFalse id

namespace Database

variable {database : Database} {now : Micros}

/-- A cancellation that counts no task has changed none. -/
lemma treeCancelled_of_none {root : TaskId}
    (h : database.liveAmong (database.treeOrder root) = 0) :
    database.treeCancelled now root = database ∧ database.cancelledParent? now root = none := by
  have hnone : ∀ row ∈ database.rows,
      ¬ ((database.treeOrder root).contains row.id && row.isLive) = true :=
    List.countP_eq_zero.mp h
  have hroot : ¬ database.Live root := by
    rintro ⟨row, hrow, rfl, hlive⟩
    have hmem : row.id ∈ database.treeOrder row.id := root_mem_cancellationOrder _ _
    exact hnone row hrow (by simp [hmem, hlive])
  have hnot : ¬ (database.Live root ∧
      (TaskAction.outsideParent root (treeEdges database.rows root)).isSome = true) :=
    fun h => hroot h.1
  refine ⟨?_, if_neg hnot⟩
  rw [treeCancelled, if_neg hnot]
  exact change_eq_self fun row hrow hpick => absurd hpick (hnone row hrow)

/-- An operation by whose answer nothing was done leaves the database as it is, and is silent. -/
theorem performed_idle {operation : Operation} (taken : ¬ database.Refuses operation)
    (h : ∀ answer, database.answered now operation = .ok answer → answer.ReportsNothing) :
    database.performed now operation = database ∧ ¬ database.Announces now operation := by
  cases operation with
  | create => exact (h _ rfl).elim
  | createChild => exact (h _ (if_pos (not_not.mp taken))).elim
  | resume id | resumeWith id =>
      have hnone : ¬ database.rows.any (Table.only id (·.hasStatus .waiting)) = true := by
        simpa [Answer.ReportsNothing] using h _ rfl
      refine ⟨?_, fun announces => hnone (Table.any_only_iff.mpr announces)⟩
      exact change_eq_self fun row hrow hpick =>
        absurd (List.any_eq_true.mpr ⟨row, hrow, hpick⟩) hnone
  | get | children | lockChildren => exact ⟨rfl, fun announces => announces⟩
  | cancel id =>
      by_cases happlies : (∃ row ∈ database.rows, row.id = id) ∧ ¬ database.rows.IsOwnParent id
      · obtain ⟨hsame, hparent⟩ := treeCancelled_of_none
          (h _ ((if_neg happlies.2).trans (if_pos happlies.1)))
        refine ⟨(if_pos happlies).trans hsame, fun announces => ?_⟩
        have hsome := announces.2
        rw [hparent] at hsome
        cases hsome
      · exact ⟨if_neg happlies, fun announces => happlies announces.1⟩
  | finish task worker outcome =>
      by_cases happlies : outcome.status ≠ .running ∧ database.Holds task worker
      · exact (h _ ((if_neg happlies.1).trans (if_pos happlies.2))).elim
      · exact ⟨if_neg happlies, fun announces => happlies announces.1⟩
  | notify => exact (h _ rfl).elim

end Database

/-! ### Transactions of one operation -/

namespace Store

variable {ε α : Type} {store : Store}

/-- An action in a transaction of its own that answers as it is committed, or leaves nothing to
undo. -/
lemma transact_answered (refused : SqlState → ε) {action : Action ε α} {answer : Except ε α}
    {after : Transaction} (hrun : action.run store.begin = (answer, after)) (hl : after.Lands)
    (herror : ∀ e, answer = .error e → after = store.begin) :
    store.transact refused action =
      ⟨answer, after.published,
        { store with database := after.database, fault := after.fault }⟩ := by
  rw [transact, hrun]
  cases answer with
  | error e =>
      rw [herror e rfl]
      rfl
  | ok a =>
      dsimp only
      rw [store.commit_of_lands hl]
      rfl

/-- The same for a single statement. -/
lemma autocommit_answered {action : Action ε α} {answer : Except ε α} {after : Transaction}
    (hrun : action.run store.begin = (answer, after))
    (herror : ∀ e, answer = .error e → after = store.begin) :
    store.autocommit action =
      ⟨answer, after.published,
        { store with database := after.database, fault := after.fault }⟩ := by
  rw [autocommit, hrun]
  cases answer with
  | error e =>
      rw [herror e rfl]
      rfl
  | ok a => rfl

/-- What is refused takes a number, and nothing else. -/
lemma perform_refused (quiet : store.begin.Quiet) (channel : Channel) {operation : Operation}
    (refused : store.database.Refuses operation) :
    store.perform channel operation =
      ⟨.error (.refused .foreignKeyViolation), [],
        { store with database := store.database.performed store.clock operation }⟩ := by
  cases operation with
  | createChild parent taskType state =>
      have hrun : ((Operation.createChild parent taskType state).action channel).run store.begin =
          _ := Operation.run_refused quiet rfl refused
      obtain ⟨table, ht⟩ := quiet.table
      have hundo : store.database.undo
          (store.database.performed store.clock (.createChild parent taskType state)) =
          store.database.performed store.clock (.createChild parent taskType state) := by
        rw [Database.performed, Database.insertTask_eq (show store.database.tasks = _ from ht),
          if_neg refused]
        rfl
      rw [perform, if_pos (by rfl), transact, hrun]
      exact congrArg (fun database => Reply.mk _ _ { store with database }) hundo
  | _ => cases refused

/-- An operation on a store that meets no failure. -/
theorem perform_quiet (quiet : store.begin.Quiet) (channel : Channel) (operation : Operation) :
    store.perform channel operation =
      ⟨store.database.answered store.clock operation,
        if store.database.Announces store.clock operation then [channel] else [],
        { store with database := store.database.performed store.clock operation }⟩ := by
  by_cases refused : store.database.Refuses operation
  · obtain ⟨hanswer, hsilent⟩ := refused.silent store.clock
    rw [perform_refused quiet channel refused, hanswer, if_neg hsilent]
  · have hrun : (operation.action channel).run store.begin = _ :=
      Operation.run_answered quiet rfl refused
    have hpublished : (store.begin.performed channel operation).published =
        if store.database.Announces store.clock operation then [channel] else [] := rfl
    have herror : ∀ e, store.database.answered store.clock operation = .error e →
        store.begin.performed channel operation = store.begin := by
      intro e he
      have hidle := Database.performed_idle refused fun answer h => by cases he.symm.trans h
      exact store.begin.performed_eq_self channel hidle.1 hidle.2
    rw [← hpublished, perform]
    split
    · exact transact_answered _ hrun ⟨rfl, quiet.faultAt _⟩ herror
    · exact autocommit_answered hrun herror

/-- An operation by whose answer nothing was done, or that fails without being refused. -/
lemma perform_idle (quiet : store.begin.Quiet) (channel : Channel) {operation : Operation}
    {answer : Except TaskError Answer} (taken : ¬ store.database.Refuses operation)
    (hanswer : store.database.answered store.clock operation = answer)
    (nothing : ∀ a, answer = .ok a → a.ReportsNothing) :
    store.perform channel operation = ⟨answer, [], store⟩ := by
  obtain ⟨hsame, hsilent⟩ :=
    Database.performed_idle taken fun a ha => nothing a (hanswer.symm.trans ha)
  rw [perform_quiet quiet, hanswer, hsame, if_neg hsilent]

/-- An outcome that no run can have changes nothing. -/
lemma finish_improper (store : Store) (channel : Channel) (task : TaskId) (worker : WorkerId)
    {outcome : Outcome} (hp : outcome.status = .running) :
    store.finish channel task worker outcome =
      ⟨.error (.invalidOutcome .running), [], store⟩ := by
  rw [finish, transact, TaskAction.run_finish_improper hp, hp]
  rfl

/-- Nor does a worker that does not hold its task. -/
lemma finish_lost {table : Table} (calm : store.fault = none)
    (ht : store.database.tasks = some table) {task : TaskId} {worker : WorkerId}
    (h : ¬ store.database.Holds task worker) (channel : Channel) {outcome : Outcome}
    (hp : outcome.status ≠ .running) :
    store.finish channel task worker outcome = ⟨.error (.leaseLost task worker), [], store⟩ := by
  have hfault : store.begin.faultAt .tasks = none := by
    simp [begin, Transaction.faultAt, calm]
  rw [finish, transact, TaskAction.run_finish_lost hp rfl hfault ht h]
  rfl

/-- The end of a run is the same operation. -/
theorem perform_finish (store : Store) (channel : Channel) (task : TaskId) (worker : WorkerId)
    (outcome : Outcome) :
    let reply := store.finish channel task worker outcome
    store.perform channel (.finish task worker outcome) =
      ⟨reply.answer.map .finished, reply.published, reply.store⟩ := by
  simp only [perform, finish, Operation.isTransactional, if_true, transact, Operation.action,
    Action.run_map]
  cases Action.run (TaskAction.finish channel task worker outcome) store.begin with
  | mk answer after =>
      cases answer with
      | error e => rfl
      | ok transition =>
          cases hcommit : (store.commit after).answer <;>
            simp [Except.map, Except.mapError, hcommit]

end Store
end LeaseQueue
