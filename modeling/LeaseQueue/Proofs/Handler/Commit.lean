/-
The end of a run: all of it is committed, or nothing.

* `Execution.Commits`: the conditions under which the end of a run takes effect;
* `Execution.finish_of_commits`, `Execution.finish_of_not_commits`: what is left of a run
  under these conditions, and otherwise;
* `OpenRun.Opened`: what a program keeps of its transaction;
* `Store.runBeating_cases`: a run commits, or it is undone;
* `Store.run_atomic`: the same for whole runs, with what happened beside them.

A failure of the database at the very end is the only other reason for which a run is
undone. It is kept apart, as `Execution.Spared`.
-/
import LeaseQueue.Proofs.Handler.Beside

namespace LeaseQueue

/-! ### The conditions -/

/-- The end of a run takes effect: the program has not panicked but ended in an outcome,
the outcome is one that a run can have, no statement has left the transaction unusable,
and in its view the task still runs under the worker. -/
structure Execution.Commits (execution : Execution) (task : ClaimedTask) (outcome : Outcome) :
    Prop where
  ended : execution.ending = .finished outcome
  applies : TaskAction.Applies execution.run.tx task.id task.worker outcome

/-- The database does not fail at the end of a run. -/
structure Execution.Spared (execution : Execution) (task : ClaimedTask) (outcome : Outcome) :
    Prop where
  write : TaskAction.Spared execution.run.tx task.id task.worker outcome
  commit : execution.run.tx.faultAt .commit = none

namespace Execution

variable {execution : Execution} (context : RunContext) {outcome : Outcome}

/-- The end of a run that takes effect. -/
theorem finish_of_commits (h : execution.Commits context.task outcome)
    (hs : execution.Spared context.task outcome) :
    execution.finish context =
      let tx := TaskAction.settle context.channel execution.run.tx context.task.id
        context.task.worker outcome
      { answer := .ok ⟨context.task.id, outcome.status,
          execution.run.tx.database.settledParent? execution.run.tx.now context.task.id
            context.task.worker outcome⟩
        published := tx.published
        store := { execution.run.store with database := tx.database, fault := tx.fault }
        trace := execution.trace } := by
  have hlands : Transaction.Lands (TaskAction.settle context.channel execution.run.tx
      context.task.id context.task.worker outcome) := ⟨h.applies.usable, hs.commit⟩
  rw [finish]
  simp only [h.ended, Ending.outcome?, TaskAction.run_finish_spared h.applies hs.write,
    OpenRun.commit, Store.commit_of_lands _ hlands]
  rfl

/-- The end of a run that does not take effect: an error, no notification, and nothing of
the transaction but the numbers that it took. -/
theorem finish_of_not_commits
    (h : ∀ outcome, execution.Commits context.task outcome →
      ¬ execution.Spared context.task outcome) :
    (∃ e, (execution.finish context).answer = .error e) ∧
      (execution.finish context).published = [] ∧
      ∃ (tx : Transaction) (fault : Option PlannedFault),
        execution.run.tx.Extends context.channel tx ∧ (fault = tx.fault ∨ fault = none) ∧
        (execution.finish context).store =
          { execution.run.store with
            database := execution.run.store.database.undo tx.database
            fault } := by
  rw [finish]
  cases hending : execution.ending with
  | panicked text => exact ⟨⟨_, rfl⟩, rfl, execution.run.tx, _, .refl _, .inl rfl, rfl⟩
  | finished outcome =>
      have he := TaskAction.extending_finish context.channel context.task.id
        context.task.worker outcome execution.run.tx
      dsimp only [Ending.outcome?]
      split <;> rename_i hrun <;> rw [hrun] at he
      · exact ⟨⟨_, rfl⟩, rfl, _, _, he, .inl rfl, rfl⟩
      · rename_i transition tx
        obtain ⟨happlies, hspared⟩ := TaskAction.applies_of_finish_ok hrun
        rw [TaskAction.run_finish_spared happlies hspared] at hrun
        cases hrun
        -- only the commit is left to fail
        cases hcommit : execution.run.tx.faultAt .commit with
        | none => exact absurd ⟨hspared, hcommit⟩ (h outcome ⟨hending, happlies⟩)
        | some state =>
            have hc := Store.commit_of_fault execution.run.store
              (TaskAction.settle context.channel execution.run.tx context.task.id
                context.task.worker outcome) happlies.usable hcommit
            simp only [OpenRun.commit, hc]
            exact ⟨⟨_, rfl⟩, trivial, _, none, he, .inr rfl, rfl⟩

end Execution

/-! ### Whole runs -/

/-- What a program keeps of the transaction of a run: it goes on from where it began, and
publishes on one channel at most. -/
structure OpenRun.Opened (store : Store) (channel : Channel) (run : OpenRun) : Prop where
  now : run.tx.now = store.clock
  fault : run.tx.fault = store.fault ∨ run.tx.fault = none
  published : run.tx.published = [] ∨ run.tx.published = [channel]
  nextId_le : store.database.nextId ≤ run.tx.database.nextId

namespace OpenRun

variable {store : Store} {channel : Channel} {run : OpenRun}

lemma Opened.start (store : Store) (channel : Channel) : Opened store channel (.start store) :=
  ⟨rfl, .inl rfl, .inl rfl, le_rfl⟩

lemma Opened.extend (h : Opened store channel run) {tx : Transaction}
    (he : run.tx.Extends channel tx) : Opened store channel { run with tx } where
  now := he.now.trans h.now
  fault := PlannedFault.left_trans h.fault he.fault
  published := by
    rcases he.published with hp | hp
    · rw [hp]; exact h.published
    · right
      rw [hp, Transaction.publish_published]
      rcases h.published with hr | hr <;> simp [hr]
  nextId_le := h.nextId_le.trans he.writes.nextId_le

/-- A renewal beside the transaction shows it another row, and changes nothing else. -/
lemma renew_tx (run : OpenRun) (task : TaskId) (worker : WorkerId) (lease : Duration) :
    ∃ tasks, (run.renew task worker lease).tx =
      { run.tx with database := { run.tx.database with tasks } } := by
  rw [renew]
  dsimp only
  split
  · exact ⟨run.tx.database.tasks, rfl⟩
  · split
    · exact ⟨_, rfl⟩
    · exact ⟨run.tx.database.tasks, rfl⟩

lemma Opened.execute (task : ClaimedTask) (beats : Nat → List Beat) (program : Program)
    (h : Opened store channel run) :
    Opened store channel (program.execute (.beating task beats) channel run).run := by
  refine Program.execute_keeps (fun run operation h => ?_) (fun millis => ?_) program run h
  · exact h.extend (operation.extends channel run.tx)
  · refine Surroundings.beating_keeps (fun run micros h => ?_) (fun run lease h => ?_) beats millis
    · exact ⟨h.now, h.fault, h.published, h.nextId_le⟩
    · obtain ⟨tasks, htx⟩ := run.renew_tx task.id task.worker lease
      exact ⟨by rw [htx]; exact h.now, by rw [htx]; exact h.fault, by rw [htx]; exact h.published,
        by rw [htx]; exact h.nextId_le⟩

end OpenRun

namespace Store

variable (store : Store) (channel : Channel) (handler : Handler) (task : ClaimedTask)
  (earlierRuns : Nat) (beats : Nat → List Beat)

lemma executed_opened :
    OpenRun.Opened store channel
      (store.executed channel handler task earlierRuns beats).run :=
  (OpenRun.Opened.start store channel).execute task beats _

lemma executed_beside :
    ({ store with fault := none } : Store).Beside task.id task.worker
      (store.renewals channel handler task earlierRuns beats)
      (store.executed channel handler task earlierRuns beats).run.store :=
  OpenRun.beside_execute beats channel _ (.start store) rfl

/-- Without a planned failure the end of a run is spared. -/
lemma executed_spared (calm : store.fault = none) (outcome : Outcome) :
    (store.executed channel handler task earlierRuns beats).Spared task outcome := by
  have hfault : (store.executed channel handler task earlierRuns beats).run.tx.fault = none :=
    PlannedFault.left_none (store.executed_opened channel handler task earlierRuns beats).fault
      calm
  have hnone : ∀ point, Transaction.faultAt
      (store.executed channel handler task earlierRuns beats).run.tx point = none := by
    intro point
    simp [Transaction.faultAt, hfault]
  exact ⟨⟨hnone _, fun _ => hnone _⟩, hnone _⟩

/-- What a run that commits leaves. -/
lemma runBeating_of_commits {outcome : Outcome}
    (hc : (store.executed channel handler task earlierRuns beats).Commits task outcome)
    (hs : (store.executed channel handler task earlierRuns beats).Spared task outcome) :
    let execution := store.executed channel handler task earlierRuns beats
    store.runBeating channel handler task earlierRuns beats =
      { answer := .ok ⟨task.id, outcome.status,
          execution.run.tx.database.settledParent? store.clock task.id task.worker outcome⟩
        published :=
          if execution.run.tx.published ≠ [] ∨
            TaskAction.Wakes execution.run.tx task.id task.worker outcome then [channel]
          else []
        store := { execution.run.store with
          database := execution.run.tx.database.settled store.clock task.id task.worker outcome
          fault := execution.run.tx.fault }
        trace := execution.trace } := by
  intro execution
  have opened := store.executed_opened channel handler task earlierRuns beats
  have hpublished : (TaskAction.settle channel execution.run.tx task.id task.worker
      outcome).published =
      if execution.run.tx.published ≠ [] ∨
        TaskAction.Wakes execution.run.tx task.id task.worker outcome then [channel] else [] := by
    simp only [TaskAction.settle, Transaction.publish_published]
    rcases opened.published with hp | hp <;>
      by_cases hw : TaskAction.Wakes execution.run.tx task.id task.worker outcome <;>
      simp [execution, hp, hw]
  have hreply := Execution.finish_of_commits ⟨task, channel, earlierRuns⟩ hc hs
  dsimp only at hreply
  rw [hpublished] at hreply
  rw [← opened.now]
  exact hreply

/-- A run commits, or it leaves an error and the store with the renewals that were made
beside it. -/
theorem runBeating_cases :
    (∃ outcome, (store.executed channel handler task earlierRuns beats).Commits task outcome ∧
      (store.executed channel handler task earlierRuns beats).Spared task outcome) ∨
      let reply := store.runBeating channel handler task earlierRuns beats
      (∃ e, reply.answer = .error e) ∧ reply.published = [] ∧
        ∃ nextId fault, store.database.nextId ≤ nextId ∧
          (fault = store.fault ∨ fault = none) ∧
          reply.store =
            { (store.executed channel handler task earlierRuns beats).run.store with
              database := { store.database.renewAll task.id task.worker
                (store.renewals channel handler task earlierRuns beats) with nextId }
              fault } := by
  refine or_iff_not_imp_left.mpr fun hn => ?_
  have opened := store.executed_opened channel handler task earlierRuns beats
  have beside := store.executed_beside channel handler task earlierRuns beats
  obtain ⟨hanswer, hpublished, tx, fault, he, hfault, hstore⟩ :=
    Execution.finish_of_not_commits ⟨task, channel, earlierRuns⟩
      fun outcome hc hs => hn ⟨outcome, hc, hs⟩
  have hend := opened.extend he
  refine ⟨hanswer, hpublished, tx.database.nextId, fault, hend.nextId_le, ?_, ?_⟩
  · exact PlannedFault.left_trans hend.fault hfault
  · exact hstore.trans (by rw [beside.database]; rfl)

end Store

/-- A run is all or nothing. It answers a transition exactly under the conditions of
`Execution.Commits`. Then what the handler wrote is committed together with the outcome
and the resumption of the parent, and all notifications are published once. Otherwise
the rows are those that were there, up to the renewals that were made beside the run,
and nothing is published. -/
theorem Store.run_atomic (store : Store) (channel : Channel) (handler : Handler)
    (task : ClaimedTask) (earlierRuns : Nat) (beats : Nat → List Beat) :
    let execution := store.executed channel handler task earlierRuns beats
    let view := execution.run.tx
    let reply := store.runBeating channel handler task earlierRuns beats
    ((∃ transition, reply.answer = .ok transition) ↔
      ∃ outcome, execution.Commits task outcome ∧ execution.Spared task outcome) ∧
    (∀ outcome, execution.Commits task outcome → execution.Spared task outcome →
      reply.answer = .ok ⟨task.id, outcome.status,
        view.database.settledParent? store.clock task.id task.worker outcome⟩ ∧
      reply.store.database = view.database.settled store.clock task.id task.worker outcome ∧
      reply.published =
        if view.published ≠ [] ∨ TaskAction.Wakes view task.id task.worker outcome then [channel]
        else []) ∧
    ((∀ transition, reply.answer ≠ .ok transition) →
      reply.published = [] ∧
      (∃ nextId, store.database.nextId ≤ nextId ∧
        reply.store.database =
          { store.database.renewAll task.id task.worker
              (store.renewals channel handler task earlierRuns beats) with nextId }) ∧
      (store.database.Holds task.id task.worker →
        reply.store.database.Holds task.id task.worker)) ∧
    (store.fault = none → ∀ outcome, execution.Spared task outcome) := by
  intro execution view reply
  have committed : ∀ outcome, execution.Commits task outcome → execution.Spared task outcome →
      reply = _ := fun outcome hc hs =>
    store.runBeating_of_commits channel handler task earlierRuns beats hc hs
  have cases := store.runBeating_cases channel handler task earlierRuns beats
  refine ⟨⟨?_, ?_⟩, ?_, ?_, ?_⟩
  · rintro ⟨transition, hanswer⟩
    rcases cases with hcommits | ⟨⟨e, he⟩, -⟩
    · exact hcommits
    · exact absurd (hanswer.symm.trans he) (by simp)
  · rintro ⟨outcome, hc, hs⟩
    rw [committed outcome hc hs]
    exact ⟨_, rfl⟩
  · intro outcome hc hs
    rw [committed outcome hc hs]
    exact ⟨rfl, rfl, rfl⟩
  · intro hanswer
    rcases cases with ⟨outcome, hc, hs⟩ | ⟨-, hpublished, nextId, fault, hnext, -, hstore⟩
    · rw [committed outcome hc hs] at hanswer
      exact absurd rfl (hanswer _)
    · refine ⟨hpublished, ⟨nextId, hnext, by rw [hstore]⟩, fun held => ?_⟩
      rw [hstore]
      exact (Database.holds_renewAll _).mpr held
  · exact fun calm => store.executed_spared channel handler task earlierRuns beats calm

end LeaseQueue
