/-
The tasks that run, and what a transaction makes of them.

* `Database.running`: the number of rows under which a task runs;
* `Database.Settles`: no task begins to run, and every end of a run that is told takes a
  task that runs away;
* `Operation.settles`, `Session.settles_through`: operations and explicit transactions
  settle;
* `Program.execute_settles`, `Store.settles_run`: so does the run of a handler that is
  committed, up to the renewals of its own lease.
-/
import LeaseQueue.Proofs.Store.History
import LeaseQueue.Proofs.Store.Reachable

namespace LeaseQueue

namespace Database

/-! ### Counting -/

/-- The number of rows under which a task runs. -/
def running (database : Database) (task : TaskId) : Nat :=
  database.rows.countP (Table.only task (·.hasStatus .running))

/-- In a sound database it is one at most. -/
lemma running_le_one {database : Database} (h : database.Sound) (task : TaskId) :
    database.running task ≤ 1 := by
  rw [running, h.countP_only]
  exact Bool.toNat_le _

/-- A change that makes no row run leaves as many that run, at most. -/
lemma running_change_le (database : Database) {pick : Row → Bool} {f : Row → Row}
    (task : TaskId)
    (h : ∀ row ∈ database.rows, pick row = true →
      Table.only task (·.hasStatus .running) (f row) = true →
        Table.only task (·.hasStatus .running) row = true) :
    (database.change pick f).running task ≤ database.running task := by
  rw [running, rows_change, Table.update, List.countP_map]
  refine List.countP_mono_left fun row hrow hp => ?_
  by_cases hpick : pick row = true
  · exact h row hrow hpick (by simpa [hpick] using hp)
  · simpa [hpick] using hp

/-- A renewal leaves the tasks that run. -/
lemma running_renewed (database : Database) (pick : Row → Bool) (now deadline : Micros)
    (task : TaskId) :
    (database.change pick (Row.renewed now deadline)).running task = database.running task := by
  rw [running, rows_change, Table.update, List.countP_map]
  refine List.countP_congr fun row _ => ?_
  by_cases hp : pick row = true
  · simp [hp, Table.only, Row.renewed, Row.hasStatus]
  · simp [hp]

lemma running_renewAll (database : Database) (task : TaskId) (worker : WorkerId)
    (renewals : List Renewal) (other : TaskId) :
    (database.renewAll task worker renewals).running other = database.running other := by
  induction renewals generalizing database with
  | nil => rfl
  | cons renewal rest ih => exact (ih _).trans (database.running_renewed _ _ _ other)

/-- A change by which no row runs leaves fewer that run, if it picks one of them. -/
lemma running_change_lt (database : Database) {pick : Row → Bool} {f : Row → Row} {row : Row}
    (task : TaskId) (hrow : row ∈ database.rows) (hpick : pick row = true)
    (hrun : Table.only task (·.hasStatus .running) row = true)
    (h : ∀ row, (f row).hasStatus .running = false) :
    (database.change pick f).running task < database.running task := by
  have hsplit := List.countP_eq_countP_filter_add database.rows
    (Table.only task (·.hasStatus .running)) pick
  have hpos : 0 < (database.rows.filter pick).countP (Table.only task (·.hasStatus .running)) :=
    List.countP_pos_iff.mpr ⟨row, List.mem_filter.mpr ⟨hrow, hpick⟩, hrun⟩
  have hle : (database.change pick f).running task ≤
      (database.rows.filter fun row => !pick row).countP
        (Table.only task (·.hasStatus .running)) := by
    rw [running, rows_change, Table.update, List.countP_map, List.countP_filter]
    refine List.countP_mono_left fun old _ hp => ?_
    by_cases ho : pick old = true
    · simp [ho, Table.only, h] at hp
    · simpa [ho] using hp
  rw [← running] at hsplit
  omega

lemma Write.running_le {before after : Database} (h : before.Write after) (task : TaskId) :
    after.running task ≤ before.running task := by
  cases h with
  | @insert table now taskType state parent ht hp =>
      simp [running, rows, ht, Table.only, Row.fresh, Row.hasStatus]
  | skip => exact le_rfl
  | change hc =>
      refine before.running_change_le task fun row hrow hp hrun => ?_
      have := (hc row hrow hp).not_running
      exact absurd (Table.only_eq_true.mp hrun).2 (by simp [this])

lemma Writes.running_le {before after : Database} (h : before.Writes after) (task : TaskId) :
    after.running task ≤ before.running task := by
  induction h with
  | refl => exact le_rfl
  | tail _ step ih => exact (step.running_le task).trans ih

/-- A row that runs behind writes has run before them, and was not touched. -/
lemma Writes.running_mem {before after : Database} (h : before.Writes after) :
    ∀ row ∈ after.rows, row.hasStatus .running = true → row ∈ before.rows := by
  induction h with
  | refl => exact fun row hrow _ => hrow
  | tail _ step ih =>
      intro row hrow hrun
      refine ih row ?_ hrun
      cases step with
      | @insert table now taskType state parent ht hp =>
          rcases List.mem_append.mp hrow with hold | hnew
          · simpa [rows, ht] using hold
          · rw [List.mem_singleton.mp hnew] at hrun
            cases hrun
      | skip => exact hrow
      | change hc =>
          rcases mem_change.mp hrow with ⟨hold, -⟩ | ⟨old, hold, hp, rfl⟩
          · exact hold
          · rw [(hc old hold hp).not_running] at hrun
            cases hrun

/-- The outcome of a task that runs takes a row away from those that run. -/
lemma Holds.running_settled {database : Database} {task : TaskId} {worker : WorkerId}
    (h : database.Holds task worker) (now : Micros) {outcome : Outcome}
    (hp : outcome.status ≠ .running) (other : TaskId) :
    (database.settled now task worker outcome).running other + (if task = other then 1 else 0) ≤
      database.running other := by
  have hwritten : (database.outcomeWritten now task worker outcome).running other +
      (if task = other then 1 else 0) ≤ database.running other := by
    by_cases ht : task = other
    · subst ht
      obtain ⟨row, hrow, hid, hheld⟩ := h
      rw [if_pos rfl]
      refine database.running_change_lt task hrow (Table.only_eq_true.mpr ⟨hid, hheld⟩) ?_ ?_
      · exact Table.only_eq_true.mpr
          ⟨hid, Row.hasStatus_iff.mpr (Row.isHeldBy_iff.mp hheld).2⟩
      · intro row
        simp [Row.hasStatus, Row.finished, hp]
    · rw [if_neg ht, Nat.add_zero]
      refine database.running_change_le other fun row _ _ hrun => ?_
      exact absurd (Table.only_eq_true.mp hrun).2 (by simp [Row.hasStatus, Row.finished, hp])
  have hresumed : (database.settled now task worker outcome).running other ≤
      (database.outcomeWritten now task worker outcome).running other := by
    rw [settled]
    split
    · exact (writes_parentResumed _ now task).running_le other
    · exact le_rfl
  omega

end Database

/-! ### Settling -/

/-- No task begins to run, and every end of a run that is told takes a task away from
those that run. -/
structure Database.Settles (before : Database) (events : List LeaseEvent) (after : Database) :
    Prop where
  sound : before.Sound → after.Sound
  told : ∀ event ∈ events, ∃ task, event = .ended task
  kept : ∀ row ∈ after.rows, row.hasStatus .running = true → row ∈ before.rows
  paid : ∀ task, ends events task + after.running task ≤ before.running task

namespace Database.Settles

variable {a b c : Database} {first rest : List LeaseEvent}

lemma ofWrites (h : a.Writes b) : Settles a [] b where
  sound := h.sound
  told := by simp
  kept := h.running_mem
  paid := fun task => by simpa [ends] using h.running_le task

lemma trans (h : Settles a first b) (h' : Settles b rest c) : Settles a (first ++ rest) c where
  sound := fun ha => h'.sound (h.sound ha)
  told := fun event hevent => (List.mem_append.mp hevent).elim (h.told event) (h'.told event)
  kept := fun row hrow hrun => h.kept row (h'.kept row hrow hrun) hrun
  paid := fun task => by
    have hfirst := h.paid task
    have hrest := h'.paid task
    rw [ends_append]
    omega

end Database.Settles

namespace TaskAction

/-- A final write that succeeds settles its task. -/
lemma settles_finish {channel : Channel} {tx after : Transaction} {task : TaskId}
    {worker : WorkerId} {outcome : Outcome} {transition : Transition}
    (h : Action.run (finish channel task worker outcome) tx = (.ok transition, after)) :
    tx.aborted = false ∧ after.aborted = false ∧
      tx.database.Settles [.ended transition.task] after.database := by
  obtain ⟨happlies, hspared⟩ := applies_of_finish_ok h
  rw [run_finish_spared happlies hspared] at h
  cases h
  have hw := Database.writes_settled tx.database tx.now task worker happlies.proper
  refine ⟨happlies.usable, happlies.usable, hw.sound, by simp, hw.running_mem, fun other => ?_⟩
  have := happlies.held.running_settled tx.now happlies.proper other
  rw [ends_ended, add_comm]
  exact this

end TaskAction

/-- An operation with another answer than the end of a run tells no such end. -/
lemma LeaseEvent.ofAnswer_run_map {α : Type} {f : α → Answer}
    (hf : ∀ a, ofAnswer (.ok (f a)) = []) (action : TaskAction α) (tx : Transaction) :
    ofAnswer (Action.run (f <$> action) tx).1 = [] := by
  rw [Action.run_map]
  cases (Action.run action tx).1 with
  | error e => rfl
  | ok a => exact hf a

/-- Every operation settles the ends of runs that it tells. -/
theorem Operation.settles (channel : Channel) (operation : Operation) (tx : Transaction) :
    tx.database.Settles (LeaseEvent.ofAnswer ((operation.action channel).run tx).1)
      ((operation.action channel).run tx).2.database := by
  have hw := (operation.extends channel tx).writes
  have silent : LeaseEvent.ofAnswer ((operation.action channel).run tx).1 = [] →
      tx.database.Settles (LeaseEvent.ofAnswer ((operation.action channel).run tx).1)
        ((operation.action channel).run tx).2.database := by
    intro h
    rw [h]
    exact .ofWrites hw
  cases operation with
  | finish task worker outcome =>
      simp only [action] at silent ⊢
      rw [Action.run_map] at silent ⊢
      cases hrun : Action.run (TaskAction.finish channel task worker outcome) tx with
      | mk result after =>
          rw [hrun] at silent
          cases result with
          | error e => exact silent rfl
          | ok transition => exact (TaskAction.settles_finish hrun).2.2
  | _ => exact silent (LeaseEvent.ofAnswer_run_map (fun _ => rfl) _ tx)

/-- An operation that tells the end of a run leaves a transaction that can go on. -/
lemma Operation.usable_of_told {channel : Channel} {operation : Operation} {tx : Transaction}
    (h : LeaseEvent.ofAnswer ((operation.action channel).run tx).1 ≠ []) :
    ((operation.action channel).run tx).2.aborted = false := by
  cases operation with
  | finish task worker outcome =>
      simp only [action] at h ⊢
      rw [Action.run_map] at h ⊢
      cases hrun : Action.run (TaskAction.finish channel task worker outcome) tx with
      | mk result after =>
          rw [hrun] at h
          cases result with
          | error e => exact absurd rfl h
          | ok transition => exact (TaskAction.settles_finish hrun).2.1
  | _ => exact absurd (LeaseEvent.ofAnswer_run_map (fun _ => rfl) _ tx) h

/-! ### Explicit transactions -/

/-- The steps of an explicit transaction settle the ends of runs that they tell. -/
theorem Session.settles_through (steps : List TransactionStep) :
    ∀ (session : Session) (tx : Transaction), session.open? = some tx →
      ∃ after : Transaction, (session.through steps).2.open? = some after ∧
        tx.database.Settles ((session.through steps).1.flatMap LeaseEvent.ofAnswer)
          after.database := by
  induction steps with
  | nil => exact fun session tx h => ⟨tx, h, .ofWrites .refl⟩
  | cons step rest ih =>
      intro session tx h
      cases step with
      | perform operation =>
          have hreply := perform_of_open h operation
          obtain ⟨after, hopen, hs⟩ := ih
            { session with open? := some ((operation.action session.channel).run tx).2 } _ rfl
          refine ⟨after, ?_, ?_⟩
          · simpa only [through, hreply] using hopen
          · simpa only [through, hreply, List.flatMap_cons] using
              (operation.settles session.channel tx).trans hs
      | pass micros => exact ih { session with store := session.store.advance micros } tx h

/-! ### Runs of handlers -/

namespace OpenRun

variable {store : Store} {task : ClaimedTask}

/-- A pause leaves as many tasks that run in the view of the transaction. -/
lemma running_beating (hs : store.database.Sound) (beats : Nat → List Beat) (millis : Nat)
    {run : OpenRun} (follows : run.Follows store) (other : TaskId) :
    (Surroundings.beating task beats millis run).Follows store ∧
      (Surroundings.beating task beats millis run).tx.database.running other =
        run.tx.database.running other := by
  refine Surroundings.beating_keeps
    (P := fun next => next.Follows store ∧
      next.tx.database.running other = run.tx.database.running other)
    (fun next micros h => ⟨h.1.advance micros, h.2⟩)
    (fun next lease h => ⟨h.1.renew hs _ _ _, ?_⟩) beats millis run ⟨follows, rfl⟩
  rcases renew_cases h.1.calm (h.1.outside.sound hs) (h.1.inside.sound hs) task.id task.worker
    lease with hr | ⟨deadline, -, -, -, hr⟩
  · rw [hr]; exact h.2
  · rw [hr, ← h.2]
    exact Database.running_renewed _ _ _ _ other

/-- Other tasks than the one of the run that run in the view of the transaction run in
the store, with the same row. -/
def Elsewhere (store : Store) (task : ClaimedTask) (run : OpenRun) : Prop :=
  ∀ row ∈ run.tx.database.rows, row.hasStatus .running = true → row.id ≠ task.id →
    row ∈ store.database.rows

lemma elsewhere_execute (store : Store) (task : ClaimedTask) (channel : Channel)
    (beats : Nat → List Beat) (program : Program) :
    Elsewhere store task
      (program.execute (.beating task beats) channel (.start store)).run := by
  refine Program.execute_keeps (fun run operation h => ?_) (fun millis => ?_) program _
    fun row hrow _ _ => hrow
  · intro row hrow hrun hid
    exact h row ((operation.extends channel run.tx).writes.running_mem row hrow hrun) hrun hid
  · refine Surroundings.beating_keeps (fun run micros h => h) (fun run lease h => ?_) beats millis
    exact fun row hrow hrun hid => h row (OpenRun.mem_of_mem_renew hrow hid) hrun hid

end OpenRun

/-- On the way of a program every end of a run takes a task away from those that run in
the view of the transaction. -/
theorem Program.execute_paid {store : Store} (hs : store.database.Sound) (channel : Channel)
    (task : ClaimedTask) (beats : Nat → List Beat) (other : TaskId) (program : Program) :
    ∀ run : OpenRun, run.Follows store →
      ends ((program.execute (.beating task beats) channel run).trace.flatMap LeaseEvent.ofTrace)
          other +
        (program.execute (.beating task beats) channel run).run.tx.database.running other ≤
      run.tx.database.running other := by
  induction program with
  | finish outcome => exact fun run _ => by simp [execute, ends]
  | panic text => exact fun run _ => by simp [execute, ends]
  | perform operation next ih =>
      intro run follows
      have hnext := ih (run.perform channel operation).1 (run.perform channel operation).2
        (follows.extend (operation.extends channel run.tx))
      have hpaid := (operation.settles channel run.tx).paid other
      simp only [execute, Execution.after, List.flatMap_cons, ends_append]
      simp only [OpenRun.perform, LeaseEvent.ofTrace] at hnext hpaid ⊢
      omega
  | pause millis next ih =>
      intro run follows
      obtain ⟨follows', hrunning⟩ := OpenRun.running_beating hs beats millis follows other
      rw [← hrunning]
      exact ih _ follows'
  | stop next ih => exact ih

/-- Behind the outcome of its run a task does not run. -/
lemma Database.Holds.not_running_settled {database : Database} (hs : database.Sound)
    {task : TaskId} {worker : WorkerId} (h : database.Holds task worker) (now : Micros)
    {outcome : Outcome} (hp : outcome.status ≠ .running) :
    ∀ row ∈ (database.settled now task worker outcome).rows, row.hasStatus .running = true →
      row.id ≠ task := by
  intro row hrow hrun hid
  have hpos : 0 < (database.settled now task worker outcome).running task :=
    List.countP_pos_iff.mpr ⟨row, hrow, Table.only_eq_true.mpr ⟨hid, hrun⟩⟩
  have hpaid := h.running_settled now hp task
  have hone := database.running_le_one hs task
  rw [if_pos rfl] at hpaid
  omega

/-- The run of a handler settles the ends of runs that it tells, behind the renewals of
its own lease. -/
theorem Store.settles_run (store : Store) (hs : store.database.Sound) (channel : Channel)
    (handler : Handler) (task : ClaimedTask) (earlierRuns : Nat) (beats : Nat → List Beat) :
    (store.database.renewAll task.id task.worker
        (store.renewals channel handler task earlierRuns beats)).Settles
      (store.runBeating channel handler task earlierRuns beats).events
      (store.runBeating channel handler task earlierRuns beats).store.database := by
  rcases store.runBeating_cases channel handler task earlierRuns beats with
    ⟨outcome, hc, hspared⟩ | ⟨⟨e, hanswer⟩, -, nextId, fault, hnext, -, hstore⟩
  · have follows := (OpenRun.Follows.start store).execute hs channel task beats
      (handler ⟨task, channel, earlierRuns⟩)
    have elsewhere := OpenRun.elsewhere_execute store task channel beats
      (handler ⟨task, channel, earlierRuns⟩)
    have hview := follows.inside.sound hs
    rw [store.runBeating_of_commits channel handler task earlierRuns beats hc hspared]
    have hw := Database.writes_settled
      (store.executed channel handler task earlierRuns beats).run.tx.database store.clock task.id
      task.worker hc.applies.proper
    refine ⟨fun _ => hw.sound hview, fun event hevent => ?_, fun row hrow hrun => ?_,
      fun other => ?_⟩
    · exact RunReply.events_told _ event hevent
    · have hid := hc.applies.held.not_running_settled hview store.clock hc.applies.proper row hrow
        hrun
      exact Database.mem_renewAll (elsewhere row (hw.running_mem row hrow hrun) hrun hid) hid
    · have hpaid := Program.execute_paid hs channel task beats other
        (handler ⟨task, channel, earlierRuns⟩) (.start store) (OpenRun.Follows.start store)
      have hsettled := hc.applies.held.running_settled store.clock hc.applies.proper other
      have hstart : (OpenRun.start store).tx.database.running other =
          store.database.running other := rfl
      simp only [RunReply.events, Except.toBool, LeaseEvent.ofEnd, if_true, ends_append,
        ends_ended, Database.running_renewAll]
      rw [hstart] at hpaid
      rw [executed] at hsettled ⊢
      omega
  · rw [RunReply.events, hanswer, hstore]
    exact .ofWrites (.single (.skip (by simpa using hnext)))

end LeaseQueue
