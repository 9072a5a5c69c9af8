/-
What a call makes of the database, for every call: some steps, and so every store
that a run reaches is sound.

* `OpenRun.renew_cases`: a renewal beside an open run changes the store and the
  transaction's view alike, or neither;
* `OpenRun.Follows`: store and view of an open run both come by steps from the store
  in which it was opened;
* `Store.opened_eq`: what the steps of an explicit transaction leave open;
* `Store.Precedes`: time has not gone back, and no failure was planned;
* `Call.steps_next`, `Call.precedes_next`: every call makes steps, and follows in time;
* `Store.play_sound`, `Store.steps_play`: every store behind a run is sound and comes by
  steps from the one before it;
* `Store.play_calm`, `Store.play_tasks`, `Store.play_quiet`: in a run from the empty store
  no failure is planned, and the task table stays.
-/
import LeaseQueue.Proofs.Handler.Commit
import LeaseQueue.Proofs.Store.Call

namespace LeaseQueue

/-! ### The end of a transaction -/

namespace Store

/-- The end of a transaction makes the writes of the transaction, or undoes them. -/
lemma steps_commit {store : Store} {tx : Transaction}
    (h : store.database.Steps tx.database)
    (hn : store.database.nextId ≤ tx.database.nextId) :
    store.database.Steps (store.commit tx).store.database := by
  by_cases hl : tx.Lands
  · rw [store.commit_of_lands hl]
    exact h
  · obtain ⟨-, fault, -, hstore⟩ := store.commit_of_not_lands hl
    rw [hstore]
    exact .single (.write (.skip hn))

lemma steps_rollback {store : Store} {tx : Transaction}
    (hn : store.database.nextId ≤ tx.database.nextId) :
    store.database.Steps (store.rollback tx).database :=
  .single (.write (.skip hn))

/-- An action in a transaction of its own makes steps. -/
lemma steps_transact {ε α : Type} {channel : Channel} (store : Store) (refused : SqlState → ε)
    {action : Action ε α} (h : action.Extending channel) :
    store.database.Steps (store.transact refused action).store.database := by
  have hw : store.database.Writes (action.run store.begin).2.database := (h store.begin).writes
  rw [transact]
  split <;> rename_i hrun <;> rw [hrun] at hw
  · exact steps_rollback hw.nextId_le
  · exact steps_commit hw.steps hw.nextId_le

lemma steps_autocommit {ε α : Type} {channel : Channel} (store : Store) {action : Action ε α}
    (h : action.Extending channel) :
    store.database.Steps (store.autocommit action).store.database := by
  have hw : store.database.Writes (action.run store.begin).2.database := (h store.begin).writes
  rw [autocommit]
  split <;> rename_i hrun <;> rw [hrun] at hw
  · exact steps_rollback hw.nextId_le
  · exact hw.steps

lemma steps_perform (store : Store) (channel : Channel) (operation : Operation) :
    store.database.Steps (store.perform channel operation).store.database := by
  rw [perform]
  split
  · exact store.steps_transact _ (operation.extends channel)
  · exact store.steps_autocommit (operation.extends channel)

lemma steps_finish (store : Store) (channel : Channel) (task : TaskId) (worker : WorkerId)
    (outcome : Outcome) :
    store.database.Steps (store.finish channel task worker outcome).store.database :=
  store.steps_transact _ (TaskAction.extending_finish channel task worker outcome)

end Store

/-! ### Open runs -/

namespace OpenRun

lemma see_database (run : OpenRun) (row : Row) :
    (run.see row).tx.database =
      run.tx.database.change (fun old => old.id == row.id) (fun _ => row) := rfl

/-- A renewal shows the transaction no other row than that of its task. -/
lemma mem_of_mem_renew {run : OpenRun} {task : TaskId} {worker : WorkerId} {lease : Duration}
    {row : Row} (hrow : row ∈ (run.renew task worker lease).tx.database.rows)
    (hid : row.id ≠ task) : row ∈ run.tx.database.rows := by
  rw [renew] at hrow
  dsimp only at hrow
  split at hrow
  · exact hrow
  · split at hrow
    · rename_i seen hfind
      rw [see_database] at hrow
      rcases Database.mem_change.mp hrow with ⟨hold, -⟩ | ⟨old, -, -, rfl⟩
      · exact hold
      · exact absurd (Table.find?_eq_some_mem hfind).2 hid
    · exact hrow

/-- To see a row that is seen already changes nothing. -/
lemma see_same {view : Database} (hs : view.Sound) {row : Row} (hrow : row ∈ view.rows) :
    view.change (fun old => old.id == row.id) (fun _ => row) = view :=
  Database.change_eq_self fun _ hold hp => (hs.eq_of_id hold hrow (by simpa using hp)).symm

/-- To see a renewed row is to renew it. -/
lemma see_renewed {view : Database} (hs : view.Sound) {row : Row} (hrow : row ∈ view.rows)
    {worker : WorkerId} (hheld : row.isHeldBy worker = true) (now deadline : Micros) :
    view.change (fun old => old.id == row.id) (fun _ => row.renewed now deadline) =
      view.change (Table.only row.id (Row.isHeldBy worker)) (Row.renewed now deadline) := by
  refine Database.change_congr fun old hold => ?_
  by_cases ho : old.id = row.id
  · have : old = row := hs.eq_of_id hold hrow ho
    subst this
    simp [Table.only, hheld]
  · simp [Table.only, ho]

/-- Behind a renewal the row of the task is found renewed. -/
lemma find?_renewed {store : Store} (hs : store.database.Sound) {row : Row}
    (hrow : row ∈ store.database.rows) {worker : WorkerId} (hheld : row.isHeldBy worker = true)
    (deadline : Micros) :
    (store.renewed row.id worker deadline).database.rows.find? row.id =
      some (row.renewed store.clock deadline) := by
  have hids : ∀ old : Row, (old.renewed store.clock deadline).id = old.id := fun _ => rfl
  have hpick : Table.only row.id (Row.isHeldBy worker) row = true :=
    Table.only_eq_true.mpr ⟨rfl, hheld⟩
  simp only [Store.renewed, Database.rows_change]
  rw [Table.find?_update hids, hs.find?_eq hrow, Option.map_some, if_pos hpick]

/-- A renewal beside an open run changes the row in the store and in the view of the
transaction alike, or nothing at all. -/
theorem renew_cases {run : OpenRun} (calm : run.store.fault = none)
    (hs : run.store.database.Sound) (ht : run.tx.database.Sound) (task : TaskId)
    (worker : WorkerId) (lease : Duration) :
    run.renew task worker lease = run ∨
      ∃ deadline, run.holdsRow task = false ∧
        Database.leaseDeadline? run.store.clock lease = some deadline ∧
        (run.store.renew task worker lease).answer = .ok true ∧
        run.renew task worker lease =
          { store := run.store.renewed task worker deadline
            tx := { run.tx with
              database := run.tx.database.change (Table.only task (Row.isHeldBy worker))
                (Row.renewed run.store.clock deadline) } } := by
  rw [renew]
  by_cases hh : run.holdsRow task = true
  · exact .inl (if_pos hh)
  rw [if_neg hh]
  -- the transaction has not written the row: it sees what the store has
  have hsame : run.store.database.rows.find? task = run.tx.database.rows.find? task := by
    simpa [holdsRow] using hh
  dsimp only
  rcases run.store.renew_cases task worker lease with
    ⟨deadline, ⟨row, hrow, rfl, hheld⟩, hd, hreply⟩ | ⟨-, -, fault, hfault, hstore⟩
  · have hfind := hs.find?_eq hrow
    have hview := Table.find?_eq_some_mem (hsame ▸ hfind)
    rw [hreply]
    dsimp only
    rw [find?_renewed hs hrow hheld deadline]
    refine .inr ⟨deadline, by simpa using hh, hd, rfl, ?_⟩
    exact congrArg
      (fun database => OpenRun.mk (run.store.renewed row.id worker deadline)
        { run.tx with database })
      (see_renewed ht hview.1 hheld run.store.clock deadline)
  · have hstore' : (run.store.renew task worker lease).store = run.store := by
      rw [hstore, PlannedFault.left_none hfault calm, ← calm]
    rw [hstore']
    left
    cases hfind : run.store.database.rows.find? task with
    | none => rfl
    | some row =>
        have hview := Table.find?_eq_some_mem (hsame ▸ hfind)
        exact congrArg (fun database => OpenRun.mk run.store { run.tx with database })
          (see_same ht hview.1)

end OpenRun

/-- The store of an open run and the view of its transaction both come by steps from
the store in which it was opened. -/
structure OpenRun.Follows (store : Store) (run : OpenRun) : Prop where
  calm : run.store.fault = none
  outside : store.database.Steps run.store.database
  inside : store.database.Steps run.tx.database
  nextId_le : run.store.database.nextId ≤ run.tx.database.nextId
  fault : run.tx.fault = store.fault ∨ run.tx.fault = none

namespace OpenRun.Follows

variable {store : Store} {run : OpenRun}

lemma start (store : Store) : Follows store (OpenRun.start store) :=
  ⟨rfl, .refl, .refl, le_rfl, .inl rfl⟩

/-- The transaction meets no failure where none was to come. -/
lemma quiet (h : Follows store run) (quiet : store.begin.Quiet) : run.tx.Quiet where
  fault := PlannedFault.left_none h.fault quiet.fault
  tasks := h.inside.tasks quiet.tasks
  sound := h.inside.sound quiet.sound

lemma extend {channel : Channel} {tx : Transaction} (h : Follows store run)
    (he : run.tx.Extends channel tx) : Follows store { run with tx } :=
  ⟨h.calm, h.outside, h.inside.trans he.writes.steps, h.nextId_le.trans he.writes.nextId_le,
    PlannedFault.left_trans h.fault he.fault⟩

lemma renew (h : Follows store run) (hs : store.database.Sound) (task : TaskId)
    (worker : WorkerId) (lease : Duration) : Follows store (run.renew task worker lease) := by
  rcases OpenRun.renew_cases h.calm (h.outside.sound hs) (h.inside.sound hs) task worker lease with
    hr | ⟨deadline, -, -, -, hr⟩
  · rw [hr]; exact h
  · rw [hr]
    exact ⟨h.calm, h.outside.tail (.renew _ _ _ _), h.inside.tail (.renew _ _ _ _), h.nextId_le,
      h.fault⟩

lemma advance (h : Follows store run) (micros : Micros) : Follows store (run.advance micros) :=
  ⟨h.calm, h.outside, h.inside, h.nextId_le, h.fault⟩

/-- A program in its surroundings. -/
lemma execute (h : Follows store run) (hs : store.database.Sound) (channel : Channel)
    (task : ClaimedTask) (beats : Nat → List Beat) (program : Program) :
    Follows store (program.execute (.beating task beats) channel run).run := by
  refine Program.execute_keeps (fun run operation h => ?_) (fun millis => ?_) program run h
  · exact h.extend (operation.extends channel run.tx)
  · exact Surroundings.beating_keeps
      (fun run micros h => h.advance micros)
      (fun run lease h => h.renew hs task.id task.worker lease) beats millis

end OpenRun.Follows

/-! ### Sessions -/

/-- An operation in an explicit transaction. -/
lemma Session.perform_of_open {session : Session} {tx : Transaction}
    (h : session.open? = some tx) (operation : Operation) :
    session.perform operation =
      ⟨((operation.action session.channel).run tx).1, [],
        { session with open? := some ((operation.action session.channel).run tx).2 }⟩ := by
  rw [perform, h]

/-- What operations keep of a transaction, the steps of an explicit transaction keep. -/
lemma Session.through_keeps {P : Transaction → Prop} {channel : Channel}
    (perform : ∀ tx operation, P tx → P ((Operation.action channel operation).run tx).2)
    (steps : List TransactionStep) :
    ∀ (session : Session) (tx : Transaction), session.channel = channel →
      session.open? = some tx → P tx →
      ∃ after : Transaction, (session.through steps).2.open? = some after ∧ P after := by
  induction steps with
  | nil => exact fun session tx _ h hp => ⟨tx, h, hp⟩
  | cons step rest ih =>
      intro session tx hc h hp
      cases step with
      | perform operation =>
          obtain ⟨after, hopen, hafter⟩ := ih
            { session with open? := some ((operation.action session.channel).run tx).2 } _ hc rfl
            (hc ▸ perform tx operation hp)
          refine ⟨after, ?_, hafter⟩
          simpa only [through, perform_of_open h] using hopen
      | pass micros => exact ih { session with store := session.store.advance micros } tx hc h hp

/-- The session behind some steps of an explicit transaction is still open, and its
store is the same but for the time. -/
lemma Session.through_open (steps : List TransactionStep) :
    ∀ (session : Session) (tx : Transaction), session.open? = some tx →
      ∃ after : Transaction, tx.Extends session.channel after ∧
        ∃ micros : Nat, (session.through steps).2 =
          { session with store := session.store.advance micros, open? := some after } := by
  induction steps with
  | nil =>
      intro session tx h
      refine ⟨tx, .refl tx, 0, ?_⟩
      obtain ⟨⟨database, clock, fault⟩, channel, open?⟩ := session
      simp only at h
      simp [through, Store.advance, h]
  | cons step rest ih =>
      intro session tx h
      cases step with
      | perform operation =>
          obtain ⟨after, he, micros, hs⟩ := ih
            { session with open? := some ((operation.action session.channel).run tx).2 } _ rfl
          refine ⟨after, (operation.extends session.channel tx).trans he, micros, ?_⟩
          rw [through]
          dsimp only
          rw [perform_of_open h]
          exact hs
      | pass passed =>
          obtain ⟨after, he, micros, hs⟩ :=
            ih { session with store := session.store.advance passed } tx h
          refine ⟨after, he, passed + micros, ?_⟩
          rw [through, hs]
          simp [Store.advance, add_assoc]

namespace Store

/-- An explicit transaction extends the one that begins on the store. -/
lemma opened_eq (store : Store) (channel : Channel) (steps : List TransactionStep) :
    ∃ tx : Transaction, store.begin.Extends channel tx ∧
      ∃ micros : Nat, store.opened channel steps = ⟨store.advance micros, channel, some tx⟩ := by
  obtain ⟨tx, he, micros, h⟩ :=
    Session.through_open steps (Session.mk store channel none).begin store.begin rfl
  exact ⟨tx, he, micros, h⟩

/-- The store behind an explicit transaction. -/
lemma transaction_eq {store : Store} {channel : Channel} {steps : List TransactionStep}
    {tx : Transaction} {micros : Nat}
    (h : store.opened channel steps = ⟨store.advance micros, channel, some tx⟩) (keep : Bool) :
    store.transaction channel steps keep =
      if keep then ((store.advance micros).commit tx).store
      else (store.advance micros).rollback tx := by
  rw [transaction, h]
  rfl

/-- The transaction that is open behind some steps is that of the session that they leave. -/
lemma eq_of_opened {store : Store} {channel : Channel} {steps : List TransactionStep}
    {tx after : Transaction} {micros : Nat}
    (h : store.opened channel steps = ⟨store.advance micros, channel, some tx⟩)
    (hopen : ((Session.mk store channel none).begin.through steps).2.open? = some after) :
    after = tx := by
  have hsession : ((Session.mk store channel none).begin.through steps).2 =
      ⟨store.advance micros, channel, some tx⟩ := h
  rw [hsession] at hopen
  exact (Option.some.inj hopen).symm

lemma steps_transaction (store : Store) (channel : Channel) (steps : List TransactionStep)
    (keep : Bool) : store.database.Steps (store.transaction channel steps keep).database := by
  obtain ⟨tx, he, micros, h⟩ := store.opened_eq channel steps
  rw [transaction_eq h]
  split
  · exact (store.advance micros).steps_commit he.writes.steps he.writes.nextId_le
  · exact (store.advance micros).steps_rollback he.writes.nextId_le

/-- The run of a handler makes steps. -/
lemma steps_runBeating (store : Store) (hs : store.database.Sound) (channel : Channel)
    (handler : Handler) (task : ClaimedTask) (earlierRuns : Nat) (beats : Nat → List Beat) :
    store.database.Steps
      (store.runBeating channel handler task earlierRuns beats).store.database := by
  have follows := (OpenRun.Follows.start store).execute hs channel task beats
    (handler ⟨task, channel, earlierRuns⟩)
  rcases store.runBeating_cases channel handler task earlierRuns beats with
    ⟨outcome, hc, hspared⟩ | ⟨-, -, nextId, fault, hnext, -, hstore⟩
  · rw [store.runBeating_of_commits channel handler task earlierRuns beats hc hspared]
    exact follows.inside.trans (Database.writes_settled _ _ _ _ hc.applies.proper).steps
  · rw [hstore]
    exact (Database.steps_renewAll _ _ _ _).tail (.write (.skip (by simpa using hnext)))

end Store

/-! ### Time and planned failures -/

/-- Time has not gone back, and no failure was planned. -/
structure Store.Precedes (before after : Store) : Prop where
  clock : before.clock ≤ after.clock
  fault : after.fault = before.fault ∨ after.fault = none

namespace Store

lemma Precedes.refl (store : Store) : store.Precedes store := ⟨le_rfl, .inl rfl⟩

lemma Precedes.trans {a b c : Store} (h : a.Precedes b) (h' : b.Precedes c) : a.Precedes c where
  clock := h.clock.trans h'.clock
  fault := PlannedFault.left_trans h.fault h'.fault

lemma precedes_advance (store : Store) (micros : Nat) : store.Precedes (store.advance micros) :=
  ⟨Int.le_add_of_nonneg_right (Int.natCast_nonneg micros), .inl rfl⟩

variable {store : Store} {channel : Channel}

lemma precedes_rollback {tx : Transaction} (hf : tx.fault = store.fault ∨ tx.fault = none) :
    store.Precedes (store.rollback tx) :=
  ⟨le_rfl, hf⟩

lemma precedes_commit {tx : Transaction} (hf : tx.fault = store.fault ∨ tx.fault = none) :
    store.Precedes (store.commit tx).store := by
  by_cases hl : tx.Lands
  · rw [store.commit_of_lands hl]
    exact ⟨le_rfl, hf⟩
  · obtain ⟨-, fault, hfault, hstore⟩ := store.commit_of_not_lands hl
    rw [hstore]
    exact ⟨le_rfl, PlannedFault.left_trans hf hfault⟩

lemma precedes_transact {ε α : Type} (refused : SqlState → ε) {action : Action ε α}
    (h : action.Extending channel) : store.Precedes (store.transact refused action).store := by
  have he := h store.begin
  rw [transact]
  split <;> rename_i hrun <;> rw [hrun] at he
  · exact precedes_rollback he.fault
  · exact precedes_commit he.fault

lemma precedes_autocommit {ε α : Type} {action : Action ε α} (h : action.Extending channel) :
    store.Precedes (store.autocommit action).store := by
  have he := h store.begin
  rw [autocommit]
  split <;> rename_i hrun <;> rw [hrun] at he
  · exact precedes_rollback he.fault
  · exact ⟨le_rfl, he.fault⟩

lemma Untouched.precedes {ε α : Type} {reply : Reply ε α} (h : store.Untouched reply) :
    store.Precedes reply.store := by
  obtain ⟨-, fault, hfault, hstore⟩ := h
  rw [hstore]
  exact ⟨le_rfl, hfault⟩

lemma precedes_transaction (store : Store) (channel : Channel) (steps : List TransactionStep)
    (keep : Bool) : store.Precedes (store.transaction channel steps keep) := by
  obtain ⟨tx, he, micros, h⟩ := store.opened_eq channel steps
  have hnow := store.precedes_advance micros
  rw [transaction_eq h]
  split
  · exact hnow.trans (precedes_commit he.fault)
  · exact hnow.trans (precedes_rollback he.fault)

lemma precedes_runBeating (store : Store) (channel : Channel) (handler : Handler)
    (task : ClaimedTask) (earlierRuns : Nat) (beats : Nat → List Beat) :
    store.Precedes (store.runBeating channel handler task earlierRuns beats).store := by
  have opened := store.executed_opened channel handler task earlierRuns beats
  have beside := store.executed_beside channel handler task earlierRuns beats
  rcases store.runBeating_cases channel handler task earlierRuns beats with
    ⟨outcome, hc, hspared⟩ | ⟨-, -, nextId, fault, -, hfault, hstore⟩
  · rw [store.runBeating_of_commits channel handler task earlierRuns beats hc hspared]
    exact ⟨beside.clock, opened.fault⟩
  · rw [hstore]
    exact ⟨beside.clock, hfault⟩

end Store

/-- Behind every call time has not gone back, and no failure was planned. -/
theorem Call.precedes_next (call : Call) (channel : Channel) (store : Store) :
    store.Precedes (call.next channel store) := by
  cases call with
  | perform operation =>
      simp only [next, Store.perform]
      split
      · exact Store.precedes_transact _ (operation.extends channel)
      · exact Store.precedes_autocommit (operation.extends channel)
  | claim types worker lease =>
      simp only [next]
      rcases store.claim_cases types worker lease with
        ⟨row, deadline, state, -, -, -, hreply⟩ | ⟨-, h⟩
      · rw [hreply]
        exact ⟨le_rfl, .inl rfl⟩
      · exact h.precedes
  | renew task worker lease =>
      simp only [next]
      rcases store.renew_cases task worker lease with ⟨deadline, -, -, hreply⟩ | ⟨-, h⟩
      · rw [hreply]
        exact ⟨le_rfl, .inl rfl⟩
      · exact h.precedes
  | finish task worker outcome =>
      exact Store.precedes_transact _
        (TaskAction.extending_finish channel task worker outcome)
  | run handler task earlierRuns beats =>
      exact store.precedes_runBeating channel handler task earlierRuns beats
  | transaction steps keep => exact store.precedes_transaction channel steps keep
  | pass micros => exact store.precedes_advance micros

/-! ### Runs of calls -/

/-- Every call makes steps. -/
theorem Call.steps_next (call : Call) (channel : Channel) {store : Store}
    (hs : store.database.Sound) : store.database.Steps (call.next channel store).database := by
  cases call with
  | perform operation => exact store.steps_perform channel operation
  | claim types worker lease => exact store.steps_claim types worker lease
  | renew task worker lease => exact store.steps_renew task worker lease
  | finish task worker outcome => exact store.steps_finish channel task worker outcome
  | run handler task earlierRuns beats =>
      exact store.steps_runBeating hs channel handler task earlierRuns beats
  | transaction steps keep => exact store.steps_transaction channel steps keep
  | pass micros => exact .refl

/-- Behind every call the store meets no failure, and its table is there and sound. -/
lemma Call.quiet_next (call : Call) {channel : Channel} {store : Store}
    (quiet : store.begin.Quiet) : (call.next channel store).begin.Quiet := by
  have steps := call.steps_next channel quiet.sound
  exact ⟨PlannedFault.left_none (call.precedes_next channel store).fault quiet.fault,
    steps.tasks quiet.tasks, steps.sound quiet.sound⟩

namespace Store

/-- A run of calls makes steps. -/
theorem steps_play {store : Store} (hs : store.database.Sound) (channel : Channel)
    (calls : List Call) : store.database.Steps (store.play channel calls).database := by
  induction calls using List.reverseRecOn with
  | nil => exact .refl
  | append_singleton calls call ih =>
      rw [play_concat]
      exact ih.trans (call.steps_next channel (ih.sound hs))

theorem precedes_play (store : Store) (channel : Channel) (calls : List Call) :
    store.Precedes (store.play channel calls) := by
  induction calls using List.reverseRecOn with
  | nil => exact .refl store
  | append_singleton calls call ih =>
      rw [play_concat]
      exact ih.trans (call.precedes_next channel _)

/-- In a run from the empty store no failure is planned. -/
lemma play_calm (clock : Micros) (channel : Channel) (calls : List Call) :
    ((initial clock).play channel calls).fault = none :=
  PlannedFault.left_none (precedes_play (initial clock) channel calls).fault rfl

lemma initial_rows (clock : Micros) : (initial clock).database.rows = [] := by
  rw [initial_eq]
  rfl

lemma initial_sound (clock : Micros) : (initial clock).database.Sound := by
  have h := initial_rows clock
  exact ⟨by rw [h]; exact .nil, by simp [h], by simp [h]⟩

/-- Every store behind a run from the empty one is sound. -/
theorem play_sound (clock : Micros) (channel : Channel) (calls : List Call) :
    ((initial clock).play channel calls).database.Sound :=
  (steps_play (initial_sound clock) channel calls).sound (initial_sound clock)

/-- In a run from the empty migrated store the task table stays. -/
lemma play_tasks (clock : Micros) (channel : Channel) (calls : List Call) :
    ∃ table, ((initial clock).play channel calls).database.tasks = some table :=
  Option.isSome_iff_exists.mp
    (Database.Steps.tasks (steps_play (initial_sound clock) channel calls) rfl)

/-- The status of every row of a store behind a run is one of the five. -/
lemma play_known (clock : Micros) (channel : Channel) (calls : List Call) :
    ((initial clock).play channel calls).database.Known := by
  refine (steps_play (initial_sound clock) channel calls).known (initial_sound clock) ?_
  intro row hrow
  rw [initial_rows] at hrow
  cases hrow

/-- The store behind a run has no failure to come, and its task table is there and sound. -/
lemma play_quiet (clock : Micros) (channel : Channel) (calls : List Call) :
    ((initial clock).play channel calls).begin.Quiet := by
  obtain ⟨table, ht⟩ := play_tasks clock channel calls
  exact ⟨play_calm clock channel calls, Option.isSome_iff_exists.mpr ⟨table, ht⟩,
    play_sound clock channel calls⟩

end Store
end LeaseQueue
