/-
The dates of the rows: when a task was created, and when it was changed for the last time.

* `Table.Dated`: rows that were written in a known way since an earlier table, all others
  being the same;
* `Database.dated_performed`, `Operation.dated_run`: an operation writes one date, the begin of
  its transaction;
* `Database.Timely`: no row was created before some time, changed before it was created, or later
  than now;
* `Table.Onward`: no row is taken away, and no date of a last change goes back;
* `OpenRun.Dated`: what a program and the renewals beside it leave of the dates;
* `Call.timely_next`, `Store.play_timely`: from call to call the dates are in order.

Behind the end of a run the row of its task has the date on which the run began. Renewals
beside the run may have left a later one there for a while.
-/
import LeaseQueue.Proofs.Store.Perform
import LeaseQueue.Proofs.Store.Reachable

namespace LeaseQueue

/-! ### Rows that were written -/

namespace Table

/-- Every row keeps its number and its date of creation, and it is the same as before or was
written. New rows were created now. -/
def Dated (now : Micros) (written : Row → Prop) (before after : Table) : Prop :=
  ∃ (f : Row → Row) (added : List Row), after = before.map f ++ added ∧
    (∀ row ∈ before, (f row).id = row.id ∧ (f row).created = row.created ∧
      (f row = row ∨ written (f row))) ∧
    ∀ row ∈ added, row.created = now ∧ written row

namespace Dated

variable {now : Micros} {written : Row → Prop} {a b c : Table}

lemma refl (table : Table) : Dated now written table table :=
  ⟨id, [], by simp, fun _ _ => ⟨rfl, rfl, .inl rfl⟩, fun _ h => absurd h List.not_mem_nil⟩

/-- What was written twice was written. -/
lemma trans (h : Dated now written a b) (h' : Dated now written b c) : Dated now written a c := by
  obtain ⟨f, added, rfl, hf, hadded⟩ := h
  obtain ⟨g, more, rfl, hg, hmore⟩ := h'
  refine ⟨g ∘ f, added.map g ++ more, by simp, fun row hrow => ?_, fun row hrow => ?_⟩
  · obtain ⟨hid, hcreated, hwritten⟩ := hf row hrow
    obtain ⟨hid', hcreated', hwritten'⟩ :=
      hg (f row) (List.mem_append_left _ (List.mem_map_of_mem hrow))
    refine ⟨hid'.trans hid, hcreated'.trans hcreated, ?_⟩
    rcases hwritten' with hsame | hwritten'
    · rw [Function.comp_apply, hsame]
      exact hwritten
    · exact .inr hwritten'
  · rcases List.mem_append.mp hrow with hold | hnew
    · obtain ⟨old, hmem, rfl⟩ := List.mem_map.mp hold
      obtain ⟨hcreated, hwritten⟩ := hadded old hmem
      obtain ⟨-, hcreated', hwritten'⟩ := hg old (List.mem_append_right _ hmem)
      refine ⟨hcreated'.trans hcreated, ?_⟩
      rcases hwritten' with hsame | hwritten'
      · rwa [hsame]
      · exact hwritten'
    · exact hmore row hnew

lemma mono {wider : Row → Prop} (h : Dated now written a b)
    (hw : ∀ row, written row → wider row) : Dated now wider a b := by
  obtain ⟨f, added, hafter, hf, hadded⟩ := h
  refine ⟨f, added, hafter, fun row hrow => ?_, fun row hrow => ?_⟩
  · obtain ⟨hid, hcreated, hwritten⟩ := hf row hrow
    exact ⟨hid, hcreated, hwritten.imp_right (hw _)⟩
  · exact ⟨(hadded row hrow).1, hw row (hadded row hrow).2⟩

/-- A row of the later table was there before, or it was written. -/
lemma origin (h : Dated now written a b) :
    ∀ row ∈ b, (∃ old ∈ a, row.id = old.id ∧ row.created = old.created ∧
      (row = old ∨ written row)) ∨ row.created = now ∧ written row := by
  obtain ⟨f, added, rfl, hf, hadded⟩ := h
  intro row hrow
  rcases List.mem_append.mp hrow with hold | hnew
  · obtain ⟨old, hmem, rfl⟩ := List.mem_map.mp hold
    exact .inl ⟨old, hmem, hf old hmem⟩
  · exact .inr (hadded row hnew)

/-- A row of the earlier table is still there, or it was written. -/
lemma kept (h : Dated now written a b) :
    ∀ row ∈ a, ∃ next ∈ b, next.id = row.id ∧ (next = row ∨ written next) := by
  obtain ⟨f, added, rfl, hf, -⟩ := h
  intro row hrow
  obtain ⟨hid, -, hwritten⟩ := hf row hrow
  exact ⟨f row, List.mem_append_left _ (List.mem_map_of_mem hrow), hid, hwritten⟩

end Dated
end Table

/-! ### Operations -/

namespace Database

variable {database : Database} {now : Micros} {written : Row → Prop}

/-- A change of some rows. -/
lemma dated_change {pick : Row → Bool} {f : Row → Row}
    (h : ∀ row ∈ database.rows, pick row = true →
      (f row).id = row.id ∧ (f row).created = row.created ∧ written (f row)) :
    Table.Dated now written database.rows (database.change pick f).rows := by
  refine ⟨fun row => if pick row then f row else row, [], ?_, fun row hrow => ?_,
    fun _ hnew => absurd hnew List.not_mem_nil⟩
  · rw [rows_change, Table.update, List.append_nil]
  · dsimp only
    by_cases hp : pick row = true
    · rw [if_pos hp]
      obtain ⟨hid, hcreated, hwritten⟩ := h row hrow hp
      exact ⟨hid, hcreated, .inr hwritten⟩
    · rw [if_neg hp]
      exact ⟨rfl, rfl, .inl rfl⟩

lemma dated_insertTask (taskType : String) (state : Json) (parent : Option TaskId) :
    Table.Dated now (fun row => row.updated = now) database.rows
      (database.insertTask now taskType state parent).2.rows := by
  rw [rows_insertTask]
  cases (database.insertTask now taskType state parent).1 with
  | error e => exact .refl _
  | ok id =>
      refine ⟨fun row => row, _, by rw [List.map_id'], fun _ _ => ⟨rfl, rfl, .inl rfl⟩,
        fun row hrow => ?_⟩
      rw [List.mem_singleton.mp hrow]
      exact ⟨rfl, rfl⟩

lemma dated_parentResumed (database : Database) (now : Micros) (child : TaskId) :
    Table.Dated now (fun row => row.updated = now) database.rows
      (database.parentResumed now child).rows := by
  rw [parentResumed_eq_change]
  exact dated_change fun _ _ _ => ⟨rfl, rfl, rfl⟩

lemma dated_settled (database : Database) (now : Micros) (task : TaskId) (worker : WorkerId)
    (outcome : Outcome) :
    Table.Dated now (fun row => row.updated = now) database.rows
      (database.settled now task worker outcome).rows := by
  have hwritten : Table.Dated now (fun row => row.updated = now) database.rows
      (database.outcomeWritten now task worker outcome).rows :=
    dated_change fun _ _ _ => ⟨rfl, rfl, rfl⟩
  rw [settled]
  split
  · exact hwritten.trans (dated_parentResumed _ now task)
  · exact hwritten

/-- Behind the end of a run the row of its task has been written. -/
lemma updated_settled (hs : database.Sound) {task : TaskId} {worker : WorkerId}
    (held : database.Holds task worker) (now : Micros) (outcome : Outcome) :
    ∀ row ∈ (database.settled now task worker outcome).rows, row.id = task →
      row.updated = now := by
  obtain ⟨holder, hholder, rfl, hheld⟩ := held
  have hwritten : ∀ row ∈ (database.outcomeWritten now holder.id worker outcome).rows,
      row.id = holder.id → row.updated = now := by
    intro row hrow hid
    rcases mem_change.mp hrow with ⟨hold, hp⟩ | ⟨old, -, -, rfl⟩
    · -- the number stands for the row that the worker holds, which is picked
      have : row = holder := hs.eq_of_id hold hholder hid
      subst this
      rw [Table.only_eq_true.mpr ⟨rfl, hheld⟩] at hp
      cases hp
    · rfl
  intro row hrow hid
  rw [settled] at hrow
  split at hrow
  · rcases (dated_parentResumed _ now holder.id).origin row hrow with
      ⟨old, hold, hid', -, rfl | hnow⟩ | ⟨-, hnow⟩
    · exact hwritten row hold hid
    · exact hnow
    · exact hnow
  · exact hwritten row hrow hid

lemma dated_treeCancelled (database : Database) (now : Micros) (root : TaskId) :
    Table.Dated now (fun row => row.updated = now) database.rows
      (database.treeCancelled now root).rows := by
  have hcancelled : ∀ ids, Table.Dated now (fun row => row.updated = now) database.rows
      (database.cancelAll now ids).rows :=
    fun ids => dated_change fun _ _ _ => ⟨rfl, rfl, rfl⟩
  rw [treeCancelled]
  split
  · exact (hcancelled _).trans (dated_parentResumed _ now root)
  · exact hcancelled _

/-- An operation dates what it writes to the begin of its transaction. -/
theorem dated_performed (database : Database) (now : Micros) (operation : Operation) :
    Table.Dated now (fun row => row.updated = now) database.rows
      (database.performed now operation).rows := by
  cases operation with
  | create taskType state => exact dated_insertTask _ _ _
  | createChild parent taskType state => exact dated_insertTask _ _ _
  | resume id => exact dated_change fun _ _ _ => ⟨rfl, rfl, rfl⟩
  | resumeWith id state => exact dated_change fun _ _ _ => ⟨rfl, rfl, rfl⟩
  | cancel id =>
      rw [performed]
      split
      · exact dated_treeCancelled database now id
      · exact .refl _
  | finish task worker outcome =>
      rw [performed]
      split
      · exact dated_settled database now task worker outcome
      · exact .refl _
  | get | children | lockChildren | notify => exact .refl _

/-- The renewal of a lease dates the row of its task. -/
lemma dated_renewed (database : Database) (task : TaskId) (worker : WorkerId)
    (now deadline : Micros) :
    Table.Dated now (fun row => row.updated = now) database.rows
      (database.change (Table.only task (Row.isHeldBy worker))
        (Row.renewed now deadline)).rows :=
  dated_change fun _ _ _ => ⟨rfl, rfl, rfl⟩

end Database

/-- An operation in an open transaction, whether it can go on or not. -/
lemma Operation.dated_run (operation : Operation) (channel : Channel) {tx : Transaction}
    (quiet : tx.Quiet) :
    Table.Dated tx.now (fun row => row.updated = tx.now) tx.database.rows
      ((operation.action channel).run tx).2.database.rows := by
  by_cases ha : tx.aborted = true
  · rw [operation.run_aborted ha]
    exact .refl _
  have ha : tx.aborted = false := by simpa using ha
  by_cases refused : tx.database.Refuses operation
  · rw [operation.run_refused quiet ha refused]
    exact Database.dated_performed _ _ operation
  · rw [operation.run_answered quiet ha refused]
    exact Database.dated_performed _ _ operation

/-! ### Dates in order -/

/-- Since some first time no row was changed before it was created, and none later than now. -/
structure Database.Timely (first now : Micros) (database : Database) : Prop where
  first_le : first ≤ now
  rows : ∀ row ∈ database.rows,
    first ≤ row.created ∧ row.created ≤ row.updated ∧ row.updated ≤ now

/-- No row is taken away, and none has been changed for the last time earlier than it was
before. -/
def Table.Onward (before after : Table) : Prop :=
  ∀ row ∈ before, ∃ next ∈ after, next.id = row.id ∧ row.updated ≤ next.updated

instance (before after : Table) : Decidable (before.Onward after) :=
  inferInstanceAs (Decidable (∀ row ∈ before, ∃ next ∈ after, _ ∧ _))

lemma Table.Onward.refl (table : Table) : table.Onward table :=
  fun row hrow => ⟨row, hrow, rfl, le_rfl⟩

lemma Table.Onward.trans {a b c : Table} (h : a.Onward b) (h' : b.Onward c) : a.Onward c := by
  intro row hrow
  obtain ⟨next, hnext, hid, hle⟩ := h row hrow
  obtain ⟨last, hlast, hid', hle'⟩ := h' next hnext
  exact ⟨last, hlast, hid'.trans hid, hle.trans hle'⟩

lemma Database.Timely.later {database : Database} {first now later : Micros}
    (h : database.Timely first now) (hle : now ≤ later) : database.Timely first later where
  first_le := h.first_le.trans hle
  rows := fun row hrow =>
    ⟨(h.rows row hrow).1, (h.rows row hrow).2.1, (h.rows row hrow).2.2.trans hle⟩

namespace Table.Dated

variable {before after : Database} {first now : Micros}

/-- What is dated to now keeps the dates in order. -/
lemma timely (h : Dated now (fun row => row.updated = now) before.rows after.rows)
    (timely : before.Timely first now) : after.Timely first now := by
  refine ⟨timely.first_le, fun row hrow => ?_⟩
  rcases h.origin row hrow with ⟨old, hold, -, hcreated, hsame⟩ | ⟨hcreated, hnow⟩
  · obtain ⟨hfirst, hle, hlast⟩ := timely.rows old hold
    rcases hsame with rfl | hnow
    · exact ⟨hfirst, hle, hlast⟩
    · rw [hcreated, hnow]
      exact ⟨hfirst, hle.trans hlast, le_rfl⟩
  · rw [hcreated, hnow]
    exact ⟨timely.first_le, le_rfl, le_rfl⟩

lemma onward (h : Dated now (fun row => row.updated = now) before.rows after.rows)
    (timely : before.Timely first now) : before.rows.Onward after.rows := by
  intro row hrow
  obtain ⟨next, hnext, hid, hsame⟩ := h.kept row hrow
  refine ⟨next, hnext, hid, ?_⟩
  rcases hsame with rfl | hnow
  · exact le_rfl
  · rw [hnow]
    exact (timely.rows row hrow).2.2

end Table.Dated

/-! ### Runs of handlers -/

/-- What a program and the renewals beside it leave of the dates. The view of the transaction
has the date of its begin wherever it was written, apart from the renewed row of the task. In
the store beside it that row alone may differ from the one that was there. -/
structure OpenRun.Dated (first : Micros) (store : Store) (task : TaskId) (run : OpenRun) :
    Prop where
  follows : run.Follows store
  now : run.tx.now = store.clock
  view : Table.Dated store.clock (fun row => row.updated = store.clock ∨ row.id = task)
    store.database.rows run.tx.database.rows
  timely : run.store.database.Timely first run.store.clock
  onward : store.database.rows.Onward run.store.database.rows
  origin : ∀ row ∈ run.store.database.rows, ∃ old ∈ store.database.rows,
    old.id = row.id ∧ (row.id ≠ task → row = old)

namespace OpenRun.Dated

variable {first : Micros} {store : Store} {task : TaskId} {run : OpenRun}

lemma start (timely : store.database.Timely first store.clock) (task : TaskId) :
    Dated first store task (.start store) :=
  ⟨.start store, rfl, .refl _, timely, .refl _, fun row hrow => ⟨row, hrow, rfl, fun _ => rfl⟩⟩

lemma perform (h : Dated first store task run) (quiet : store.begin.Quiet) (channel : Channel)
    (operation : Operation) : Dated first store task (run.perform channel operation).2 := by
  have he := operation.extends channel run.tx
  have hrun := operation.dated_run channel (h.follows.quiet quiet)
  rw [h.now] at hrun
  exact ⟨h.follows.extend he, he.now.trans h.now, h.view.trans (hrun.mono fun _ => .inl),
    h.timely, h.onward, h.origin⟩

lemma advance (h : Dated first store task run) (micros : Nat) :
    Dated first store task (run.advance micros) :=
  ⟨h.follows.advance micros, h.now, h.view,
    h.timely.later (Int.le_add_of_nonneg_right (Int.natCast_nonneg micros)), h.onward, h.origin⟩

/-- A renewal dates the row of the task in the store to now, if it changes it. -/
lemma renewed_store (h : Dated first store task run) (hs : store.database.Sound) (worker : WorkerId)
    (lease : Duration) :
    (run.renew task worker lease).store.clock = run.store.clock ∧
      Table.Dated run.store.clock (fun row => row.updated = run.store.clock)
        run.store.database.rows (run.renew task worker lease).store.database.rows := by
  rcases OpenRun.renew_cases h.follows.calm (h.follows.outside.sound hs)
      (h.follows.inside.sound hs) task worker lease with hr | ⟨deadline, -, -, -, hr⟩
  · rw [hr]
    exact ⟨rfl, .refl _⟩
  · rw [hr]
    exact ⟨rfl, Database.dated_renewed _ _ _ _ _⟩

lemma renew (h : Dated first store task run) (hs : store.database.Sound) (worker : WorkerId)
    (lease : Duration) : Dated first store task (run.renew task worker lease) := by
  obtain ⟨hclock, hdated⟩ := h.renewed_store hs worker lease
  have htimely := hdated.timely h.timely
  have honward := h.onward.trans (hdated.onward h.timely)
  have hfollows := h.follows.renew hs task worker lease
  rcases OpenRun.renew_cases h.follows.calm (h.follows.outside.sound hs)
      (h.follows.inside.sound hs) task worker lease with hr | ⟨deadline, -, -, -, hr⟩
  · rw [hr]
    exact h
  · rw [hr] at htimely honward hfollows ⊢
    refine ⟨hfollows, h.now, h.view.trans (Database.dated_change fun row _ hp => ?_), htimely,
      honward, fun row hrow => ?_⟩
    · exact ⟨rfl, rfl, .inr (Table.only_eq_true.mp hp).1⟩
    · rcases Database.mem_change.mp hrow with ⟨hold, -⟩ | ⟨renewed, hold, hp, rfl⟩
      · exact h.origin row hold
      · obtain ⟨old, hmem, hid, -⟩ := h.origin renewed hold
        exact ⟨old, hmem, hid, fun hne => absurd (Table.only_eq_true.mp hp).1 hne⟩

/-- A program in its surroundings. -/
lemma execute {task : ClaimedTask} (h : Dated first store task.id run) (quiet : store.begin.Quiet)
    (channel : Channel) (beats : Nat → List Beat) (program : Program) :
    Dated first store task.id (program.execute (.beating task beats) channel run).run := by
  refine Program.execute_keeps (fun run operation h => ?_) (fun millis => ?_) program run h
  · exact h.perform quiet channel operation
  · exact Surroundings.beating_keeps (fun run micros h => h.advance micros)
      (fun run lease h => h.renew quiet.sound task.worker lease) beats millis

end OpenRun.Dated

namespace Store

variable {first : Micros} {store : Store} {channel : Channel}

/-- The dates behind a handler, before its outcome is written. -/
lemma dated_executed (quiet : store.begin.Quiet) (timely : store.database.Timely first store.clock)
    (channel : Channel) (handler : Handler) (task : ClaimedTask) (earlierRuns : Nat)
    (beats : Nat → List Beat) :
    (store.executed channel handler task earlierRuns beats).run.Dated first store task.id :=
  (OpenRun.Dated.start timely task.id).execute quiet channel beats _

/-- A run that is committed dates everything that it has written to its begin. -/
lemma dated_settled {task : ClaimedTask} {run : OpenRun} (h : run.Dated first store task.id)
    (hs : store.database.Sound) (held : run.tx.database.Holds task.id task.worker)
    (outcome : Outcome) :
    Table.Dated store.clock (fun row => row.updated = store.clock) store.database.rows
      (run.tx.database.settled store.clock task.id task.worker outcome).rows := by
  have hview : run.tx.database.Sound := h.follows.inside.sound hs
  have hsettled := Database.dated_settled run.tx.database store.clock task.id task.worker outcome
  have htask := Database.updated_settled hview held store.clock outcome
  obtain ⟨f, added, hafter, hf, hadded⟩ := h.view.trans (hsettled.mono fun _ => .inl)
  rw [hafter] at htask ⊢
  refine ⟨f, added, rfl, fun row hrow => ?_, fun row hrow => ?_⟩
  · obtain ⟨hid, hcreated, hwritten⟩ := hf row hrow
    refine ⟨hid, hcreated, hwritten.imp_right fun hor => hor.elim id fun hid => ?_⟩
    exact htask _ (List.mem_append_left _ (List.mem_map_of_mem hrow)) hid
  · obtain ⟨hcreated, hor⟩ := hadded row hrow
    exact ⟨hcreated, hor.elim id fun hid => htask _ (List.mem_append_right _ hrow) hid⟩

/-- The dates behind the run of a handler. -/
lemma timely_runBeating (quiet : store.begin.Quiet)
    (timely : store.database.Timely first store.clock)
    (handler : Handler) (task : ClaimedTask) (earlierRuns : Nat) (beats : Nat → List Beat) :
    let after := (store.runBeating channel handler task earlierRuns beats).store
    after.database.Timely first after.clock ∧ store.database.rows.Onward after.database.rows := by
  have dated := dated_executed quiet timely channel handler task earlierRuns beats
  have beside := store.executed_beside channel handler task earlierRuns beats
  rcases store.runBeating_cases channel handler task earlierRuns beats with
    ⟨outcome, hc, hspared⟩ | ⟨-, -, nextId, fault, -, -, hstore⟩
  · rw [store.runBeating_of_commits channel handler task earlierRuns beats hc hspared]
    have hsettled := dated_settled dated quiet.sound hc.applies.held outcome
    exact ⟨(hsettled.timely timely).later beside.clock, hsettled.onward timely⟩
  · have hrows : ({ store.database.renewAll task.id task.worker
        (store.renewals channel handler task earlierRuns beats) with nextId } : Database).rows =
        (store.executed channel handler task earlierRuns beats).run.store.database.rows := by
      rw [beside.database]
      rfl
    simp only [hstore, hrows]
    exact ⟨⟨dated.timely.first_le, by rw [hrows]; exact dated.timely.rows⟩, dated.onward⟩

/-- The dates behind an explicit transaction, during which time may pass. -/
lemma dated_transaction (quiet : store.begin.Quiet) (steps : List TransactionStep) (keep : Bool) :
    Table.Dated store.clock (fun row => row.updated = store.clock) store.database.rows
      (store.transaction channel steps keep).database.rows := by
  obtain ⟨tx, -, micros, hopened⟩ := store.opened_eq channel steps
  let Kept (tx : Transaction) : Prop := tx.Quiet ∧ tx.now = store.clock ∧
    Table.Dated store.clock (fun row => row.updated = store.clock) store.database.rows
      tx.database.rows
  have hperform : ∀ tx operation, Kept tx →
      Kept ((Operation.action channel operation).run tx).2 := by
    rintro tx operation ⟨quiet, hnow, dated⟩
    have hrun := operation.dated_run channel quiet
    have he := operation.extends channel tx
    rw [hnow] at hrun
    exact ⟨quiet.extend he, he.now.trans hnow, dated.trans hrun⟩
  obtain ⟨after, hopen, -, -, dated⟩ := Session.through_keeps hperform steps
    (Session.mk store channel none).begin store.begin rfl rfl ⟨quiet, rfl, .refl _⟩
  have hsame : after = tx := eq_of_opened hopened hopen
  subst hsame
  rw [transaction_eq hopened]
  split
  · by_cases hl : after.Lands
    · rw [commit_of_lands _ hl]
      exact dated
    · obtain ⟨-, fault, -, hstore⟩ := (store.advance micros).commit_of_not_lands hl
      rw [hstore]
      exact .refl _
  · exact .refl _

end Store

/-! ### Calls -/

/-- Every call but the run of a handler dates what it writes to its begin. -/
lemma Call.dated_next {call : Call} (channel : Channel) {store : Store}
    (quiet : store.begin.Quiet)
    (hrun : ∀ handler task earlierRuns beats, call ≠ .run handler task earlierRuns beats) :
    Table.Dated store.clock (fun row => row.updated = store.clock) store.database.rows
      (call.next channel store).database.rows := by
  cases call with
  | perform operation =>
      rw [next, Store.perform_quiet quiet]
      exact Database.dated_performed _ _ operation
  | claim types worker lease =>
      rw [next]
      rcases store.claim_cases types worker lease with
        ⟨row, deadline, state, -, -, -, hreply⟩ | ⟨-, -, fault, -, hstore⟩
      · rw [hreply]
        exact Database.dated_change fun _ _ _ => ⟨rfl, rfl, rfl⟩
      · rw [hstore]
        exact .refl _
  | renew task worker lease =>
      rw [next]
      rcases store.renew_cases task worker lease with
        ⟨deadline, -, -, hreply⟩ | ⟨-, -, fault, -, hstore⟩
      · rw [hreply]
        exact Database.dated_renewed _ _ _ _ _
      · rw [hstore]
        exact .refl _
  | finish task worker outcome =>
      have hfinish : (store.finish channel task worker outcome).store =
          (store.perform channel (.finish task worker outcome)).store := by
        rw [store.perform_finish]
      rw [next, hfinish, Store.perform_quiet quiet]
      exact Database.dated_performed _ _ _
  | run handler task earlierRuns beats => exact absurd rfl (hrun handler task earlierRuns beats)
  | transaction steps keep => exact Store.dated_transaction quiet steps keep
  | pass micros => exact .refl _

/-- From call to call the dates are in order. -/
theorem Call.timely_next (call : Call) (channel : Channel) {first : Micros} {store : Store}
    (quiet : store.begin.Quiet) (timely : store.database.Timely first store.clock) :
    (call.next channel store).database.Timely first (call.next channel store).clock ∧
      store.database.rows.Onward (call.next channel store).database.rows := by
  by_cases hrun : ∃ handler task earlierRuns beats, call = .run handler task earlierRuns beats
  · obtain ⟨handler, task, earlierRuns, beats, rfl⟩ := hrun
    exact Store.timely_runBeating quiet timely handler task earlierRuns beats
  · have dated := dated_next channel quiet fun handler task earlierRuns beats h =>
      hrun ⟨handler, task, earlierRuns, beats, h⟩
    exact ⟨(dated.timely timely).later (call.precedes_next channel store).clock,
      dated.onward timely⟩

/-- In every store behind a run the dates are in order, from the begin of the run on. -/
theorem Store.play_timely (clock : Micros) (channel : Channel) (calls : List Call) :
    ((initial clock).play channel calls).database.Timely clock
      ((initial clock).play channel calls).clock := by
  induction calls using List.reverseRecOn with
  | nil =>
      refine ⟨le_rfl, fun row hrow => ?_⟩
      rw [play_nil, initial_rows] at hrow
      cases hrow
  | append_singleton calls call ih =>
      rw [play_concat]
      exact (call.timely_next channel (play_quiet clock channel calls) ih).1

end LeaseQueue
