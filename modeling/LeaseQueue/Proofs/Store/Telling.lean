/-
Operations publish exactly what their statements make pending.

* `Effect.MakesPending`: a statement has made a row pending;
* `makesPending_insert`, `makesPending_change`, `not_makesPending_change`: which statements do;
* `Routine.Tells`: a routine publishes if one of its statements has made a row pending, or owes it
  for a statement before, and otherwise does not;
* `Tells.ask`, `Tells.tell`, `Tells.savepoint`: a rule for each part of a routine;
* `Operation.tells`: every operation but a notification does so.

A routine may end in an error and yet leave a transaction that can be committed. The rules speak
of every transaction that can, whether or not the database has failed on the way.
-/
import LeaseQueue.Proofs.Store.Finish
import LeaseQueue.Proofs.Store.Routine
import LeaseQueue.Proofs.Store.Sound

namespace LeaseQueue

/-! ### Statements that make a row pending -/

namespace Effect

/-- A row is pending that was not there before, or was not pending. -/
def MakesPending (effect : Effect) : Prop :=
  ∃ row ∈ effect.after.rows, row.hasStatus .pending = true ∧
    ∀ old ∈ effect.before.rows, old.id = row.id → old.hasStatus .pending = false

instance (effect : Effect) : Decidable effect.MakesPending :=
  inferInstanceAs (Decidable (∃ row ∈ effect.after.rows, row.hasStatus .pending = true ∧
    ∀ old ∈ effect.before.rows, old.id = row.id → old.hasStatus .pending = false))

end Effect

namespace Database

variable {database after : Database}

lemma not_makesPending_self (database : Database) :
    ¬ Effect.MakesPending ⟨database, database⟩ := by
  rintro ⟨row, hrow, hpending, hold⟩
  rw [hold row hrow rfl] at hpending
  cases hpending

/-- A new task is pending. -/
lemma makesPending_insert (hs : database.Sound) {now : Micros} {taskType : String} {state : Json}
    {parent : Option TaskId} {id : TaskId}
    (h : database.insertTask now taskType state parent = (.ok id, after)) :
    Effect.MakesPending ⟨database, after⟩ := by
  have hrows := database.rows_insertTask now taskType state parent
  have hid : id = database.nextId := by
    rw [insertTask] at h
    split at h
    · cases h
    · dsimp only at h
      split at h <;> cases h
      rfl
  rw [h] at hrows
  refine ⟨Row.fresh now id taskType state parent, by simp [hrows], rfl, fun old hold hsame => ?_⟩
  exact absurd (hsame.trans hid) (ne_of_lt (hs.below old hold))

variable {pick : Row → Bool} {f : Row → Row}

/-- A change that moves a row from another status to pending. -/
lemma makesPending_change (hs : database.Sound) (hf : ∀ row, (f row).id = row.id) {row : Row}
    (hrow : row ∈ database.rows) (hpick : pick row = true)
    (hpending : (f row).hasStatus .pending = true) {status : Status}
    (hwas : row.hasStatus status = true) (hne : status ≠ .pending) :
    Effect.MakesPending ⟨database, database.change pick f⟩ := by
  refine ⟨f row, mem_change.mpr (.inr ⟨row, hrow, hpick, rfl⟩), hpending, fun old hold hid => ?_⟩
  rw [hs.eq_of_id hold hrow (hid.trans (hf row)), Row.hasStatus, Row.hasStatus_iff.mp hwas]
  simpa using hne

/-- A change that leaves no row pending but those that were. -/
lemma not_makesPending_change (hf : ∀ row, (f row).id = row.id)
    (h : ∀ row, (f row).hasStatus .pending = true → row.hasStatus .pending = true) :
    ¬ Effect.MakesPending ⟨database, database.change pick f⟩ := by
  rintro ⟨row, hrow, hpending, hold⟩
  rcases mem_change.mp hrow with ⟨hsame, -⟩ | ⟨old, hmem, -, rfl⟩
  · rw [hold row hsame rfl] at hpending
    cases hpending
  · have hwas := h old hpending
    rw [hold old hmem (hf old).symm] at hwas
    cases hwas

/-- A change that picks no row. -/
lemma not_makesPending_of_none (h : ¬ database.rows.any pick = true) :
    ¬ Effect.MakesPending ⟨database, database.change pick f⟩ := by
  rw [change_eq_self fun row hrow hpick => absurd (List.any_eq_true.mpr ⟨row, hrow, hpick⟩) h]
  exact not_makesPending_self database

/-- What changing one row answers and leaves. -/
lemma updateRow_ok {id : TaskId} {condition : Row → Bool} {done : Bool}
    (h : database.updateRow id condition f = (.ok done, after)) :
    after = database.change (Table.only id condition) f ∧
      done = database.rows.any (Table.only id condition) := by
  obtain ⟨_ | table, nextId, migrations⟩ := database
  · cases h
  · cases h
    exact ⟨rfl, rfl⟩

/-- A waiting row that is resumed becomes pending, and no other does. -/
lemma makesPending_updateRow_iff (hs : database.Sound) (hf : ∀ row, (f row).id = row.id)
    (hpending : ∀ row, (f row).hasStatus .pending = true) {id : TaskId} {done : Bool}
    (h : database.updateRow id (·.hasStatus .waiting) f = (.ok done, after)) :
    Effect.MakesPending ⟨database, after⟩ ↔ done = true := by
  obtain ⟨rfl, rfl⟩ := updateRow_ok h
  refine ⟨fun hmakes => ?_, fun hany => ?_⟩
  · by_contra hnone
    exact not_makesPending_of_none hnone hmakes
  · obtain ⟨row, hrow, hpick⟩ := List.any_eq_true.mp hany
    have hwaiting := (Table.only_eq_true.mp hpick).2
    exact makesPending_change hs hf hrow hpick (hpending row) hwaiting (by simp)

/-- The resumption of a parent makes it pending. -/
lemma makesPending_resumeParent_iff (hs : database.Sound) {now : Micros} {child : TaskId}
    {parent : Option TaskId} (h : database.resumeParent now child = (.ok parent, after)) :
    Effect.MakesPending ⟨database, after⟩ ↔ parent.isSome = true := by
  obtain ⟨table, htasks⟩ : ∃ table, database.tasks = some table := by
    obtain ⟨_ | table, nextId, migrations⟩ := database
    · cases h
    · exact ⟨table, rfl⟩
  rw [resumeParent_eq htasks] at h
  cases h
  rw [parentResumed]
  cases hparent : database.waitingParent? child with
  | none => simpa using not_makesPending_self database
  | some parent =>
      obtain ⟨-, row, hrow, hpick⟩ := waitingParent?_eq_some_iff.mp hparent
      refine iff_of_true ?_ rfl
      exact makesPending_change hs (fun _ => rfl) hrow (Table.only_eq_true.mpr hpick) rfl hpick.2
        (by simp)

/-- The outcome of a run makes its task pending only as a retry. -/
lemma makesPending_finishTask_iff (hs : database.Sound) {now : Micros} {task : TaskId}
    {worker : WorkerId} {outcome : Outcome} {held : Bool}
    (h : database.finishTask now task worker outcome = (.ok held, after)) :
    Effect.MakesPending ⟨database, after⟩ ↔ held = true ∧ outcome.status = .pending := by
  obtain ⟨rfl, rfl⟩ := updateRow_ok h
  have hstatus : ∀ row : Row, (row.finished now outcome).hasStatus .pending = true ↔
      outcome.status = .pending := by
    simp [Row.hasStatus, Row.finished]
  constructor
  · intro hmakes
    refine ⟨?_, ?_⟩
    · by_contra hnone
      exact not_makesPending_of_none hnone hmakes
    · by_contra hpending
      exact not_makesPending_change (f := Row.finished now outcome) (fun _ => rfl)
        (fun row hrow => absurd ((hstatus row).mp hrow) hpending) hmakes
  · rintro ⟨hany, hpending⟩
    obtain ⟨row, hrow, hpick⟩ := List.any_eq_true.mp hany
    have hrunning := Row.hasStatus_iff.mpr (Row.isHeldBy_iff.mp (Table.only_eq_true.mp hpick).2).2
    exact makesPending_change hs (fun _ => rfl) hrow hpick ((hstatus row).mpr hpending) hrunning
      (by simp)

/-- A claim makes nothing pending. -/
lemma not_makesPending_claimTask (database : Database) (now : Micros) (types : List String)
    (worker : WorkerId) (lease : Duration) :
    ¬ Effect.MakesPending ⟨database, (database.claimTask now types worker lease).2⟩ := by
  obtain ⟨_ | table, nextId, migrations⟩ := database
  · exact not_makesPending_self _
  · rw [claimTask, onTasks]
    dsimp only
    by_cases hinterval : IsInterval lease
    · rw [if_pos hinterval]
      cases Table.oldest? (table.filter (Row.isEligible now types)) with
      | none => exact not_makesPending_self _
      | some row =>
          cases leaseDeadline? now lease with
          | none => exact not_makesPending_self _
          | some deadline =>
              exact not_makesPending_change (f := Row.claimed now worker deadline) (fun _ => rfl)
                fun _ hpending => by cases hpending
    · rw [if_neg hinterval]
      exact not_makesPending_self _

/-- Neither does a renewal. -/
lemma not_makesPending_renewLease (database : Database) (now : Micros) (task : TaskId)
    (worker : WorkerId) (lease : Duration) :
    ¬ Effect.MakesPending ⟨database, (database.renewLease now task worker lease).2⟩ := by
  obtain ⟨_ | table, nextId, migrations⟩ := database
  · exact not_makesPending_self _
  · rw [renewLease, onTasks]
    dsimp only
    by_cases hinterval : IsInterval lease
    · rw [if_pos hinterval]
      by_cases hany : table.any (Table.only task (Row.isHeldBy worker)) = true
      · rw [if_pos hany]
        cases leaseDeadline? now lease with
        | none => exact not_makesPending_self _
        | some deadline =>
            exact not_makesPending_change (f := Row.renewed now deadline) (fun _ => rfl)
              fun _ h => h
      · rw [if_neg hany]
        exact not_makesPending_self _
    · rw [if_neg hinterval]
      exact not_makesPending_self _

end Database

/-! ### Routines that tell of it -/

namespace Action

variable {α : Type} {channel : Channel} {tx : Transaction}

/-- A statement fails, and the transaction with it, or it answers. -/
lemma run_onTasks_cases (body : Micros → Database → Database.Reply α) (tx : Transaction) :
    (∃ e after, run (onTasks body) tx = (.error e, after) ∧ after.aborted = true) ∨
      ∃ a database, body tx.now tx.database = (.ok a, database) ∧
        run (onTasks body) tx = (.ok a, { tx with database }) := by
  rw [run_onTasks]
  split
  · exact .inl ⟨_, _, rfl, ‹_›⟩
  · split
    · exact .inl ⟨_, _, rfl, rfl⟩
    · split <;> rename_i hbody
      · exact .inr ⟨_, _, hbody, rfl⟩
      · exact .inl ⟨_, _, rfl, rfl⟩

lemma run_notify_cases (channel : Channel) (tx : Transaction) :
    (∃ e after, run (notify channel) tx = (.error e, after) ∧ after.aborted = true) ∨
      run (notify channel) tx = (.ok (), tx.publish channel) := by
  rw [run_notify]
  split
  · exact .inl ⟨_, _, rfl, ‹_›⟩
  · split
    · exact .inl ⟨_, _, rfl, rfl⟩
    · exact .inr rfl

/-- A part that answers has ended as it would without a savepoint, in a transaction that could go
on all the time. -/
lemma of_run_savepoint_ok {action : TaskAction α} {tx after : Transaction} {a : α}
    (h : run action.savepoint tx = (.ok a, after)) :
    tx.aborted = false ∧ run action tx = (.ok a, after) ∧ after.aborted = false := by
  simp only [run, savepoint] at h ⊢
  split at h
  · cases h
  · split at h
    · split at h
      · cases h
      · cases h
        exact ⟨by simpa using ‹¬ tx.aborted = true›, ‹_›, by simpa using ‹¬ after.aborted = true›⟩
    · cases h

/-- A part of a transaction is undone, or it ends as it would without a savepoint. -/
lemma run_savepoint_cases (action : Action TaskError α) (tx : Transaction) :
    (∃ e after, run action.savepoint tx = (.error e, after) ∧
        after.published = tx.published) ∨
      ∃ a after, run action tx = (.ok a, after) ∧ run action.savepoint tx = (.ok a, after) := by
  cases hrun : run action.savepoint tx with
  | mk answer after =>
      cases answer with
      | error e => exact .inl ⟨e, after, rfl, (savepoint_error hrun).2⟩
      | ok a => exact .inr ⟨a, after, (of_run_savepoint_ok hrun).2.1, rfl⟩

end Action

namespace Routine

variable {α β : Type} {channel : Channel} {owed : Prop}

/-- A routine publishes exactly if it owes a notification already, or one of its statements has
made a row pending and was not undone, and if its transaction can still be committed. -/
def Tells (channel : Channel) (owed : Prop) (routine : Routine α) : Prop :=
  ∀ tx : Transaction, tx.database.Sound →
    let after := (routine.run.run tx).2
    after.aborted = false →
      (channel ∈ after.published ↔ channel ∈ tx.published ∨ owed ∨
        ∃ effect ∈ routine.changes tx, effect.MakesPending)

/-- A single statement that makes nothing pending. -/
lemma not_makesPending_ask {body : Micros → Database → Database.Reply α}
    (h : ∀ now database, ¬ Effect.MakesPending ⟨database, (body now database).2⟩)
    (tx : Transaction) : ∀ effect ∈ (ask body).changes tx, ¬ effect.MakesPending := by
  have hafter : ¬ Effect.MakesPending
      ⟨tx.database, ((Action.onTasks body).run tx).2.database⟩ := by
    rw [Action.run_onTasks]
    split
    · exact Database.not_makesPending_self _
    · split
      · exact Database.not_makesPending_self _
      · have hbody := h tx.now tx.database
        split <;> rename_i heq <;> rwa [heq] at hbody
  rw [ask, changes]
  dsimp only
  cases ((Action.onTasks body).run tx).1 with
  | error e => simpa using hafter
  | ok a => exact List.forall_mem_singleton.mpr hafter

namespace Tells

lemma done (result : Except TaskError α) : Tells channel False (.done result) := by
  intro tx _ after _
  simp [after, changes, run]

lemma pure (a : α) : Tells channel False (Pure.pure a : Routine α) := .done _

lemma answer (result : Except TaskError α) (f : α → β) :
    Tells channel False (.done result >>= fun a => Pure.pure (f a)) := by
  cases result <;> exact done _

/-- A statement that makes a row pending has to be told of. -/
lemma ask {body : Micros → Database → Database.Reply α} {next : α → Routine β}
    (writes : ∀ now (database : Database), database.Writes (body now database).2)
    (h : ∀ now database a after, database.Sound → body now database = (.ok a, after) →
      Tells channel (owed ∨ Effect.MakesPending ⟨database, after⟩) (next a)) :
    Tells channel owed (Routine.ask body >>= next) := by
  intro tx hs after usable
  simp only [after, run_bind, run_ask, Action.run_bind] at usable ⊢
  change _ ↔ _ ∨ _ ∨ ∃ effect ∈ (Routine.statement body next).changes tx, _
  rw [changes]
  rcases Action.run_onTasks_cases body tx with
    ⟨e, after, hrun, haborted⟩ | ⟨a, database, hbody, hrun⟩
  · rw [hrun] at usable
    rw [haborted] at usable
    cases usable
  · rw [hrun] at usable
    rw [hrun]
    have hwrites := writes tx.now tx.database
    rw [hbody] at hwrites
    have hnext := h _ _ _ _ hs hbody { tx with database } (hwrites.sound hs) usable
    simpa [or_assoc] using hnext

/-- A notification pays what is owed. -/
lemma tell {next : Routine β} (h : Tells channel False next) (howed : owed) :
    Tells channel owed (Routine.tell channel >>= fun _ => next) := by
  intro tx hs after usable
  refine iff_of_true ?_ (.inr (.inl howed))
  simp only [after, run_bind, run_tell, Action.run_bind] at usable ⊢
  rcases Action.run_notify_cases channel tx with ⟨e, after, hrun, haborted⟩ | hrun
  · rw [hrun] at usable
    rw [haborted] at usable
    cases usable
  · rw [hrun] at usable ⊢
    have hs' : (tx.publish channel).database.Sound := by rwa [Transaction.publish_eq]
    exact (h _ hs' usable).mpr (.inl (tx.mem_publish channel))

/-- The same debt in other words. -/
lemma congr {routine : Routine α} {owed' : Prop} (h : Tells channel owed routine)
    (howed : owed ↔ owed') : Tells channel owed' routine := by
  rwa [← propext howed]

lemma tellIf {next : Routine β} (h : Tells channel False next) {resumed : Bool}
    (howed : owed ↔ resumed = true) :
    Tells channel owed (Routine.tellIf channel resumed >>= fun _ => next) := by
  cases resumed with
  | true => exact h.tell (howed.mpr rfl)
  | false => exact h.congr (by simpa using howed.symm)

/-- What is undone has to be told to nobody. -/
lemma savepoint {inner : Routine α} (h : Tells channel False inner) (f : α → β) :
    Tells channel False (.savepoint inner fun a => Pure.pure (f a)) := by
  intro tx hs after usable
  simp only [after, run, Action.run_bind, changes, run_pure] at usable ⊢
  rcases Action.run_savepoint_cases inner.run tx with
    ⟨e, after, hrun, hpublished⟩ | ⟨a, after, hinner, hrun⟩
  · rw [hrun]
    simp [hpublished]
  · rw [hrun] at usable
    have hend := h tx hs
    rw [hinner] at hend
    rw [hrun]
    have hnone : (Pure.pure (f a) : Routine β).changes after = [] := rfl
    simpa [hnone] using hend usable

/-! ### The operations -/

variable {next : α → Routine β}

/-- A statement that leaves the database as it is. -/
lemma question {body : Micros → Database → Database.Reply α}
    (hb : ∀ now (database : Database), (body now database).2 = database)
    (h : ∀ a, Tells channel False (next a)) :
    Tells channel False (Routine.ask body >>= next) := by
  refine ask (fun now database => by rw [hb]) fun now database a after _ hbody => ?_
  have hafter : after = database := by simpa [hbody] using hb now database
  rw [hafter]
  exact (h a).congr (by simpa using Database.not_makesPending_self database)

lemma create (taskType : String) (state : Option Json) (parent : Option TaskId) (f : TaskId → β) :
    Tells channel False (f <$> Routine.create channel taskType state parent) := by
  simp only [Routine.create, map_eq_pure_bind, bind_assoc, pure_bind]
  refine ask (fun now database => database.writes_insertTask now _ _ _) ?_
  intro now database id after hs hbody
  exact (pure (f id)).tell (.inr (Database.makesPending_insert hs hbody))

lemma resume (id : TaskId) (state : Option Json) (f : Bool → β) :
    Tells channel False (f <$> Routine.resume channel id state) := by
  simp only [Routine.resume, map_eq_pure_bind, bind_assoc, pure_bind]
  refine ask (fun now database => ?_) fun now database resumed after hs hbody => ?_
  · cases state with
    | none => exact database.writes_updateRow id fun row h => .resumed h
    | some state => exact database.writes_updateRow id fun row h => .resumedWith state h
  · refine (pure (f resumed)).tellIf ?_
    rw [false_or]
    cases state with
    | none =>
        exact Database.makesPending_updateRow_iff (f := Row.resumed now) hs (fun _ => rfl)
          (fun _ => rfl) hbody
    | some state =>
        exact Database.makesPending_updateRow_iff (f := Row.resumedWith now state) hs
          (fun _ => rfl) (fun _ => rfl) hbody

lemma resumeParent (child : TaskId) {next : Option TaskId → Routine β}
    (h : ∀ parent, Tells channel False (next parent)) :
    Tells channel False (Routine.resumeParent channel child >>= next) := by
  simp only [Routine.resumeParent, bind_assoc, pure_bind]
  refine ask (fun now database => database.writes_resumeParent now child) ?_
  intro now database parent after hs hbody
  refine (h parent).tellIf ?_
  rw [false_or]
  exact Database.makesPending_resumeParent_iff hs hbody

/-- Cancellations make nothing pending. -/
lemma cancelEach (root : TaskId) (ids : List TaskId) :
    ∀ {next : Nat × Bool → Routine β}, (∀ cancelled, Tells channel False (next cancelled)) →
      Tells channel False (Routine.cancelEach root ids >>= next) := by
  induction ids with
  | nil => exact fun h => h _
  | cons id rest ih =>
      intro next h
      simp only [Routine.cancelEach, bind_assoc, pure_bind]
      refine ask (fun now database => database.writes_updateRow id fun row h => .cancelled h) ?_
      intro now database done after hs hbody
      obtain ⟨rfl, -⟩ := Database.updateRow_ok hbody
      refine (ih fun cancelled => h _).congr ((or_iff_left ?_).symm)
      exact Database.not_makesPending_change (f := Row.cancelled now) (fun _ => rfl)
        fun _ hpending => by cases hpending

lemma cancelTree (id : TaskId) : Tells channel False (Routine.cancelTree channel id) := by
  refine question (fun _ database => database.tree_database id) fun edges => ?_
  split
  · exact done _
  · refine cancelEach id _ fun cancelled => ?_
    obtain ⟨count, rootDone⟩ := cancelled
    dsimp only
    split
    · exact resumeParent id fun _ => pure _
    · exact pure _

lemma finish (task : TaskId) (worker : WorkerId) (outcome : Outcome) (f : Transition → β) :
    Tells channel False (f <$> Routine.finish channel task worker outcome) := by
  rw [Routine.finish]
  split
  · exact done _
  · rename_i hproper
    simp only [map_eq_pure_bind, bind_assoc]
    refine ask (fun now database => database.writes_updateRow task fun row h =>
      .finished worker outcome h hproper) fun now database held after hs hbody => ?_
    have hmakes := Database.makesPending_finishTask_iff hs hbody
    cases held with
    | false => exact (done _).congr (by simpa using hmakes)
    | true =>
        simp only [true_and] at hmakes
        rw [if_neg (by simp)]
        by_cases hterm : outcome.status.isTerminal = true
        · have hpending : outcome.status ≠ .pending := by
            intro hpending
            rw [hpending] at hterm
            cases hterm
          rw [if_pos hterm]
          simp only [bind_assoc, pure_bind]
          refine (resumeParent task fun _ => pure _).congr ?_
          simpa using mt hmakes.mp hpending
        · rw [if_neg hterm]
          simp only [bind_assoc, pure_bind]
          refine (pure _).tellIf ?_
          rw [false_or, hmakes, beq_iff_eq]

end Tells
end Routine

/-- Every operation but a notification publishes exactly what its statements make pending. -/
theorem Operation.tells (channel : Channel) {operation : Operation} (h : operation ≠ .notify) :
    (operation.routine channel).Tells channel False := by
  cases operation with
  | create taskType state => exact .create taskType state none _
  | createChild parent taskType state => exact .create taskType state (some parent) _
  | resume id => exact .resume id none _
  | resumeWith id state => exact .resume id (some state) _
  | get id =>
      rw [routine, Routine.get, map_eq_pure_bind, bind_assoc]
      refine .question (fun _ database => database.ask_database _) fun row => ?_
      cases row with
      | none => exact .done _
      | some row => exact .answer row.task _
  | children parent | lockChildren parent =>
      rw [routine, Routine.children, map_eq_pure_bind, bind_assoc]
      exact .question (fun _ database => database.ask_database _) fun rows =>
        .answer (rows.mapM Row.task) _
  | cancel id => exact .savepoint (.cancelTree id) _
  | finish task worker outcome => exact .finish task worker outcome _
  | notify => exact absurd rfl h

end LeaseQueue
