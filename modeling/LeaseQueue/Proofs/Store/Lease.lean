/-
Leases over whole runs, and the history that tells them.

* `LeaseStep`, `LeaseSteps`: steps of the database with the events that tell them;
* `Database.Told`: the history tells the worker and the deadline of every task that runs,
  and no task has ended more often than it was claimed; a claim for each end pays;
* `LeaseSteps.told`: all steps keep that;
* `Call.leaseSteps`: every call makes such steps;
* `Store.play_told`: the history of every run from the empty store tells its leases.
-/
import LeaseQueue.Proofs.Store.Running

namespace LeaseQueue

/-! ### Steps with their events -/

/-- A step of the database with the events that tell it: the claim of a row that can be
claimed, the renewal of a lease that is held, or the work of a transaction. -/
inductive LeaseStep : Database → List LeaseEvent → Database → Prop where
  | claim {database : Database} {row : Row} {now : Micros} {types : List String}
      (worker : WorkerId) (deadline : Micros) (hrow : row ∈ database.rows)
      (he : row.isEligible now types = true) :
      LeaseStep database [.claimed row.id worker deadline]
        (database.change (Table.only row.id fun _ => true) (Row.claimed now worker deadline))
  | renew {database : Database} {task : TaskId} {worker : WorkerId} (now deadline : Micros)
      (h : database.Holds task worker) :
      LeaseStep database [.renewed task deadline]
        (database.change (Table.only task (Row.isHeldBy worker)) (Row.renewed now deadline))
  | settle {before after : Database} {events : List LeaseEvent}
      (h : before.Settles events after) : LeaseStep before events after

/-- Any number of steps with their events. -/
inductive LeaseSteps : Database → List LeaseEvent → Database → Prop where
  | refl (database : Database) : LeaseSteps database [] database
  | tail {a b c : Database} {first rest : List LeaseEvent} (h : LeaseSteps a first b)
      (step : LeaseStep b rest c) : LeaseSteps a (first ++ rest) c

namespace LeaseSteps

lemma single {a b : Database} {events : List LeaseEvent} (step : LeaseStep a events b) :
    LeaseSteps a events b :=
  (refl a).tail step

lemma trans {a b c : Database} {first rest : List LeaseEvent} (h : LeaseSteps a first b)
    (h' : LeaseSteps b rest c) : LeaseSteps a (first ++ rest) c := by
  induction h' with
  | refl => simpa using h
  | tail _ step ih => simpa only [List.append_assoc] using ih.tail step

/-- Renewals of a lease that is held. -/
lemma renewAll {database : Database} {task : TaskId} {worker : WorkerId}
    (renewals : List Renewal) (h : renewals ≠ [] → database.Holds task worker) :
    LeaseSteps database (renewals.map fun renewal => .renewed task renewal.deadline)
      (database.renewAll task worker renewals) := by
  induction renewals generalizing database with
  | nil => exact .refl database
  | cons renewal rest ih =>
      have held := h (List.cons_ne_nil _ _)
      exact (single (.renew renewal.time renewal.deadline held)).trans
        (ih fun _ => Database.holds_renewed.mpr held)

end LeaseSteps

/-! ### What the history tells -/

/-- The history tells the leases: of every task that runs the worker and the deadline,
and for every end of a run a claim that pays for it. -/
structure Database.Told (database : Database) (history : List LeaseEvent) : Prop where
  sound : database.Sound
  lease : ∀ row ∈ database.rows, row.hasStatus .running = true →
    row.worker = lastHolder? history row.id ∧ row.leaseExpires = lastDeadline? history row.id
  paid : ∀ task, ends history task + database.running task ≤ claims history task

namespace Database.Told

variable {database : Database} {history : List LeaseEvent}

/-- A claim makes its task run, which pays for one end of a run. -/
lemma claim (h : database.Told history) {row : Row} {now : Micros} {types : List String}
    (worker : WorkerId) (deadline : Micros) (hrow : row ∈ database.rows)
    (he : row.isEligible now types = true) :
    (database.change (Table.only row.id fun _ => true)
      (Row.claimed now worker deadline)).Told (history ++ [.claimed row.id worker deadline]) := by
  have sound := h.sound.step (.claim worker deadline hrow he)
  refine ⟨sound, fun next hnext hrun => ?_, fun task => ?_⟩
  · rw [lastHolder?_append, lastDeadline?_append, lastHolder?_claimed, lastDeadline?_claimed]
    rcases mem_change.mp hnext with ⟨hold, hp⟩ | ⟨old, hold, hp, rfl⟩
    · have hid : row.id ≠ next.id := by
        intro hid
        simp [Table.only, hid] at hp
      rw [if_neg hid, if_neg hid]
      exact h.lease next hold hrun
    · have hid : row.id = (old.claimed now worker deadline).id :=
        (Table.only_eq_true.mp hp).1.symm
      rw [if_pos hid, if_pos hid]
      exact ⟨rfl, rfl⟩
  · have hpaid := h.paid task
    rw [ends_append, claims_append, ends_claimed, claims_claimed]
    by_cases hid : row.id = task
    · have hone := running_le_one sound task
      rw [if_pos hid]
      omega
    · have hle : (database.change (Table.only row.id fun _ => true)
          (Row.claimed now worker deadline)).running task ≤ database.running task := by
        refine database.running_change_le task fun old _ hp hrun => ?_
        exact absurd ((Table.only_eq_true.mp hp).1.symm.trans (Table.only_eq_true.mp hrun).1) hid
      rw [if_neg hid]
      omega

/-- A renewal writes the deadline of the task that the worker holds. -/
lemma renew (h : database.Told history) {task : TaskId} {worker : WorkerId}
    (now deadline : Micros) (held : database.Holds task worker) :
    (database.change (Table.only task (Row.isHeldBy worker)) (Row.renewed now deadline)).Told
      (history ++ [.renewed task deadline]) := by
  refine ⟨h.sound.step (.renew task worker now deadline), fun next hnext hrun => ?_,
    fun other => ?_⟩
  · rw [lastHolder?_append, lastDeadline?_append, lastHolder?_renewed, lastDeadline?_renewed]
    rcases mem_change.mp hnext with ⟨hold, hp⟩ | ⟨old, hold, hp, rfl⟩
    · have hid : task ≠ next.id := by
        intro hid
        -- the row of the task is the one that the worker holds
        obtain ⟨row, hrow, hrid, hheld⟩ := held
        have : next = row := h.sound.eq_of_id hold hrow (hid.symm.trans hrid.symm)
        subst this
        simp [Table.only, hrid, hheld] at hp
      rw [if_neg hid]
      exact h.lease next hold hrun
    · have hid : task = (old.renewed now deadline).id := (Table.only_eq_true.mp hp).1.symm
      rw [if_pos hid]
      exact ⟨(h.lease old hold hrun).1, rfl⟩
  · rw [ends_append, claims_append, ends_renewed, claims_renewed, running_renewed]
    exact h.paid other

/-- The work of a transaction ends runs that were paid for. -/
lemma settle (h : database.Told history) {after : Database} {events : List LeaseEvent}
    (hs : database.Settles events after) : after.Told (history ++ events) := by
  refine ⟨hs.sound h.sound, fun row hrow hrun => ?_, fun task => ?_⟩
  · rw [lastHolder?_append, lastDeadline?_append, lastHolder?_of_ended _ hs.told,
      lastDeadline?_of_ended _ hs.told]
    exact h.lease row (hs.kept row hrow hrun) hrun
  · have hpaid := h.paid task
    have hsettled := hs.paid task
    rw [ends_append, claims_append, claims_of_ended _ hs.told]
    omega

lemma step (h : database.Told history) {after : Database} {events : List LeaseEvent}
    (hs : LeaseStep database events after) : after.Told (history ++ events) := by
  cases hs with
  | claim worker deadline hrow he => exact h.claim worker deadline hrow he
  | renew now deadline held => exact h.renew now deadline held
  | settle hs => exact h.settle hs

end Database.Told

/-- All steps are told. -/
theorem LeaseSteps.told {before after : Database} {events history : List LeaseEvent}
    (h : LeaseSteps before events after) (ht : before.Told history) :
    after.Told (history ++ events) := by
  induction h with
  | refl => simpa using ht
  | tail _ step ih => simpa only [List.append_assoc] using ih.step step

/-! ### Calls -/

namespace Store

variable {store : Store} {channel : Channel}

/-- A commit settles what its transaction has settled, if the transaction can go on. -/
lemma settles_commit (calm : store.fault = none) {tx : Transaction} {events : List LeaseEvent}
    (he : store.begin.Extends channel tx) (hs : store.database.Settles events tx.database)
    (usable : events ≠ [] → tx.aborted = false) :
    store.database.Settles events (store.commit tx).store.database := by
  by_cases hl : tx.Lands
  · rw [store.commit_of_lands hl]
    exact hs
  · have hfault : tx.fault = none := PlannedFault.left_none he.fault calm
    have hevents : events = [] := by
      by_contra hne
      exact hl ⟨usable hne, by simp [Transaction.faultAt, hfault]⟩
    obtain ⟨-, fault, -, hstore⟩ := store.commit_of_not_lands hl
    rw [hstore, hevents]
    exact .ofWrites he.writes.undo

/-- So does an action in a transaction of its own. -/
lemma settles_transact {α : Type} (calm : store.fault = none) {action : TaskAction α}
    {told : Except TaskError α → List LeaseEvent} (silent : ∀ e, told (.error e) = [])
    (he : store.begin.Extends channel (action.run store.begin).2)
    (hs : store.database.Settles (told (action.run store.begin).1)
      (action.run store.begin).2.database)
    (usable : told (action.run store.begin).1 ≠ [] → (action.run store.begin).2.aborted = false) :
    store.database.Settles (told (store.transact .refused action).answer)
      (store.transact .refused action).store.database := by
  rw [transact]
  split <;> rename_i hrun <;> rw [hrun] at he hs usable
  · rw [silent]
    exact .ofWrites he.writes.undo
  · rename_i a tx
    dsimp only
    cases (store.commit tx).answer with
    | error state =>
        have hnone : told ((Except.error state : Except SqlState Unit).mapError .refused |>.map
            fun _ => a) = [] := silent _
        rw [hnone]
        exact settles_commit calm he (.ofWrites he.writes) fun h => absurd rfl h
    | ok => exact settles_commit calm he hs usable

/-- An operation settles the ends of runs that its answer tells. -/
lemma settles_perform (calm : store.fault = none) (operation : Operation) :
    store.database.Settles (LeaseEvent.ofAnswer (store.perform channel operation).answer)
      (store.perform channel operation).store.database := by
  have he := operation.extends channel store.begin
  have hs := operation.settles channel store.begin
  rw [perform]
  split
  · exact settles_transact calm (fun _ => rfl) he hs Operation.usable_of_told
  · rw [autocommit]
    split <;> rename_i hrun <;> rw [hrun] at he hs
    · exact .ofWrites he.writes.undo
    · exact hs

/-- So does the end of a run in a transaction of its own. -/
lemma settles_finish (calm : store.fault = none) (task : TaskId) (worker : WorkerId)
    (outcome : Outcome) :
    store.database.Settles (LeaseEvent.ofEnd (store.finish channel task worker outcome).answer)
      (store.finish channel task worker outcome).store.database := by
  have he := TaskAction.extending_finish channel task worker outcome store.begin
  cases hrun : Action.run (TaskAction.finish channel task worker outcome) store.begin with
  | mk result after =>
      refine settles_transact calm (fun _ => rfl) he ?_ ?_ <;> rw [hrun] at he ⊢
      · cases result with
        | error e => exact .ofWrites he.writes
        | ok transition => exact (TaskAction.settles_finish hrun).2.2
      · cases result with
        | error e => exact fun h => absurd rfl h
        | ok transition => exact fun _ => (TaskAction.settles_finish hrun).2.1

/-- So does an explicit transaction, if it is kept. -/
lemma settles_transaction (steps : List TransactionStep) (keep : Bool) :
    store.database.Settles (Call.events channel store (.transaction steps keep))
      (store.transaction channel steps keep).database := by
  obtain ⟨tx, he, micros, hopened⟩ := store.opened_eq channel steps
  obtain ⟨after, hopen, hs⟩ :=
    Session.settles_through steps (Session.mk store channel none).begin store.begin rfl
  have hafter : after = tx := eq_of_opened hopened hopen
  subst hafter
  rw [transaction_eq hopened]
  simp only [Call.events, lands, hopened]
  cases keep with
  | false => exact .ofWrites he.writes.undo
  | true =>
      by_cases hl : after.Lands
      · rw [if_pos rfl, commit_of_lands _ hl, if_pos (by simpa using hl)]
        exact hs
      · obtain ⟨-, fault, -, hstore⟩ := (store.advance micros).commit_of_not_lands hl
        rw [if_pos rfl, hstore, if_neg (by simpa using hl)]
        exact .ofWrites he.writes.undo

end Store

/-- Every call makes steps that its events tell. -/
theorem Call.leaseSteps (call : Call) (channel : Channel) {store : Store}
    (calm : store.fault = none) (hs : store.database.Sound) :
    LeaseSteps store.database (call.events channel store) (call.next channel store).database := by
  cases call with
  | perform operation => exact .single (.settle (Store.settles_perform calm operation))
  | claim types worker lease =>
      simp only [next, events]
      rcases store.claim_cases types worker lease with
        ⟨row, deadline, state, ho, hd, -, hreply⟩ | ⟨hanswer, -, fault, -, hstore⟩
      · obtain ⟨hrow, he⟩ := List.mem_filter.mp (Table.oldest?_mem ho)
        rw [hreply, hd]
        exact .single (.claim worker deadline hrow he)
      · rw [hstore]
        split
        · exact absurd ‹_› (hanswer _)
        · exact .refl _
  | renew task worker lease =>
      have beside := Store.beside_renew calm task worker lease
      simp only [next, events]
      rw [beside.database]
      exact .renewAll _ beside.held
  | finish task worker outcome =>
      exact .single (.settle (Store.settles_finish calm task worker outcome))
  | run handler task earlierRuns beats =>
      have beside := store.executed_beside channel handler task earlierRuns beats
      exact (LeaseSteps.renewAll _ beside.held).trans
        (.single (.settle (store.settles_run hs channel handler task earlierRuns beats)))
  | transaction steps keep => exact .single (.settle (Store.settles_transaction steps keep))
  | pass micros => exact .refl _

/-! ### Whole runs -/

namespace Store

/-- The history of a run from the empty store tells its leases. -/
theorem play_told (clock : Micros) (channel : Channel) (calls : List Call) :
    ((initial clock).play channel calls).database.Told
      ((initial clock).history channel calls) := by
  induction calls using List.reverseRecOn with
  | nil =>
      refine ⟨initial_sound clock, ?_, fun task => ?_⟩
      · simp [initial_rows]
      · simp [Database.running, initial_rows, history, ends]
  | append_singleton calls call ih =>
      rw [play_concat, history_concat]
      exact (call.leaseSteps channel (play_calm clock channel calls) ih.sound).told ih

end Store
end LeaseQueue
