/-
The final write of a run, in any transaction:

* `Database.waitingParent?`, `Database.parentResumed`: the parent that the end of a
  task resumes, and the database in which it is resumed;
* `Database.settled`, `Database.settledParent?`: the database behind an outcome, and
  the parent that was resumed by it;
* `TaskAction.run_finish`: what the write does where it applies;
* `TaskAction.run_finish_lost`: where the lease is lost it changes nothing;
* `TaskAction.applies_of_finish_ok`: where it succeeds it has applied.
-/
import LeaseQueue.Proofs.Store.Write

namespace LeaseQueue

namespace Database

/-! ### What an outcome leaves -/

/-- The parent of a task, if it is waiting. -/
def waitingParent? (database : Database) (child : TaskId) : Option TaskId :=
  (parentOf database.rows child).filter fun parent =>
    database.rows.any (Table.only parent (·.hasStatus .waiting))

/-- The parent of a task becomes pending if it is waiting. -/
def parentResumed (database : Database) (now : Micros) (child : TaskId) : Database :=
  match database.waitingParent? child with
  | none => database
  | some parent =>
    database.change (Table.only parent (·.hasStatus .waiting)) (Row.resumed now)

/-- A parent is the one that waits when there is such a row. -/
lemma waitingParent?_eq_some_iff {database : Database} {child parent : TaskId} :
    database.waitingParent? child = some parent ↔
      parentOf database.rows child = some parent ∧
        ∃ row ∈ database.rows, row.id = parent ∧ row.hasStatus .waiting = true := by
  rw [waitingParent?, Option.filter_eq_some_iff, Table.any_only_iff]

/-- The resumption of a parent changes the row that is the parent and waits. -/
lemma parentResumed_eq_change (database : Database) (now : Micros) (child : TaskId) :
    database.parentResumed now child =
      database.change
        (fun row => parentOf database.rows child == some row.id && row.hasStatus .waiting)
        (Row.resumed now) := by
  rw [parentResumed]
  split
  · rename_i hnone
    refine (change_eq_self fun row hrow hp => ?_).symm
    simp only [Bool.and_eq_true, beq_iff_eq] at hp
    rw [waitingParent?_eq_some_iff.mpr ⟨hp.1, row, hrow, rfl, hp.2⟩] at hnone
    cases hnone
  · rename_i parent hsome
    have hparent := (waitingParent?_eq_some_iff.mp hsome).1
    refine change_congr fun row _ => ?_
    have hsame : (parent == row.id) = (row.id == parent) := BEq.comm
    rw [hparent, Option.some_beq_some, hsame]
    rfl

/-- The row of a task that runs under a worker gets the outcome of the run. -/
def outcomeWritten (database : Database) (now : Micros) (task : TaskId) (worker : WorkerId)
    (outcome : Outcome) : Database :=
  database.change (Table.only task (Row.isHeldBy worker)) (Row.finished now outcome)

/-- The parent that the outcome of a task resumes. -/
def settledParent? (database : Database) (now : Micros) (task : TaskId) (worker : WorkerId)
    (outcome : Outcome) : Option TaskId :=
  if outcome.status.isTerminal then
    (database.outcomeWritten now task worker outcome).waitingParent? task
  else none

/-- The outcome is written and a waiting parent resumed. -/
def settled (database : Database) (now : Micros) (task : TaskId) (worker : WorkerId)
    (outcome : Outcome) : Database :=
  if outcome.status.isTerminal then
    (database.outcomeWritten now task worker outcome).parentResumed now task
  else database.outcomeWritten now task worker outcome

lemma writes_parentResumed (database : Database) (now : Micros) (child : TaskId) :
    database.Writes (database.parentResumed now child) := by
  rw [parentResumed]
  split
  · exact .refl
  · rename_i parent _
    have hchange : ∀ row ∈ database.rows, Table.only parent (·.hasStatus .waiting) row = true →
        Row.Change now row (row.resumed now) :=
      fun row _ hrow => .resumed (Table.only_eq_true.mp hrow).2
    exact .single (.change hchange)

lemma writes_settled (database : Database) (now : Micros) (task : TaskId) (worker : WorkerId)
    {outcome : Outcome} (hp : outcome.status ≠ .running) :
    database.Writes (database.settled now task worker outcome) := by
  have hwritten : database.Writes (database.outcomeWritten now task worker outcome) := by
    have hchange : ∀ row ∈ database.rows, Table.only task (Row.isHeldBy worker) row = true →
        Row.Change now row (row.finished now outcome) :=
      fun row _ hrow => .finished worker outcome (Table.only_eq_true.mp hrow).2 hp
    exact .single (.change hchange)
  rw [settled]
  split
  · exact hwritten.trans (writes_parentResumed _ now task)
  · exact hwritten

lemma resumeParent_eq {database : Database} {table : Table} (ht : database.tasks = some table)
    (now : Micros) (child : TaskId) :
    database.resumeParent now child =
      (.ok (database.waitingParent? child), database.parentResumed now child) := by
  obtain ⟨tasks, nextId, migrations⟩ := database
  simp only at ht
  subst ht
  simp only [resumeParent, onTasks, parentResumed, waitingParent?, rows, Option.getD_some]
  cases hp : parentOf table child with
  | none => rfl
  | some parent =>
      by_cases hany : table.any (Table.only parent (·.hasStatus .waiting)) = true
      · simp only [hany, if_true, Option.filter_some]
        rfl
      · have hnone : Table.update (Table.only parent (·.hasStatus .waiting)) (Row.resumed now)
            table = table := by
          refine Table.update_eq_self fun row hrow => ?_
          simpa using fun h => hany (List.any_eq_true.mpr ⟨row, hrow, h⟩)
        simp only [hany, hnone, Bool.false_eq_true, if_false, Option.filter_some]

/-- A row that runs under a worker is there, under the number of its task. -/
def Holds (database : Database) (task : TaskId) (worker : WorkerId) : Prop :=
  ∃ row ∈ database.rows, row.id = task ∧ row.isHeldBy worker = true

instance (database : Database) (task : TaskId) (worker : WorkerId) :
    Decidable (database.Holds task worker) :=
  inferInstanceAs (Decidable (∃ row ∈ database.rows, row.id = task ∧ row.isHeldBy worker = true))

lemma Holds.tasks {database : Database} {task : TaskId} {worker : WorkerId}
    (h : database.Holds task worker) : ∃ table, database.tasks = some table := by
  obtain ⟨row, hrow, -⟩ := h
  obtain ⟨_ | table, nextId, migrations⟩ := database
  · cases hrow
  · exact ⟨table, rfl⟩

lemma finishTask_of_holds {database : Database} {task : TaskId} {worker : WorkerId}
    (h : database.Holds task worker) (now : Micros) (outcome : Outcome) :
    database.finishTask now task worker outcome =
      (.ok true, database.outcomeWritten now task worker outcome) := by
  have hany := Table.any_only_iff.mpr h
  obtain ⟨table, ht⟩ := h.tasks
  obtain ⟨tasks, nextId, migrations⟩ := database
  simp only at ht
  subst ht
  simp only [rows, Option.getD_some] at hany
  simp only [finishTask, updateRow, onTasks, hany]
  rfl

lemma finishTask_of_not_holds {database : Database} {table : Table}
    (ht : database.tasks = some table) {task : TaskId} {worker : WorkerId}
    (h : ¬ database.Holds task worker) (now : Micros) (outcome : Outcome) :
    database.finishTask now task worker outcome = (.ok false, database) := by
  have hany := (not_congr Table.any_only_iff).mpr h
  have hsame : database.outcomeWritten now task worker outcome = database :=
    change_eq_self fun row hrow hp => absurd ⟨row, hrow, Table.only_eq_true.mp hp⟩ h
  obtain ⟨tasks, nextId, migrations⟩ := database
  simp only at ht
  subst ht
  simp only [rows, Option.getD_some, Bool.not_eq_true] at hany
  simp only [finishTask, updateRow, onTasks, hany]
  exact congrArg (Prod.mk _) hsame

end Database

/-! ### The write -/

namespace TaskAction

variable {channel : Channel} {tx : Transaction} {task : TaskId} {worker : WorkerId}
  {outcome : Outcome}

/-- The outcome makes something claimable: the task itself, or its parent. -/
def Wakes (tx : Transaction) (task : TaskId) (worker : WorkerId) (outcome : Outcome) : Prop :=
  outcome.status = .pending ∨
    (tx.database.settledParent? tx.now task worker outcome).isSome = true

instance : Decidable (Wakes tx task worker outcome) := inferInstanceAs (Decidable (_ ∨ _))

/-- The conditions of the final write: the outcome is one that a run can have, the
transaction can go on, and the row still runs under the worker. -/
structure Applies (tx : Transaction) (task : TaskId) (worker : WorkerId) (outcome : Outcome) :
    Prop where
  proper : outcome.status ≠ .running
  usable : tx.aborted = false
  held : tx.database.Holds task worker

/-- The database does not fail at the final write. -/
structure Spared (tx : Transaction) (task : TaskId) (worker : WorkerId) (outcome : Outcome) :
    Prop where
  writes : tx.faultAt .tasks = none
  notifies : Wakes tx task worker outcome → tx.faultAt .notify = none

/-- The transaction behind a final write that applies. -/
def settle (channel : Channel) (tx : Transaction) (task : TaskId) (worker : WorkerId)
    (outcome : Outcome) : Transaction :=
  { tx with
    database := tx.database.settled tx.now task worker outcome
    published := if Wakes tx task worker outcome then (tx.publish channel).published
      else tx.published }

lemma faultAt_database (tx : Transaction) (database : Database) (point : FaultPoint) :
    Transaction.faultAt { tx with database } point = tx.faultAt point := rfl

lemma run_notifyIf (channel : Channel) (resumed : Bool) (tx : Transaction)
    (ha : tx.aborted = false) :
    Action.run (notifyIf channel resumed) tx =
      if resumed then
        match tx.faultAt .notify with
        | some state => (.error (.refused state), tx.spendFault)
        | none => (.ok (), tx.publish channel)
      else (.ok (), tx) := by
  cases resumed with
  | false => rfl
  | true =>
      have hnotify := Action.run_notify channel tx
      rw [ha, if_neg (by simp)] at hnotify
      exact hnotify

/-- A statement with a notification about it, where the database does not fail. -/
lemma run_announced {α : Type} {body : Micros → Database → Database.Reply α} {a : α}
    {database : Database} (channel : Channel) (ha : tx.aborted = false)
    (hw : tx.faultAt .tasks = none) (hn : tx.faultAt .notify = none)
    (hbody : body tx.now tx.database = (.ok a, database)) (told : α → Bool) :
    Action.run (do
        let a ← Action.onTasks body
        notifyIf channel (told a)
        pure a) tx =
      (.ok a,
        { tx with
          database
          published := if told a then (tx.publish channel).published else tx.published }) := by
  have hnotify := run_notifyIf channel (told a) { tx with database } ha
  rw [faultAt_database, hn] at hnotify
  rw [Action.run_bind, Action.run_onTasks_ok ha hw hbody]
  dsimp only
  rw [Action.run_bind, hnotify, Transaction.publish_eq]
  by_cases ht : told a = true
  · rw [if_pos ht, if_pos ht]
    simp only [Transaction.publish_published]
    rfl
  · rw [if_neg ht, if_neg ht]
    rfl

/-- The resumption of a parent. -/
lemma run_resumeParent (channel : Channel) (tx : Transaction) (child : TaskId) {table : Table}
    (ha : tx.aborted = false) (hf : tx.faultAt .tasks = none)
    (ht : tx.database.tasks = some table) :
    Action.run (resumeParent channel child) tx =
      if (tx.database.waitingParent? child).isSome then
        match tx.faultAt .notify with
        | some state =>
          (.error (.refused state),
            { tx with database := tx.database.parentResumed tx.now child }.spendFault)
        | none =>
          (.ok (tx.database.waitingParent? child),
            { tx with database := tx.database.parentResumed tx.now child }.publish channel)
      else
        (.ok (tx.database.waitingParent? child),
          { tx with database := tx.database.parentResumed tx.now child }) := by
  have hwrite : Action.run (Action.onTasks fun now database => database.resumeParent now child) tx =
      (.ok (tx.database.waitingParent? child),
        { tx with database := tx.database.parentResumed tx.now child }) :=
    Action.run_onTasks_ok ha hf (Database.resumeParent_eq ht tx.now child)
  have hnotify := run_notifyIf channel (tx.database.waitingParent? child).isSome
    { tx with database := tx.database.parentResumed tx.now child } ha
  rw [resumeParent]
  rw [Action.run_bind, hwrite]
  dsimp only
  rw [Action.run_bind, hnotify, faultAt_database]
  by_cases hp : (tx.database.waitingParent? child).isSome = true
  · rw [if_pos hp, if_pos hp]
    cases tx.faultAt .notify <;> rfl
  · rw [if_neg hp, if_neg hp]
    rfl

/-- Where the final write applies, the outcome is written, a waiting parent resumed,
and a notification published if that made something claimable. -/
theorem run_finish (h : Applies tx task worker outcome) (hf : tx.faultAt .tasks = none) :
    Action.run (finish channel task worker outcome) tx =
      if Wakes tx task worker outcome then
        match tx.faultAt .notify with
        | some state =>
          (.error (.refused state),
            { tx with database := tx.database.settled tx.now task worker outcome }.spendFault)
        | none =>
          (.ok ⟨task, outcome.status, tx.database.settledParent? tx.now task worker outcome⟩,
            { tx with
              database := tx.database.settled tx.now task worker outcome }.publish channel)
      else
        (.ok ⟨task, outcome.status, tx.database.settledParent? tx.now task worker outcome⟩,
          { tx with database := tx.database.settled tx.now task worker outcome }) := by
  obtain ⟨table, ht⟩ := h.held.tasks
  have hwrite : Action.run (Action.onTasks fun now database =>
        database.finishTask now task worker outcome) tx =
      (.ok true,
        { tx with database := tx.database.outcomeWritten tx.now task worker outcome }) :=
    Action.run_onTasks_ok h.usable hf (Database.finishTask_of_holds h.held tx.now outcome)
  rw [finish]
  rw [if_neg h.proper, Action.run_bind, hwrite]
  dsimp only
  rw [if_neg (by simp)]
  by_cases hterm : outcome.status.isTerminal = true
  · have hpending : outcome.status ≠ .pending := by
      intro hp
      simp [hp, Status.isTerminal] at hterm
    have hwritten : (tx.database.outcomeWritten tx.now task worker outcome).tasks =
        some (Table.update (Table.only task (Row.isHeldBy worker))
          (Row.finished tx.now outcome) table) := by
      simp [Database.outcomeWritten, Database.change, ht]
    have hresume := run_resumeParent channel
      { tx with database := tx.database.outcomeWritten tx.now task worker outcome } task h.usable hf
      hwritten
    rw [if_pos hterm, Action.run_bind, hresume, faultAt_database]
    simp only [hterm, if_true, Wakes, hpending, false_or, Database.settled, Database.settledParent?]
    by_cases hp : ((tx.database.outcomeWritten tx.now task worker outcome).waitingParent?
        task).isSome = true
    · rw [if_pos hp, if_pos hp]
      cases tx.faultAt .notify <;> rfl
    · rw [if_neg hp, if_neg hp]
      rfl
  · have hnotify := run_notifyIf channel (outcome.status == .pending)
      { tx with database := tx.database.outcomeWritten tx.now task worker outcome } h.usable
    rw [if_neg hterm, Action.run_bind, hnotify, faultAt_database]
    simp only [hterm, Bool.false_eq_true, if_false, Wakes, Database.settled,
      Database.settledParent?, Option.isSome_none, or_false]
    by_cases hp : outcome.status = .pending
    · rw [if_pos (by simp [hp]), if_pos hp]
      cases tx.faultAt .notify <;> rfl
    · rw [if_neg (by simp [hp]), if_neg hp]
      rfl

/-- The same where the database does not fail. -/
theorem run_finish_spared (h : Applies tx task worker outcome)
    (hs : Spared tx task worker outcome) :
    Action.run (finish channel task worker outcome) tx =
      (.ok ⟨task, outcome.status, tx.database.settledParent? tx.now task worker outcome⟩,
        settle channel tx task worker outcome) := by
  rw [run_finish h hs.writes, settle]
  by_cases hw : Wakes tx task worker outcome
  · rw [if_pos hw, if_pos hw, hs.notifies hw]
    dsimp only
    rw [Transaction.publish_eq, Transaction.publish_published, Transaction.publish_published]
  · rw [if_neg hw, if_neg hw]

/-- Where the row no longer runs under the worker, the lease is lost and nothing is
changed. -/
theorem run_finish_lost {table : Table} (hp : outcome.status ≠ .running)
    (ha : tx.aborted = false) (hf : tx.faultAt .tasks = none)
    (ht : tx.database.tasks = some table) (hh : ¬ tx.database.Holds task worker) :
    Action.run (finish channel task worker outcome) tx = (.error (.leaseLost task worker), tx) := by
  have hwrite : Action.run (Action.onTasks fun now database =>
        database.finishTask now task worker outcome) tx = (.ok false, tx) :=
    Action.run_onTasks_ok ha hf (Database.finishTask_of_not_holds ht hh tx.now outcome)
  rw [finish]
  rw [if_neg hp, Action.run_bind, hwrite]
  rfl

/-- An outcome that is no outcome of a run is refused before anything is written. -/
lemma run_finish_improper (hp : outcome.status = .running) :
    Action.run (finish channel task worker outcome) tx =
      (.error (.invalidOutcome outcome.status), tx) := by
  rw [finish]
  rw [if_pos hp]
  rfl

/-- A final write that succeeds was one that applies, and the database did not fail. -/
theorem applies_of_finish_ok {transition : Transition} {after : Transaction}
    (h : Action.run (finish channel task worker outcome) tx = (.ok transition, after)) :
    Applies tx task worker outcome ∧ Spared tx task worker outcome := by
  have hproper : outcome.status ≠ .running := by
    intro hp
    rw [run_finish_improper hp] at h
    cases h
  -- the answer of the first statement
  have hwrite : ∃ held written, Action.run (Action.onTasks fun now database =>
      database.finishTask now task worker outcome) tx = (.ok held, written) := by
    rw [finish] at h
    rw [if_neg hproper, Action.run_bind] at h
    split at h
    · exact ⟨_, _, ‹_›⟩
    · cases h
  obtain ⟨held, written, hwrite⟩ := hwrite
  obtain ⟨husable, hwrites, hanswer⟩ := Action.of_run_onTasks_ok hwrite
  have htasks : ∃ table, tx.database.tasks = some table := by
    obtain ⟨now, ⟨_ | table, nextId, migrations⟩, published, aborted, fault⟩ := tx
    · cases hanswer
    · exact ⟨table, rfl⟩
  obtain ⟨table, ht⟩ := htasks
  have hheld : tx.database.Holds task worker := by
    by_contra hh
    rw [run_finish_lost hproper husable hwrites ht hh] at h
    cases h
  have happlies : Applies tx task worker outcome := ⟨hproper, husable, hheld⟩
  refine ⟨happlies, hwrites, fun hw => ?_⟩
  rw [run_finish happlies hwrites, if_pos hw] at h
  cases hf : tx.faultAt .notify with
  | none => rfl
  | some state => rw [hf] at h; cases h

end TaskAction
end LeaseQueue
