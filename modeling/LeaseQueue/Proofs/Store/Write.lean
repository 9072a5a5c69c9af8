/-
What operations write, said once for all of them:

* `Row.isHeldBy_iff`, `Row.finished_ended`: what the status of a row says of it;
* `Row.Change`: what the operations of a transaction do to a row;
* `Database.Write`, `Database.Writes`: a single write, and any number of them;
* `Transaction.Extends`: what an action keeps of its transaction, whether it
  succeeds or fails: the time, and the database and the notifications up to writes
  and one channel;
* `Operation.extends`: every operation on tasks keeps that much;
* `Operation.database_of_single`: a single statement leaves the database as it is.

A write that is undone by a savepoint leaves nothing but the numbers it took, which
is a write of its own (`Write.skip`).
-/
import LeaseQueue.Proofs.Store.Statement
import Mathlib.Logic.Relation

namespace LeaseQueue

/-! ### Changes of a row -/

namespace Row

lemma hasStatus_iff {row : Row} {status : Status} :
    row.hasStatus status = true ↔ row.status = .known status := by
  simp [hasStatus]

lemma isHeldBy_iff {row : Row} {worker : WorkerId} :
    row.isHeldBy worker = true ↔ row.worker = some worker ∧ row.status = .known .running := by
  simp [isHeldBy, hasStatus]

/-- A task that somebody holds is not at its end. -/
lemma isLive_of_held {row : Row} {worker : WorkerId} (h : row.isHeldBy worker = true) :
    row.isLive = true := by
  rw [isLive, (isHeldBy_iff.mp h).2]
  rfl

/-- Nor is a task that waits. -/
lemma isLive_of_waiting {row : Row} (h : row.hasStatus .waiting = true) : row.isLive = true := by
  rw [isLive, hasStatus_iff.mp h]
  rfl

/-- A task at its end does not wait. -/
lemma not_waiting_of_ended {row : Row} (h : row.isLive = false) :
    row.hasStatus .waiting = false := by
  rw [Bool.eq_false_iff] at h ⊢
  exact mt isLive_of_waiting h

/-- An outcome that ends a task leaves it at its end. -/
lemma finished_ended (row : Row) (now : Micros) {outcome : Outcome}
    (h : outcome.status.isTerminal = true) : (row.finished now outcome).isLive = false := by
  simpa [finished, isLive, StatusColumn.isLive] using h

end Row

/-- What the operations of a transaction do to a row at a time, each with the
condition under which it does it. -/
inductive Row.Change (now : Micros) : Row → Row → Prop where
  | resumed {row : Row} (h : row.hasStatus .waiting = true) : Change now row (row.resumed now)
  | resumedWith {row : Row} (state : Json) (h : row.hasStatus .waiting = true) :
      Change now row (row.resumedWith now state)
  | cancelled {row : Row} (h : row.isLive = true) : Change now row (row.cancelled now)
  | finished {row : Row} (worker : WorkerId) (outcome : Outcome)
      (h : row.isHeldBy worker = true) (hs : outcome.status ≠ .running) :
      Change now row (row.finished now outcome)

/-- No operation makes a task run. -/
lemma Row.Change.not_running {now : Micros} {row next : Row} (h : Row.Change now row next) :
    next.hasStatus .running = false := by
  cases h with
  | finished worker outcome _ hs => simp [Row.hasStatus, Row.finished, hs]
  | _ => rfl

/-- A change keeps the number and the parent of a row. -/
lemma Row.Change.same_place {now : Micros} {row next : Row} (h : Row.Change now row next) :
    next.id = row.id ∧ next.parent = row.parent := by
  cases h <;> exact ⟨rfl, rfl⟩

/-- What keeps number and parent of the rows that are picked keeps those of all. -/
lemma Row.same_place_ite {picked : Bool} {f : Row → Row} {row : Row}
    (hf : picked = true → (f row).id = row.id ∧ (f row).parent = row.parent) :
    (if picked then f row else row).id = row.id ∧
      (if picked then f row else row).parent = row.parent := by
  cases picked with
  | true => exact hf rfl
  | false => exact ⟨rfl, rfl⟩

namespace Table

lemma only_eq_true {id : TaskId} {condition : Row → Bool} {row : Row} :
    only id condition row = true ↔ row.id = id ∧ condition row = true := by
  simp [only]

lemma has_iff {table : Table} {id : TaskId} : table.has id = true ↔ ∃ row ∈ table, row.id = id := by
  simp [has, find?]

/-- Behind an insertion there is the new task as well. -/
lemma has_insert {table : Table} {now : Micros} {id other : TaskId} {taskType : String}
    {state : Json} {parent : Option TaskId} :
    Table.has (table ++ [Row.fresh now id taskType state parent]) other = true ↔
      table.has other = true ∨ other = id := by
  rw [eq_comm (a := other)]
  simp only [has_iff, List.mem_append, List.mem_singleton, or_and_right, exists_or,
    exists_eq_left, Row.fresh]

lemma any_only_iff {table : Table} {id : TaskId} {condition : Row → Bool} :
    table.any (only id condition) = true ↔
      ∃ row ∈ table, row.id = id ∧ condition row = true := by
  simp [only_eq_true]

end Table

/-! ### Writes -/

namespace Database

/-- Changes the rows that a condition picks. -/
def change (database : Database) (pick : Row → Bool) (f : Row → Row) : Database :=
  { database with tasks := database.tasks.map (Table.update pick f) }

@[simp] lemma rows_change (database : Database) (pick : Row → Bool) (f : Row → Row) :
    (database.change pick f).rows = database.rows.update pick f := by
  cases h : database.tasks <;> simp [change, rows, h, Table.update]

/-- Behind a change stand the rows that it does not pick, and what it makes of the others. -/
lemma mem_change {database : Database} {pick : Row → Bool} {f : Row → Row} {row : Row} :
    row ∈ (database.change pick f).rows ↔
      (row ∈ database.rows ∧ pick row = false) ∨
        ∃ old ∈ database.rows, pick old = true ∧ f old = row := by
  rw [rows_change]
  exact Table.mem_update

lemma change_congr {database : Database} {pick pick' : Row → Bool} {f f' : Row → Row}
    (h : ∀ row ∈ database.rows,
      (if pick row then f row else row) = if pick' row then f' row else row) :
    database.change pick f = database.change pick' f' := by
  obtain ⟨_ | table, nextId, migrations⟩ := database
  · rfl
  · have hu : Table.update pick f table = Table.update pick' f' table := List.map_congr_left h
    simp only [change, Option.map_some, hu]

lemma change_eq_self {database : Database} {pick : Row → Bool} {f : Row → Row}
    (h : ∀ row ∈ database.rows, pick row = true → f row = row) :
    database.change pick f = database := by
  obtain ⟨_ | table, nextId, migrations⟩ := database
  · rfl
  · have hu : Table.update pick f table = table := by
      refine (List.map_congr_left fun row hrow => ?_).trans (List.map_id table)
      by_cases hp : pick row = true
      · rw [if_pos hp, h row hrow hp, id]
      · rw [if_neg hp, id]
    simp only [change, Option.map_some, hu]

/-- A change of every row. -/
lemma change_all {database : Database} (h : database.tasks.isSome = true) (f : Row → Row) :
    database.change (fun _ => true) f = { database with tasks := some (database.rows.map f) } := by
  obtain ⟨_ | table, nextId, migrations⟩ := database
  · cases h
  · simp only [change, rows, Option.map_some, Option.getD_some, Table.update, if_true]

/-- A change that keeps numbers and parents keeps the parent of every task. -/
lemma parentOf_change {f : Row → Row}
    (hf : ∀ row, (f row).id = row.id ∧ (f row).parent = row.parent)
    (database : Database) (pick : Row → Bool) (task : TaskId) :
    parentOf (database.change pick f).rows task = parentOf database.rows task := by
  have hparent : ∀ row, (if pick row then f row else row).parent = row.parent :=
    fun row => (Row.same_place_ite fun _ => hf row).2
  rw [parentOf, rows_change, Table.find?_update fun row => (hf row).1, parentOf, Option.bind_map]
  exact congrArg _ (funext hparent)

/-- Two changes are one. -/
lemma change_change (database : Database) (pick pick' : Row → Bool) (f f' : Row → Row) :
    (database.change pick f).change pick' f' =
      database.change (fun _ => true) fun row =>
        let next := if pick row then f row else row
        if pick' next then f' next else next := by
  obtain ⟨_ | table, nextId, migrations⟩ := database
  · rfl
  · simp only [change, Option.map_some, Table.update, List.map_map]
    rfl

/-- A new task can have this parent: it is there, or it is the new task itself. -/
def Admits (database : Database) (parent : Option TaskId) : Prop :=
  ∀ p ∈ parent, (∃ row ∈ database.rows, row.id = p) ∨ p = database.nextId

instance (database : Database) (parent : Option TaskId) : Decidable (database.Admits parent) :=
  inferInstanceAs (Decidable (∀ p ∈ parent, _))

lemma admits_none (database : Database) : database.Admits none := fun _ h => by cases h

lemma admits_of_has {database : Database} {parent : TaskId}
    (h : database.rows.has parent = true) : database.Admits (some parent) := by
  rintro p hp
  cases hp
  exact .inl (Table.has_iff.mp h)

/-- The insertion of a task. -/
lemma insertTask_eq {database : Database} {table : Table} (ht : database.tasks = some table)
    (now : Micros) (taskType : String) (state : Json) (parent : Option TaskId) :
    database.insertTask now taskType state parent =
      if database.Admits parent then
        (.ok database.nextId, { database with
          tasks := some (table ++ [Row.fresh now database.nextId taskType state parent])
          nextId := database.nextId + 1 })
      else (.error .foreignKeyViolation, { database with nextId := database.nextId + 1 }) := by
  have hrows : database.rows = table := by simp [rows, ht]
  have hadmits : parent.all
      (Table.has (table ++ [Row.fresh now database.nextId taskType state parent])) = true ↔
      database.Admits parent := by
    rw [Option.all_eq_true, Admits, hrows]
    refine forall_congr' fun p => imp_congr_right fun _ => ?_
    rw [Table.has_insert, Table.has_iff]
  simp only [insertTask, ht]
  exact if_congr hadmits rfl (by rw [← ht])

/-- A write of an operation: a new task with a known parent, numbers that are used up, or
changes of some rows. -/
inductive Write : Database → Database → Prop where
  | insert {database : Database} {table : Table} (now : Micros) (taskType : String)
      (state : Json) (parent : Option TaskId) (ht : database.tasks = some table)
      (hp : database.Admits parent) :
      Write database { database with
        tasks := some (table ++ [Row.fresh now database.nextId taskType state parent])
        nextId := database.nextId + 1 }
  | skip {database : Database} {n : TaskId} (h : database.nextId ≤ n) :
      Write database { database with nextId := n }
  | change {database : Database} {pick : Row → Bool} {f : Row → Row} {now : Micros}
      (h : ∀ row ∈ database.rows, pick row = true → Row.Change now row (f row)) :
      Write database (database.change pick f)

/-- Any number of writes. -/
abbrev Writes : Database → Database → Prop := Relation.ReflTransGen Write

lemma Writes.nextId_le {before after : Database} (h : before.Writes after) :
    before.nextId ≤ after.nextId := by
  induction h with
  | refl => exact le_rfl
  | tail _ step ih =>
      cases step with
      | insert => exact ih.trans (by simp)
      | skip hn => exact ih.trans hn
      | change => exact ih

/-- Undoing writes leaves the numbers they took. -/
lemma Writes.undo {before after : Database} (h : before.Writes after) :
    before.Writes (before.undo after) :=
  .single (.skip h.nextId_le)

lemma writes_insertTask (database : Database) (now : Micros) (taskType : String) (state : Json)
    (parent : Option TaskId) :
    database.Writes (database.insertTask now taskType state parent).2 := by
  cases ht : database.tasks with
  | none =>
      rw [insertTask, ht]
  | some table =>
      rw [insertTask_eq ht]
      split
      · rename_i hp
        exact .single (.insert now taskType state parent ht hp)
      · exact .single (.skip (by simp))

/-- What changing one row leaves of the database. -/
lemma updateRow_database (database : Database) (id : TaskId) (condition : Row → Bool)
    (f : Row → Row) :
    (database.updateRow id condition f).2 = database.change (Table.only id condition) f := by
  obtain ⟨_ | table, nextId, migrations⟩ := database <;> rfl

lemma writes_updateRow (database : Database) (id : TaskId) {condition : Row → Bool}
    {f : Row → Row} {now : Micros} (h : ∀ row, condition row = true → Row.Change now row (f row)) :
    database.Writes (database.updateRow id condition f).2 := by
  rw [updateRow_database]
  exact .single (.change fun row _ hrow => h row (Table.only_eq_true.mp hrow).2)

lemma writes_resumeParent (database : Database) (now : Micros) (child : TaskId) :
    database.Writes (database.resumeParent now child).2 := by
  obtain ⟨_ | table, nextId, migrations⟩ := database
  · exact .refl
  · simp only [resumeParent, onTasks]
    cases parentOf table child with
    | none => exact .refl
    | some parent =>
        have hwrite : Write ⟨some table, nextId, migrations⟩
            (Database.change ⟨some table, nextId, migrations⟩
              (Table.only parent (·.hasStatus .waiting)) (Row.resumed now)) :=
          .change fun row _ hrow => .resumed (Table.only_eq_true.mp hrow).2
        exact .single hwrite

/-- A walk down a tree changes nothing, whether it ends or not. -/
lemma tree_database (database : Database) (root : TaskId) :
    (database.tree root).2 = database := by
  obtain ⟨_ | table, nextId, migrations⟩ := database
  · rfl
  · simp only [tree, onTasks]
    cases walk table table.length (table.filter fun row => row.id == root) <;> rfl

lemma writes_tree (database : Database) (root : TaskId) :
    database.Writes (database.tree root).2 := by
  rw [tree_database]

lemma writes_ask {α : Type} (database : Database) (question : Table → α) :
    database.Writes (database.ask question).2 := by
  rw [ask_database]

end Database

/-! ### What an action keeps -/

namespace Transaction

/-- One transaction comes from another by writes, at the same time, and publishes on
one more channel at most. One that cannot go on stays so. -/
structure Extends (channel : Channel) (before after : Transaction) : Prop where
  now : after.now = before.now
  writes : before.database.Writes after.database
  fault : after.fault = before.fault ∨ after.fault = none
  published : after.published = before.published ∨
    after.published = (before.publish channel).published
  aborted : before.aborted = true → after.aborted = true

lemma publish_published (tx : Transaction) (channel : Channel) :
    (tx.publish channel).published =
      if channel ∈ tx.published then tx.published else tx.published ++ [channel] := by
  rw [publish]
  split <;> rfl

/-- What is asked for will be published. -/
lemma mem_publish (tx : Transaction) (channel : Channel) :
    channel ∈ (tx.publish channel).published := by
  rw [publish_published]
  split
  · assumption
  · exact List.mem_append_right _ (List.mem_singleton_self channel)

/-- A notification changes the notifications only. -/
lemma publish_eq (tx : Transaction) (channel : Channel) :
    tx.publish channel = { tx with published := (tx.publish channel).published } := by
  rw [publish]
  split <;> rfl

namespace Extends

variable {channel : Channel} {a b c : Transaction}

lemma refl (tx : Transaction) : Extends channel tx tx := ⟨rfl, .refl, .inl rfl, .inl rfl, id⟩

lemma trans (h : Extends channel a b) (h' : Extends channel b c) : Extends channel a c where
  now := h'.now.trans h.now
  writes := h.writes.trans h'.writes
  fault := PlannedFault.left_trans h.fault h'.fault
  published := by
    rcases h'.published with hc | hc
    · rw [hc]; exact h.published
    · rw [hc, publish_published]
      rcases h.published with hb | hb
      · exact .inr (by rw [publish_published, hb])
      · refine .inr ?_
        -- the channel is there already
        have hmem : channel ∈ b.published := by
          rw [hb]
          exact mem_publish a channel
        rw [if_pos hmem, hb]
  aborted := fun ha => h'.aborted (h.aborted ha)

/-- A transaction that can go on could always go on. -/
lemma usable (h : Extends channel a b) (hb : b.aborted = false) : a.aborted = false := by
  by_contra ha
  have := h.aborted (by simpa using ha)
  simp [hb] at this

/-- A statement that succeeds writes to the database. -/
lemma ofWrites {tx : Transaction} {database : Database} (h : tx.database.Writes database) :
    Extends channel tx { tx with database } :=
  ⟨rfl, h, .inl rfl, .inl rfl, id⟩

/-- A statement that fails may have used up a number. -/
lemma ofFailure {tx : Transaction} {database : Database} (h : tx.database.Writes database) :
    Extends channel tx { tx with database, aborted := true } :=
  ⟨rfl, h, .inl rfl, .inl rfl, fun _ => rfl⟩

lemma spendFault (tx : Transaction) : Extends channel tx tx.spendFault :=
  ⟨rfl, .refl, .inr rfl, .inl rfl, fun _ => rfl⟩

lemma publish (tx : Transaction) : Extends channel tx (tx.publish channel) := by
  rw [publish_eq]
  exact ⟨rfl, .refl, .inl rfl, .inr rfl, id⟩

lemma restore (h : Extends channel a b) : Extends channel a (a.restore b) where
  now := rfl
  writes := h.writes.undo
  fault := h.fault
  published := .inl rfl
  aborted := id

end Extends
end Transaction

namespace Action

variable {ε α β : Type} {channel : Channel}

/-- The action extends every transaction. -/
def Extending (channel : Channel) (action : Action ε α) : Prop :=
  ∀ tx : Transaction, tx.Extends channel (run action tx).2

namespace Extending

lemma pure (a : α) : Extending channel (Pure.pure a : Action ε α) := fun tx => .refl tx

lemma fail (e : ε) : Extending channel (Action.fail e : Action ε α) := fun tx => .refl tx

lemma ofExcept (result : Except ε α) : Extending channel (Action.ofExcept result) :=
  fun tx => .refl tx

lemma bind {action : Action ε α} {next : α → Action ε β} (h : Extending channel action)
    (hn : ∀ a, Extending channel (next a)) : Extending channel (action >>= next) := by
  intro tx
  have htx := h tx
  rw [run_bind]
  split
  · rename_i a after hrun
    rw [hrun] at htx
    exact htx.trans (hn a after)
  · rename_i e after hrun
    rw [hrun] at htx
    exact htx

lemma map {action : Action ε α} (f : α → β) (h : Extending channel action) :
    Extending channel (f <$> action) := by
  intro tx
  rw [run_map]
  exact h tx

lemma onTasks {body : Micros → Database → Database.Reply α}
    (h : ∀ now (database : Database), database.Writes (body now database).2) :
    Extending channel (Action.onTasks body) := by
  intro tx
  have hbody := h tx.now tx.database
  rw [run_onTasks]
  split
  · exact .refl tx
  · split
    · exact .spendFault tx
    · split <;> rename_i heq <;> rw [heq] at hbody
      · exact .ofWrites hbody
      · exact .ofFailure hbody

lemma notify (channel : Channel) : Extending channel (Action.notify channel) := by
  intro tx
  rw [run_notify]
  split
  · exact .refl tx
  · split
    · exact .spendFault tx
    · exact .publish tx

lemma savepoint {action : Action TaskError α} (h : Extending channel action) :
    Extending channel action.savepoint := by
  intro tx
  have htx := h tx
  simp only [run, Action.savepoint] at htx ⊢
  split
  · exact .refl tx
  · split <;> rename_i heq <;> rw [heq] at htx
    · split
      · exact htx.restore
      · exact htx
    · exact htx.restore

end Extending
end Action

/-! ### Operations -/

namespace TaskAction

open LeaseQueue.Action (Extending)

variable {channel : Channel}

lemma extending_create (taskType : String) (state : Option Json) (parent : Option TaskId) :
    Extending channel (create channel taskType state parent) :=
  .bind (.onTasks fun now database => database.writes_insertTask now _ _ _) fun _ =>
    .bind (.notify channel) fun _ => .pure _

lemma extending_notifyIf (resumed : Bool) : Extending channel (notifyIf channel resumed) := by
  rw [notifyIf]
  split
  · exact .notify channel
  · exact .pure ()

lemma extending_resume (id : TaskId) (state : Option Json) :
    Extending channel (resume channel id state) := by
  refine .bind (.onTasks fun now database => ?_) fun resumed =>
    .bind (extending_notifyIf resumed) fun _ => .pure _
  cases state with
  | none => exact database.writes_updateRow id fun row h => .resumed h
  | some state => exact database.writes_updateRow id fun row h => .resumedWith state h

lemma extending_resumeParent (child : TaskId) :
    Extending channel (resumeParent channel child) :=
  .bind (.onTasks fun now database => database.writes_resumeParent now child) fun _ =>
    .bind (extending_notifyIf _) fun _ => .pure _

lemma extending_get (id : TaskId) : Extending channel (get id) := by
  refine .bind (.onTasks fun _ database => database.writes_ask _) fun row => ?_
  cases row with
  | none => exact .fail _
  | some row => exact .ofExcept _

lemma extending_children (parent : TaskId) : Extending channel (children parent) :=
  .bind (.onTasks fun _ database => database.writes_ask _) fun _ => .ofExcept _

lemma extending_cancelEach (root : TaskId) (ids : List TaskId) :
    Extending channel (cancelEach root ids) := by
  induction ids with
  | nil => exact .pure _
  | cons id rest ih =>
      exact .bind (.onTasks fun now database => database.writes_updateRow id fun row h =>
        .cancelled h) fun _ => .bind ih fun _ => .pure _

lemma extending_cancel (channel : Channel) (id : TaskId) :
    Extending channel (cancel channel id) := by
  refine .savepoint (.bind (.onTasks fun _ database => database.writes_tree id) fun edges => ?_)
  split
  · exact .fail _
  · refine .bind (extending_cancelEach id _) fun done => ?_
    obtain ⟨count, rootDone⟩ := done
    dsimp only
    split
    · exact .bind (extending_resumeParent id) fun _ => .pure _
    · exact .pure _

lemma extending_finish (channel : Channel) (task : TaskId) (worker : WorkerId)
    (outcome : Outcome) : Extending channel (finish channel task worker outcome) := by
  rw [finish]
  split
  · exact .fail _
  · rename_i hs
    refine .bind (.onTasks fun now database => database.writes_updateRow task fun row h =>
      .finished worker outcome h hs) fun held => ?_
    split
    · exact .fail _
    · split
      · exact .bind (extending_resumeParent task) fun _ => .pure _
      · exact .bind (extending_notifyIf _) fun _ => .pure _

end TaskAction

/-- Every operation extends its transaction. -/
theorem Operation.extends (channel : Channel) (operation : Operation) (tx : Transaction) :
    tx.Extends channel ((operation.action channel).run tx).2 := by
  have h : (operation.action channel).Extending channel := by
    cases operation with
    | create taskType state => exact .map _ (TaskAction.extending_create taskType state none)
    | createChild parent taskType state =>
        exact .map _ (TaskAction.extending_create taskType state (some parent))
    | resume id => exact .map _ (TaskAction.extending_resume id none)
    | resumeWith id state => exact .map _ (TaskAction.extending_resume id (some state))
    | get id => exact .map _ (TaskAction.extending_get id)
    | children parent => exact .map _ (TaskAction.extending_children parent)
    | lockChildren parent => exact .map _ (TaskAction.extending_children parent)
    | cancel id => exact .map _ (TaskAction.extending_cancel channel id)
    | finish task worker outcome =>
        exact .map _ (TaskAction.extending_finish channel task worker outcome)
    | notify => exact .map _ (.notify channel)
  exact h tx

/-! ### Single statements -/

/-- A question leaves the database as it is. -/
lemma TaskAction.database_of_ask {α β : Type} (question : Table → α) {next : α → TaskAction β}
    (hn : ∀ a tx, (Action.run (next a) tx).2.database = tx.database) (tx : Transaction) :
    (Action.run ((Action.onTasks fun _ database => database.ask question) >>= next) tx).2.database =
      tx.database := by
  have hask : (Action.run (Action.onTasks fun _ database => database.ask question : TaskAction α)
      tx).2.database = tx.database := by
    have hbody := tx.database.ask_database question
    rw [Action.run_onTasks]
    split
    · rfl
    · split
      · rfl
      · split <;> rename_i heq <;> rw [heq] at hbody <;> exact hbody
  rw [Action.run_bind]
  split <;> rename_i hrun <;> rw [hrun] at hask
  · exact (hn _ _).trans hask
  · exact hask

/-- A single statement is a question or a notification, which leaves the database as it
is. -/
lemma Operation.database_of_single {operation : Operation}
    (h : operation.isTransactional = false) (channel : Channel) (tx : Transaction) :
    ((operation.action channel).run tx).2.database = tx.database := by
  cases operation with
  | get id =>
      simp only [action]
      rw [Action.run_map]
      exact TaskAction.database_of_ask _ (fun row _ => by cases row <;> rfl) tx
  | children parent | lockChildren parent =>
      simp only [action]
      rw [Action.run_map]
      exact TaskAction.database_of_ask _ (fun _ _ => rfl) tx
  | notify =>
      simp only [action]
      rw [Action.run_map, Action.run_notify]
      split
      · rfl
      · split
        · rfl
        · rw [Transaction.publish_eq]
  | _ => cases h

end LeaseQueue
