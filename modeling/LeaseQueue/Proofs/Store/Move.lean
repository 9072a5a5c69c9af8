/-
What one act makes of the rows of the table: an operation, a claim or a renewal.

* `Act`: such an act;
* `Row.Passes`: the ways from one status to another, each with the acts that lead it;
* `Row.Lawful`, `Row.Created`: what an act may make of a row, and the rows it may add;
* `Table.Moved`: an act moves every row lawfully and takes none away;
* `Database.moved_performed`, `moved_claimed`, `moved_renewed`: every act does so.

A row that stays as it is moves along no way, and every other one along exactly one of them.
-/
import LeaseQueue.Proofs.Store.Effect
import LeaseQueue.Proofs.Store.CancelledTree

namespace LeaseQueue

/-- An act on the table: an operation in a transaction, a claim at a time, or a renewal. -/
inductive Act where
  | operation (operation : Operation)
  | claim (now : Micros) (types : List String) (worker : WorkerId)
  | renew (task : TaskId) (worker : WorkerId)

/-! ### Lawful moves -/

namespace Row

/-- The ways of a row from one status to another by an act, from one table to the next. A
claim leads a pending task to its run, and takes over one whose lease has run out; a renewal
keeps it there. The worker that holds the lease leads it away by the end of the run. A waiting
task becomes pending by a resumption, or because a child of it has come to its end. A
cancellation leads every task of its tree that is not at an end to failure. -/
inductive Passes (before after : Table) (row : Row) : Act → Status → Status → Prop where
  | claimed (now : Micros) (types : List String) (worker : WorkerId) :
      Passes before after row (.claim now types worker) .pending .running
  | reclaimed {now : Micros} (types : List String) (worker : WorkerId)
      (expired : row.leaseExpired now = true) :
      Passes before after row (.claim now types worker) .running .running
  | renewed {worker : WorkerId} (held : row.isHeldBy worker = true) :
      Passes before after row (.renew row.id worker) .running .running
  | finished {worker : WorkerId} {outcome : Outcome} (held : row.isHeldBy worker = true)
      (proper : outcome.status ≠ .running) :
      Passes before after row (.operation (.finish row.id worker outcome)) .running outcome.status
  | resumed : Passes before after row (.operation (.resume row.id)) .waiting .pending
  | resumedWith (state : Json) :
      Passes before after row (.operation (.resumeWith row.id state)) .waiting .pending
  | released {act : Act} {child ended : Row} (hchild : child ∈ before)
      (hparent : child.parent = some row.id) (hlive : child.isLive = true)
      (hended : ended ∈ after) (hid : ended.id = child.id) (hends : ended.isLive = false) :
      Passes before after row act .waiting .pending
  | cancelled {root : TaskId} {old : Status} (hu : before.Under root row.id)
      (hlive : old = .pending ∨ old = .running ∨ old = .waiting) :
      Passes before after row (.operation (.cancel root)) old .failed

/-- What an act may make of a row. The number, the type, the parent and the time of creation
stay. The row stays as it is, or it passes from one status to another. Its state changes only
by the end of a run under the worker that holds the lease, or by the resumption of a waiting
task with another state. -/
structure Lawful (act : Act) (before after : Table) (row next : Row) : Prop where
  same : next.id = row.id ∧ next.taskType = row.taskType ∧ next.parent = row.parent ∧
    next.created = row.created
  passes : next = row ∨ ∃ old new, row.status = .known old ∧ next.status = .known new ∧
    row.Passes before after act old new
  state : next.state = row.state ∨
    (∃ worker outcome, act = .operation (.finish row.id worker outcome) ∧
      row.isHeldBy worker = true) ∨
    ∃ state, act = .operation (.resumeWith row.id state) ∧ row.status = .known .waiting

/-- The rows that an act may add. -/
inductive Created : Act → Row → Prop where
  | create (now : Micros) (id : TaskId) (taskType : String) (state : Option Json) :
      Created (.operation (.create taskType state))
        (.fresh now id taskType (state.getD Json.emptyObject) none)
  | createChild (now : Micros) (id parent : TaskId) (taskType : String) (state : Option Json) :
      Created (.operation (.createChild parent taskType state))
        (.fresh now id taskType (state.getD Json.emptyObject) (some parent))

end Row

/-- An act moves every row lawfully, takes none away, and adds rows behind them. -/
def Table.Moved (act : Act) (before after : Table) : Prop :=
  ∃ (f : Row → Row) (added : List Row), after = before.map f ++ added ∧
    (∀ row ∈ before, row.Lawful act before after (f row)) ∧ ∀ row ∈ added, row.Created act

namespace Row.Lawful

variable {act : Act} {before after : Table} {row next : Row}

lemma stays (row : Row) : row.Lawful act before after row :=
  ⟨⟨rfl, rfl, rfl, rfl⟩, .inl rfl, .inl rfl⟩

/-- A row that is completed or failed stays as it is. -/
lemma frozen (h : row.Lawful act before after next) (hends : row.isLive = false) : next = row := by
  rcases h.passes with hstays | ⟨old, new, hold, -, hpass⟩
  · exact hstays
  · rw [Row.isLive, hold] at hends
    cases hpass with
    | cancelled _ hlive => rcases hlive with rfl | rfl | rfl <;> cases hends
    | _ => cases hends

/-- The resumption of a parent whose child has come to its end. -/
lemma released {child ended : Row} (hw : row.hasStatus .waiting = true) (hchild : child ∈ before)
    (hparent : child.parent = some row.id) (hlive : child.isLive = true) (hended : ended ∈ after)
    (hid : ended.id = child.id) (hends : ended.isLive = false) (now : Micros) :
    row.Lawful act before after (row.resumed now) :=
  ⟨⟨rfl, rfl, rfl, rfl⟩, .inr ⟨.waiting, .pending, hasStatus_iff.mp hw, rfl,
    .released hchild hparent hlive hended hid hends⟩, .inl rfl⟩

end Row.Lawful

/-! ### Acts on the table -/

namespace Table

variable {act : Act} {table : Table}

/-- An act that does nothing. -/
lemma Moved.refl (act : Act) (table : Table) : Moved act table table :=
  ⟨id, [], by simp, fun row _ => .stays row, fun _ h => absurd h List.not_mem_nil⟩

end Table

namespace Database

variable {database : Database} {act : Act}

/-- A change of some rows that is lawful for them. -/
lemma moved_change {pick : Row → Bool} {f : Row → Row}
    (h : ∀ row ∈ database.rows, pick row = true →
      row.Lawful act database.rows (database.change pick f).rows (f row)) :
    Table.Moved act database.rows (database.change pick f).rows := by
  refine ⟨fun row => if pick row then f row else row, [], ?_, fun row hrow => ?_,
    fun _ hnew => absurd hnew List.not_mem_nil⟩
  · rw [rows_change, Table.update, List.append_nil]
  · dsimp only
    by_cases hp : pick row = true
    · rw [if_pos hp]
      exact h row hrow hp
    · rw [if_neg hp]
      exact .stays row

/-- The claim of a row that can be claimed. -/
lemma moved_claimed (hs : database.Sound) {row : Row} (hrow : row ∈ database.rows) {now : Micros}
    {types : List String} (he : row.isEligible now types = true) (worker : WorkerId)
    (deadline : Micros) :
    Table.Moved (.claim now types worker) database.rows
      (database.change (Table.only row.id fun _ => true)
        (Row.claimed now worker deadline)).rows := by
  refine moved_change fun old hold hp => ?_
  have : old = row := hs.eq_of_id hold hrow (Table.only_eq_true.mp hp).1
  subst this
  refine ⟨⟨rfl, rfl, rfl, rfl⟩, .inr ?_, .inl rfl⟩
  simp only [Row.isEligible, Bool.and_eq_true, Bool.or_eq_true] at he
  rcases he.1 with hpending | ⟨hrunning, hexpired⟩
  · exact ⟨.pending, .running, Row.hasStatus_iff.mp hpending, rfl, .claimed now types worker⟩
  · exact ⟨.running, .running, Row.hasStatus_iff.mp hrunning, rfl, .reclaimed types worker hexpired⟩

/-- The renewal of a lease. -/
lemma moved_renewed (database : Database) (task : TaskId) (worker : WorkerId)
    (now deadline : Micros) :
    Table.Moved (.renew task worker) database.rows
      (database.change (Table.only task (Row.isHeldBy worker))
        (Row.renewed now deadline)).rows := by
  refine moved_change fun row _ hp => ?_
  obtain ⟨rfl, held⟩ := Table.only_eq_true.mp hp
  have hrunning := (Row.isHeldBy_iff.mp held).2
  exact ⟨⟨rfl, rfl, rfl, rfl⟩, .inr ⟨.running, .running, hrunning, hrunning, .renewed held⟩,
    .inl rfl⟩

/-! ### Operations -/

/-- The creation of a task. -/
lemma moved_insertTask {now : Micros} {taskType : String} {state : Json}
    {parent : Option TaskId}
    (hcreated : ∀ id, (Row.fresh now id taskType state parent).Created act) :
    Table.Moved act database.rows (database.insertTask now taskType state parent).2.rows := by
  rw [rows_insertTask]
  cases (database.insertTask now taskType state parent).1 with
  | error e => exact .refl act _
  | ok id =>
      refine ⟨fun row => row, _, by rw [List.map_id'], fun row _ => .stays row, fun row hrow => ?_⟩
      rw [List.mem_singleton.mp hrow]
      exact hcreated id

/-- The end of a run. -/
lemma moved_settled (hs : database.Sound) {task : TaskId} {worker : WorkerId}
    (held : database.Holds task worker) (now : Micros) {outcome : Outcome}
    (proper : outcome.status ≠ .running) :
    Table.Moved (.operation (.finish task worker outcome)) database.rows
      (database.settled now task worker outcome).rows := by
  obtain ⟨child, hchild, rfl, hheld⟩ := held
  have hfinished : ∀ (after : Table), ∀ row ∈ database.rows,
      Table.only child.id (Row.isHeldBy worker) row = true →
      row.Lawful (.operation (.finish child.id worker outcome)) database.rows after
        (row.finished now outcome) := by
    intro after row _ hp
    obtain ⟨hid, hrow⟩ := Table.only_eq_true.mp hp
    rw [← hid]
    exact ⟨⟨rfl, rfl, rfl, rfl⟩, .inr ⟨.running, outcome.status, (Row.isHeldBy_iff.mp hrow).2, rfl,
      .finished hrow proper⟩, .inr (.inl ⟨worker, outcome, rfl, hrow⟩)⟩
  rw [settled]
  by_cases hterm : outcome.status.isTerminal = true
  · have hplace : ∀ row : Row, (row.finished now outcome).id = row.id ∧
        (row.finished now outcome).parent = row.parent := fun _ => ⟨rfl, rfl⟩
    have hparent : parentOf (database.outcomeWritten now child.id worker outcome).rows child.id =
        child.parent := by
      rw [outcomeWritten, parentOf_change hplace, hs.parentOf_eq hchild]
    have hends : ∀ row : Row, (row.finished now outcome).isLive = false := fun row =>
      row.finished_ended now hterm
    have hnot : ∀ row : Row, (row.finished now outcome).hasStatus .waiting = false := fun row =>
      Row.not_waiting_of_ended (hends row)
    have hpick : Table.only child.id (Row.isHeldBy worker) child = true :=
      Table.only_eq_true.mpr ⟨rfl, hheld⟩
    rw [if_pos hterm, parentResumed_eq_change, hparent, outcomeWritten, change_change]
    refine moved_change fun row hrow _ => ?_
    dsimp only
    by_cases hp : Table.only child.id (Row.isHeldBy worker) row = true
    · rw [if_pos hp, if_neg (by simp [hnot])]
      exact hfinished _ row hrow hp
    · rw [if_neg hp]
      by_cases hw : (child.parent == some row.id && row.hasStatus .waiting) = true
      · rw [if_pos hw]
        simp only [Bool.and_eq_true, beq_iff_eq] at hw
        have hlive : child.isLive = true := Row.isLive_of_held hheld
        refine .released hw.2 hchild hw.1 hlive (?_ : child.finished now outcome ∈ _) rfl
          (hends child) now
        refine mem_change.mpr (.inr ⟨child, hchild, rfl, ?_⟩)
        rw [if_pos hpick, if_neg (by simp [hnot])]
      · rw [if_neg hw]
        exact .stays row
  · rw [if_neg hterm]
    exact moved_change fun row hrow hp => hfinished _ row hrow hp

/-- The cancellation of a tree. -/
lemma moved_treeCancelled (hs : database.Sound) (known : database.Known) {child : Row}
    (hchild : child ∈ database.rows) (hown : ¬ database.rows.IsOwnParent child.id)
    (now : Micros) :
    Table.Moved (.operation (.cancel child.id)) database.rows
      (database.treeCancelled now child.id).rows := by
  have hin : ∀ id, id ∈ database.treeOrder child.id ↔ database.rows.Under child.id id :=
    fun id => hs.mem_treeOrder hown ⟨child, hchild, rfl⟩
  rw [treeCancelled_eq_change hs hchild hown]
  refine moved_change fun row hrow _ => ?_
  have hended : database.cancelledRow now child.id child ∈
      (database.change (fun _ => true) (database.cancelledRow now child.id)).rows :=
    mem_change.mpr (.inr ⟨child, hchild, rfl, rfl⟩)
  rw [cancelledRow]
  by_cases hu : row.id ∈ database.treeOrder child.id ∧ row.isLive = true
  · rw [if_pos hu]
    obtain ⟨status, hstatus⟩ := known row hrow
    have hlive : status = .pending ∨ status = .running ∨ status = .waiting := by
      have h := hu.2
      rw [Row.isLive, hstatus] at h
      cases status <;> simp [StatusColumn.isLive, Status.isTerminal] at h ⊢
    exact ⟨⟨rfl, rfl, rfl, rfl⟩, .inr ⟨status, .failed, hstatus, rfl,
      .cancelled ((hin row.id).mp hu.1) hlive⟩, .inl rfl⟩
  · rw [if_neg hu]
    by_cases hr : database.rows.ResumedBy child.id row
    · obtain ⟨hw, hlive, hparent⟩ := (resumedBy_iff hs hchild row).mp hr
      have hroot : child.id ∈ database.treeOrder child.id := (hin child.id).mpr (.root hchild rfl)
      rw [if_pos hr]
      refine .released hw hchild hparent hlive hended (cancelledRow_place ..).1 ?_ now
      rw [cancelledRow, if_pos ⟨hroot, hlive⟩]
      rfl
    · rw [if_neg hr]
      exact .stays row

/-- Every operation moves the rows lawfully. -/
theorem moved_performed (hs : database.Sound) (known : database.Known) (now : Micros)
    (operation : Operation) :
    Table.Moved (.operation operation) database.rows (database.performed now operation).rows := by
  cases operation with
  | create taskType state => exact moved_insertTask fun id => .create now id taskType state
  | createChild parent taskType state =>
      exact moved_insertTask fun id => .createChild now id parent taskType state
  | resume id =>
      refine moved_change fun row _ hp => ?_
      obtain ⟨rfl, hw⟩ := Table.only_eq_true.mp hp
      exact ⟨⟨rfl, rfl, rfl, rfl⟩,
        .inr ⟨.waiting, .pending, Row.hasStatus_iff.mp hw, rfl, .resumed⟩, .inl rfl⟩
  | resumeWith id state =>
      refine moved_change fun row _ hp => ?_
      obtain ⟨rfl, hw⟩ := Table.only_eq_true.mp hp
      have hwaiting := Row.hasStatus_iff.mp hw
      exact ⟨⟨rfl, rfl, rfl, rfl⟩, .inr ⟨.waiting, .pending, hwaiting, rfl, .resumedWith state⟩,
        .inr (.inr ⟨state, rfl, hwaiting⟩)⟩
  | cancel id =>
      rw [performed]
      split
      · rename_i htree
        obtain ⟨⟨child, hchild, rfl⟩, hown⟩ := htree
        exact moved_treeCancelled hs known hchild hown now
      · exact .refl _ _
  | finish task worker outcome =>
      rw [performed]
      split
      · rename_i happlies
        exact moved_settled hs happlies.2 now happlies.1
      · exact .refl _ _
  | get | children | lockChildren | notify => exact .refl _ _

end Database
end LeaseQueue
