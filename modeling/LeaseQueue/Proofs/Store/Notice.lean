/-
What makes a task pending is published.

* `Database.NoNewWork`: between two databases no type of task has become pending;
* `Database.noNewWork_performed`: an operation that is silent makes no new work;
* `Transaction.Noticed`: a transaction that has made new work will publish;
* `Call.published`, `Call.noticed`: so does every call of the store.
-/
import LeaseQueue.Proofs.Store.CancelledTree

namespace LeaseQueue

namespace Database

/-! ### New work -/

/-- Every pending task was pending before, or another one of its type was. -/
def NoNewWork (before after : Database) : Prop :=
  ∀ row ∈ after.rows, row.hasStatus .pending = true →
    ∃ old ∈ before.rows, old.hasStatus .pending = true ∧ old.taskType = row.taskType

namespace NoNewWork

variable {a b c : Database}

lemma ofRows (h : b.rows = a.rows) : a.NoNewWork b :=
  fun row hrow hp => ⟨row, h ▸ hrow, hp, rfl⟩

lemma refl (database : Database) : database.NoNewWork database := .ofRows rfl

lemma trans (h : a.NoNewWork b) (h' : b.NoNewWork c) : a.NoNewWork c := by
  intro row hrow hp
  obtain ⟨next, hnext, hp', htype⟩ := h' row hrow hp
  obtain ⟨old, hold, hp'', htype'⟩ := h next hnext hp'
  exact ⟨old, hold, hp'', htype'.trans htype⟩

/-- A change that leaves no row pending but those that were. -/
lemma change {database : Database} {pick : Row → Bool} {f : Row → Row}
    (h : ∀ row ∈ database.rows, pick row = true → (f row).hasStatus .pending = true →
      row.hasStatus .pending = true ∧ row.taskType = (f row).taskType) :
    database.NoNewWork (database.change pick f) := by
  intro row hrow hp
  rcases mem_change.mp hrow with ⟨hold, -⟩ | ⟨old, hold, hpick, rfl⟩
  · exact ⟨row, hold, hp, rfl⟩
  · exact ⟨old, hold, h old hold hpick hp⟩

/-- The renewal of a lease. -/
lemma renewed (database : Database) (task : TaskId) (worker : WorkerId) (now deadline : Micros) :
    database.NoNewWork
      (database.change (Table.only task (Row.isHeldBy worker)) (Row.renewed now deadline)) :=
  .change fun _ _ _ hp => ⟨hp, rfl⟩

lemma renewAll (database : Database) (task : TaskId) (worker : WorkerId)
    (renewals : List Renewal) : database.NoNewWork (database.renewAll task worker renewals) := by
  induction renewals generalizing database with
  | nil => exact .refl database
  | cons renewal rest ih => exact (renewed database task worker _ _).trans (ih _)

end NoNewWork

variable {database : Database}

/-! ### Operations -/

/-- The end of a run that wakes nobody. -/
lemma noNewWork_settled {now : Micros} {task : TaskId} {worker : WorkerId} {outcome : Outcome}
    (hpending : outcome.status ≠ .pending)
    (hparent : database.settledParent? now task worker outcome = none) :
    database.NoNewWork (database.settled now task worker outcome) := by
  have hwritten : database.NoNewWork (database.outcomeWritten now task worker outcome) := by
    refine .change fun row _ _ hp => ?_
    have hs : outcome.status = .pending := by simpa [Row.finished, Row.hasStatus] using hp
    exact absurd hs hpending
  rw [settled]
  split
  · rename_i hterm
    rw [settledParent?, if_pos hterm] at hparent
    rw [parentResumed, hparent]
    exact hwritten
  · exact hwritten

/-- The cancellation of a tree that resumes nobody. -/
lemma noNewWork_treeCancelled (hs : database.Sound) {child : Row} (hchild : child ∈ database.rows)
    (hown : ¬ database.rows.IsOwnParent child.id) {now : Micros}
    (hparent : ¬ (database.cancelledParent? now child.id).isSome = true) :
    database.NoNewWork (database.treeCancelled now child.id) := by
  rw [treeCancelled_eq_change hs hchild hown]
  refine .change fun row hrow _ hp => ?_
  have hnot : ¬ database.rows.ResumedBy child.id row := fun h =>
    hparent ((cancelledParent?_isSome_iff hs hchild hown now).mpr ⟨row, hrow, h⟩)
  rw [cancelledRow] at hp ⊢
  by_cases hin : row.id ∈ database.treeOrder child.id ∧ row.isLive = true
  · rw [if_pos hin] at hp
    cases hp
  · rw [if_neg hin, if_neg hnot] at hp ⊢
    exact ⟨hp, rfl⟩

/-- An operation that is silent makes no new work. -/
theorem noNewWork_performed (hs : database.Sound) {now : Micros} {operation : Operation}
    (silent : ¬ database.Announces now operation) :
    database.NoNewWork (database.performed now operation) := by
  cases operation with
  | create | notify => exact absurd trivial silent
  | createChild parent taskType state =>
      -- an unknown parent is refused
      have hmissing : ¬ database.Admits (some parent) := silent
      refine .ofRows ?_
      rw [performed]
      cases htasks : database.tasks with
      | none => rw [insertTask, htasks]
      | some table => rw [insertTask_eq htasks, if_neg hmissing]; rfl
  | resume id | resumeWith id state =>
      have hnone : ∀ row ∈ database.rows,
          Table.only id (·.hasStatus .waiting) row = true → False :=
        fun row hrow hp => silent ⟨row, hrow, Table.only_eq_true.mp hp⟩
      exact .change fun row hrow hp _ => (hnone row hrow hp).elim
  | cancel id =>
      rw [performed]
      split
      · rename_i htree
        obtain ⟨⟨child, hchild, rfl⟩, hown⟩ := htree
        exact noNewWork_treeCancelled hs hchild hown fun h =>
          silent ⟨⟨⟨child, hchild, rfl⟩, hown⟩, h⟩
      · exact .refl database
  | finish task worker outcome =>
      rw [performed]
      split
      · rename_i happlies
        have hsilent : ¬ (outcome.status = .pending ∨
            (database.settledParent? now task worker outcome).isSome = true) :=
          fun h => silent ⟨happlies, h⟩
        rw [not_or, Option.not_isSome_iff_eq_none] at hsilent
        exact noNewWork_settled hsilent.1 hsilent.2
      · exact .refl database
  | get | children | lockChildren => exact .refl database

end Database

/-! ### Transactions -/

/-- A transaction that has made new work over a database will publish it, if it can go on. -/
def Transaction.Noticed (channel : Channel) (base : Database) (tx : Transaction) : Prop :=
  tx.aborted = false → channel ∈ tx.published ∨ base.NoNewWork tx.database

namespace Transaction.Noticed

variable {channel : Channel} {base : Database} {tx : Transaction}

/-- What is published stays, and new work is published. -/
lemma performed (h : tx.Noticed channel base) (hs : tx.database.Sound) (ha : tx.aborted = false)
    (operation : Operation) : (tx.performed channel operation).Noticed channel base := by
  intro _
  rw [Transaction.performed]
  dsimp only
  by_cases hannounces : tx.database.Announces tx.now operation
  · rw [if_pos hannounces]
    exact .inl (tx.mem_publish channel)
  · rw [if_neg hannounces]
    refine (h ha).imp_right fun hbefore => ?_
    exact hbefore.trans (Database.noNewWork_performed hs hannounces)

/-- Every operation publishes the new work that it makes. -/
theorem operation (h : tx.Noticed channel base) (quiet : tx.Quiet) (operation : Operation) :
    ((operation.action channel).run tx).2.Noticed channel base := by
  intro usable
  have ha := (operation.extends channel tx).usable usable
  rw [operation.run_quiet quiet usable]
  exact h.performed quiet.sound ha operation ha

end Transaction.Noticed

/-! ### Calls -/

/-- What a call publishes. -/
def Call.published (channel : Channel) (store : Store) : Call → List Channel
  | .perform operation => (store.perform channel operation).published
  | .claim types worker lease => (store.claim types worker lease).published
  | .renew task worker lease => (store.renew task worker lease).published
  | .finish task worker outcome => (store.finish channel task worker outcome).published
  | .run handler task earlierRuns beats =>
    (store.runBeating channel handler task earlierRuns beats).published
  | .transaction steps keep =>
    if keep then (store.opened channel steps).commit.published else []
  | .pass _ => []

namespace Store

variable {store : Store} {channel : Channel}

lemma noticed_begin (store : Store) (channel : Channel) :
    store.begin.Noticed channel store.database := fun _ => .inr (.refl _)

variable (quiet : store.begin.Quiet)
include quiet

lemma noticed_perform (operation : Operation) :
    channel ∈ (store.perform channel operation).published ∨
      store.database.NoNewWork (store.perform channel operation).store.database := by
  rw [perform_quiet quiet]
  by_cases hannounces : store.database.Announces store.clock operation
  · rw [if_pos hannounces]
    exact .inl (List.mem_singleton_self channel)
  · exact .inr (Database.noNewWork_performed quiet.sound hannounces)

lemma noticed_finish (task : TaskId) (worker : WorkerId) (outcome : Outcome) :
    channel ∈ (store.finish channel task worker outcome).published ∨
      store.database.NoNewWork (store.finish channel task worker outcome).store.database := by
  have hnoticed : channel ∈ (store.perform channel _).published ∨ _ :=
    noticed_perform quiet (.finish task worker outcome)
  rwa [perform_finish] at hnoticed

/-- The run of a handler. -/
lemma noticed_run (handler : Handler) (task : ClaimedTask) (earlierRuns : Nat)
    (beats : Nat → List Beat) :
    channel ∈ (store.runBeating channel handler task earlierRuns beats).published ∨
      store.database.NoNewWork
        (store.runBeating channel handler task earlierRuns beats).store.database := by
  have sound : store.database.Sound := quiet.sound
  have hview : (store.executed channel handler task earlierRuns beats).run.Follows store ∧
      (store.executed channel handler task earlierRuns beats).run.tx.Noticed channel
        store.database := by
    refine Program.execute_keeps
      (P := fun run => run.Follows store ∧ run.tx.Noticed channel store.database)
      (fun run operation h => ?_) (fun millis => ?_) _ _
      ⟨.start store, noticed_begin store channel⟩
    · exact ⟨h.1.extend (operation.extends channel run.tx),
        h.2.operation (h.1.quiet quiet) operation⟩
    · refine Surroundings.beating_keeps (fun run micros h => ⟨h.1.advance micros, h.2⟩)
        (fun run lease h => ⟨h.1.renew sound task.id task.worker lease, ?_⟩) beats millis
      rcases OpenRun.renew_cases h.1.calm (h.1.outside.sound sound) (h.1.inside.sound sound)
        task.id task.worker lease with hr | ⟨deadline, -, -, -, hr⟩
      · rw [hr]
        exact h.2
      · rw [hr]
        exact fun usable => (h.2 usable).imp_right fun hbefore =>
          hbefore.trans (.renewed _ _ _ _ _)
  rcases store.runBeating_cases channel handler task earlierRuns beats with
    ⟨outcome, hc, hspared⟩ | ⟨-, -, nextId, fault, -, -, hstore⟩
  · have hend := hview.2.performed (hview.1.quiet quiet).sound hc.applies.usable
      (.finish task.id task.worker outcome) hc.applies.usable
    rw [← TaskAction.settle_eq_performed channel ⟨hc.applies.proper, hc.applies.held⟩] at hend
    have opened := store.executed_opened channel handler task earlierRuns beats
    rw [store.runBeating_of_commits channel handler task earlierRuns beats hc hspared]
    refine hend.imp (fun hmem => ?_) fun hnew => ?_
    · by_cases hwakes : TaskAction.Wakes
          (store.executed channel handler task earlierRuns beats).run.tx task.id task.worker outcome
      · rw [if_pos (.inr hwakes)]
        exact List.mem_singleton_self channel
      · rw [TaskAction.settle, if_neg hwakes] at hmem
        rw [if_pos (.inl (List.ne_nil_of_mem hmem))]
        exact List.mem_singleton_self channel
    · rw [TaskAction.settle, opened.now] at hnew
      exact hnew
  · rw [hstore]
    exact .inr (.renewAll _ _ _ _)

/-- An explicit transaction. -/
lemma noticed_transaction (steps : List TransactionStep) (keep : Bool) :
    channel ∈ Call.published channel store (.transaction steps keep) ∨
      store.database.NoNewWork (store.transaction channel steps keep).database := by
  obtain ⟨tx, -, micros, hopened⟩ := store.opened_eq channel steps
  obtain ⟨after, hopen, -, noticed⟩ := Session.through_keeps
    (P := fun tx => tx.Quiet ∧ tx.Noticed channel store.database)
    (fun tx operation h => ⟨h.1.extend (operation.extends channel tx), h.2.operation h.1 operation⟩)
    steps (Session.mk store channel none).begin store.begin rfl rfl
    ⟨quiet, noticed_begin store channel⟩
  have hsame : after = tx := eq_of_opened hopened hopen
  subst hsame
  rw [transaction_eq hopened]
  simp only [Call.published, hopened]
  cases keep with
  | false => exact .inr (.ofRows rfl)
  | true =>
      rw [if_pos rfl, if_pos rfl]
      by_cases hl : after.Lands
      · rw [commit_of_lands (store.advance micros) hl]
        have hpublished : (Session.commit ⟨store.advance micros, channel, some after⟩).published =
            after.published := congrArg Reply.published (commit_of_lands (store.advance micros) hl)
        rw [hpublished]
        exact noticed hl.1
      · obtain ⟨-, fault, -, hstore⟩ := (store.advance micros).commit_of_not_lands hl
        rw [hstore]
        exact .inr (.ofRows rfl)

end Store

/-- Every call publishes the new work that it makes. -/
theorem Call.noticed (call : Call) {channel : Channel} {store : Store}
    (quiet : store.begin.Quiet) :
    channel ∈ call.published channel store ∨
      store.database.NoNewWork (call.next channel store).database := by
  cases call with
  | perform operation => exact Store.noticed_perform quiet operation
  | claim types worker lease =>
      right
      simp only [next]
      rcases store.claim_cases types worker lease with
        ⟨row, deadline, state, -, -, -, hreply⟩ | ⟨-, -, fault, -, hstore⟩
      · rw [hreply]
        exact .change fun _ _ _ hp => by cases hp
      · rw [hstore]
        exact .refl _
  | renew task worker lease =>
      right
      simp only [next]
      rcases store.renew_cases task worker lease with
        ⟨deadline, -, -, hreply⟩ | ⟨-, -, fault, -, hstore⟩
      · rw [hreply]
        exact .renewed _ _ _ _ _
      · rw [hstore]
        exact .refl _
  | finish task worker outcome => exact Store.noticed_finish quiet task worker outcome
  | run handler task earlierRuns beats =>
      exact Store.noticed_run quiet handler task earlierRuns beats
  | transaction steps keep => exact Store.noticed_transaction quiet steps keep
  | pass micros => exact .inr (.refl _)

end LeaseQueue
