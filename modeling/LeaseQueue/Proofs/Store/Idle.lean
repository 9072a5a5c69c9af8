/-
A call that reports no effect has none.

* `Call.ReportsNothing`: an error, or an answer by which nothing was done;
* `Routine.run_calm`: a routine that answers has met no failure on its way;
* `Store.Unaffected`: nothing is published, and only numbers may have been used up;
* `Action.savepoint_restores`: what fails within a savepoint is undone;
* `Store.unaffected_transact`, `Store.unaffected_autocommit`: transactions and single statements;
* `Store.idle_unaffected`: all calls, and a cancellation within an explicit transaction.

The failure of a statement can be planned at any point, so an operation can end in an error behind
any of its statements. What it had written until then is undone with its transaction.
-/
import LeaseQueue.Proofs.Store.Publication

namespace LeaseQueue

/-! ### Planned failures on the way -/

/-- The transaction without the failure that is still to come. -/
def Transaction.calm (tx : Transaction) : Transaction := { tx with fault := none }

lemma Transaction.calm_publish (tx : Transaction) (channel : Channel) :
    (tx.publish channel).calm = tx.calm.publish channel :=
  apply_ite calm (channel ∈ tx.published) tx { tx with published := tx.published ++ [channel] }

/-- A routine that answers has met no failure, and would do the same if none were planned. -/
theorem Routine.run_calm {α : Type} (routine : Routine α) :
    ∀ (tx after : Transaction) (a : α), routine.run.run tx = (.ok a, after) →
      routine.run.run tx.calm = (.ok a, after.calm) := by
  induction routine with
  | done result =>
      intro tx after a h
      cases h
      rfl
  | statement body next ih =>
      intro tx after a h
      rw [run, Action.run_bind] at h ⊢
      rcases Action.run_onTasks_cases body tx with
        ⟨e, failed, hrun, -⟩ | ⟨b, database, hbody, hrun⟩
      · rw [hrun] at h
        cases h
      · rw [hrun] at h
        have hcalm : Action.run (Action.onTasks body) tx.calm =
            (.ok b, { tx.calm with database }) :=
          Action.run_onTasks_ok (Action.of_run_onTasks_ok hrun).1 rfl hbody
        rw [hcalm]
        exact ih b { tx with database } after a h
  | notify channel next ih =>
      intro tx after a h
      rw [run, Action.run_bind, Action.run_notify] at h ⊢
      by_cases ha : tx.aborted = true
      · rw [if_pos ha] at h
        cases h
      · rw [if_neg ha] at h
        rw [if_neg (show ¬ tx.calm.aborted = true from ha)]
        cases hf : tx.faultAt .notify with
        | some state =>
            rw [hf] at h
            cases h
        | none =>
            rw [hf] at h
            have hcalm := ih _ after a h
            rwa [tx.calm_publish] at hcalm
  | savepoint inner next ih ih' =>
      intro tx after a h
      rw [run, Action.run_bind] at h ⊢
      rcases Action.run_savepoint_cases inner.run tx with
        ⟨e, failed, hrun, -⟩ | ⟨b, kept, -, hrun⟩
      · rw [hrun] at h
        cases h
      · obtain ⟨ha, hinner, hkept⟩ := Action.of_run_savepoint_ok hrun
        rw [hrun] at h
        have hcalm : Action.run inner.run.savepoint tx.calm = (.ok b, kept.calm) :=
          TaskAction.run_savepoint_ok ha (ih tx kept b hinner) hkept
        rw [hcalm]
        exact ih' b kept after a h

/-- A transaction by whose answer nothing was done is what it was, but for a failure that was
planned. -/
lemma Operation.run_idle {channel : Channel} {tx after : Transaction} {operation : Operation}
    {answer : Answer} (sound : tx.database.Sound) (tasks : tx.database.tasks.isSome = true)
    (ha : tx.aborted = false)
    (h : (operation.action channel).run tx = (.ok answer, after))
    (nothing : answer.ReportsNothing) : after.calm = tx.calm := by
  have quiet : tx.calm.Quiet := ⟨rfl, tasks, sound⟩
  have hcalm : (operation.action channel).run tx.calm = (.ok answer, after.calm) := by
    rw [← operation.run_routine] at h ⊢
    exact (operation.routine channel).run_calm tx after answer h
  by_cases refused : tx.calm.database.Refuses operation
  · rw [run_refused quiet ha refused] at hcalm
    cases hcalm
  · rw [run_answered quiet ha refused] at hcalm
    obtain ⟨hanswer, hafter⟩ := Prod.mk.inj hcalm
    have hidle := Database.performed_idle refused fun other hother => by
      obtain rfl := Except.ok.inj (hanswer.symm.trans hother)
      exact nothing
    rw [← hafter, Transaction.performed_eq_self channel hidle.1 hidle.2]

/-- What fails within a savepoint leaves the transaction as it was, but for numbers and a planned
failure that are used up. -/
lemma Action.savepoint_restores {α : Type} {action : TaskAction α} {tx after : Transaction}
    {e : TaskError} (h : run action.savepoint tx = (.error e, after)) :
    after = tx.restore after := by
  simp only [run, savepoint] at h
  split at h
  · cases h
    rfl
  · split at h
    · split at h
      · cases h
        rfl
      · cases h
    · cases h
      rfl

/-! ### Stores -/

namespace Store

/-- Nothing was published, and the store is what it was. Only numbers of tasks may be used up,
and the failure that was planned. -/
structure Unaffected (before : Store) (published : List Channel) (after : Store) : Prop where
  silent : published = []
  database : after.database = { before.database with nextId := after.database.nextId }
  nextId_le : before.database.nextId ≤ after.database.nextId
  clock : after.clock = before.clock
  fault : after.fault = before.fault ∨ after.fault = none

namespace Unaffected

variable {before after : Store} {published : List Channel}

lemma rows (h : before.Unaffected published after) :
    after.database.rows = before.database.rows := by
  rw [h.database]
  rfl

end Unaffected

variable {ε α : Type} {store : Store} {channel : Channel}

lemma Untouched.unaffected {reply : Reply ε α} (h : store.Untouched reply) :
    store.Unaffected reply.published reply.store := by
  obtain ⟨hsilent, fault, hfault, hstore⟩ := h
  rw [hstore]
  exact ⟨hsilent, rfl, le_rfl, rfl, hfault⟩

/-- A transaction that is undone. -/
lemma unaffected_rollback {tx : Transaction} (he : store.begin.Extends channel tx) :
    store.Unaffected [] (store.rollback tx) :=
  ⟨rfl, rfl, he.writes.nextId_le, rfl, he.fault⟩

/-- A transaction that is committed, and has written nothing. -/
lemma unaffected_committed {tx : Transaction} (he : store.begin.Extends channel tx)
    (hsame : tx.calm = store.begin.calm) :
    store.Unaffected tx.published { store with database := tx.database, fault := tx.fault } := by
  have hdatabase : tx.database = store.database := congrArg Transaction.database hsame
  have hpublished : tx.published = [] := congrArg Transaction.published hsame
  refine ⟨hpublished, ?_, ?_, rfl, he.fault⟩ <;> dsimp only <;> rw [hdatabase]

/-- An action in a transaction of its own that fails, or by whose answer nothing was done. -/
lemma unaffected_transact (refused : SqlState → ε) {action : Action ε α}
    (he : action.Extending channel) {nothing : α → Prop}
    (idle : ∀ a after, action.run store.begin = (.ok a, after) → nothing a →
      after.calm = store.begin.calm)
    (h : ∀ a, (store.transact refused action).answer = .ok a → nothing a) :
    store.Unaffected (store.transact refused action).published
      (store.transact refused action).store := by
  have hextends := he store.begin
  rw [transact] at h ⊢
  cases hrun : action.run store.begin with
  | mk answer after =>
      rw [hrun] at hextends h
      cases answer with
      | error e => exact unaffected_rollback hextends
      | ok a =>
          dsimp only at h ⊢
          by_cases hl : after.Lands
          · rw [store.commit_of_lands hl] at h ⊢
            exact unaffected_committed hextends (idle a after hrun (h a rfl))
          · obtain ⟨hpublished, fault, hfault, hstore⟩ := store.commit_of_not_lands hl
            rw [hstore]
            exact ⟨hpublished, rfl, hextends.writes.nextId_le, rfl,
              PlannedFault.left_trans hextends.fault hfault⟩

/-- A single statement that fails, or by whose answer nothing was done. -/
lemma unaffected_autocommit {action : Action ε α} (he : action.Extending channel)
    {nothing : α → Prop}
    (idle : ∀ a after, action.run store.begin = (.ok a, after) → nothing a →
      after.calm = store.begin.calm)
    (h : ∀ a, (store.autocommit action).answer = .ok a → nothing a) :
    store.Unaffected (store.autocommit action).published (store.autocommit action).store := by
  have hextends := he store.begin
  rw [autocommit] at h ⊢
  cases hrun : action.run store.begin with
  | mk answer after =>
      rw [hrun] at hextends h
      cases answer with
      | error e => exact unaffected_rollback hextends
      | ok a => exact unaffected_committed hextends (idle a after hrun (h a rfl))

/-! ### Calls -/

/-- The answer is an error, or one by which nothing was done. -/
def Reply.Idle (nothing : α → Prop) (reply : Reply ε α) : Prop :=
  ∀ a, reply.answer = .ok a → nothing a

instance (nothing : α → Prop) [DecidablePred nothing] (reply : Reply ε α) :
    Decidable (reply.Idle nothing) :=
  match h : reply.answer with
  | .error e => .isTrue fun a ha => by cases h.symm.trans ha
  | .ok a => decidable_of_iff (nothing a)
      ⟨fun ha b hb => Except.ok.inj (h.symm.trans hb) ▸ ha, fun ha => ha a h⟩

lemma unaffected_perform (sound : store.database.Sound)
    (tasks : store.database.tasks.isSome = true) {operation : Operation}
    (h : (store.perform channel operation).Idle Answer.ReportsNothing) :
    store.Unaffected (store.perform channel operation).published
      (store.perform channel operation).store := by
  have idle : ∀ a after, (operation.action channel).run store.begin = (.ok a, after) →
      Answer.ReportsNothing a → after.calm = store.begin.calm :=
    fun a after hrun => Operation.run_idle sound tasks rfl hrun
  rw [perform] at h ⊢
  split at h
  · rw [if_pos ‹_›]
    exact unaffected_transact _ (operation.extends channel) idle h
  · rw [if_neg ‹_›]
    exact unaffected_autocommit (operation.extends channel) idle h

lemma unaffected_claim {types : List String} {worker : WorkerId} {lease : Duration}
    (h : (store.claim types worker lease).Idle fun claim => claim = .empty ∨ claim = .contended) :
    store.Unaffected (store.claim types worker lease).published
      (store.claim types worker lease).store := by
  rcases store.claim_cases types worker lease with
    ⟨row, deadline, state, -, -, -, hreply⟩ | ⟨-, huntouched⟩
  · rw [hreply] at h
    simpa using h _ rfl
  · exact huntouched.unaffected

lemma unaffected_renew {task : TaskId} {worker : WorkerId} {lease : Duration}
    (h : (store.renew task worker lease).Idle fun renewed => renewed = false) :
    store.Unaffected (store.renew task worker lease).published
      (store.renew task worker lease).store := by
  rcases store.renew_cases task worker lease with ⟨deadline, -, -, hreply⟩ | ⟨-, huntouched⟩
  · rw [hreply] at h
    cases h _ rfl
  · exact huntouched.unaffected

lemma unaffected_finish {task : TaskId} {worker : WorkerId} {outcome : Outcome}
    (h : (store.finish channel task worker outcome).Idle fun _ => False) :
    store.Unaffected (store.finish channel task worker outcome).published
      (store.finish channel task worker outcome).store :=
  unaffected_transact _ (TaskAction.extending_finish channel task worker outcome)
    (fun _ _ _ impossible => impossible.elim) h

end Store

/-- A call of the store answers an error, or that nothing was done. -/
def Call.ReportsNothing (channel : Channel) (store : Store) : Call → Prop
  | .perform operation => (store.perform channel operation).Idle Answer.ReportsNothing
  | .claim types worker lease =>
    (store.claim types worker lease).Idle fun claim => claim = .empty ∨ claim = .contended
  | .renew task worker lease => (store.renew task worker lease).Idle fun renewed => renewed = false
  | .finish task worker outcome => (store.finish channel task worker outcome).Idle fun _ => False
  | .run _ _ _ _ | .transaction _ _ | .pass _ => False

instance (channel : Channel) (store : Store) :
    ∀ call : Call, Decidable (call.ReportsNothing channel store)
  | .perform _ => inferInstanceAs (Decidable (Store.Reply.Idle Answer.ReportsNothing _))
  | .claim _ _ _ => inferInstanceAs (Decidable (Store.Reply.Idle (fun claim => claim = _ ∨ _) _))
  | .renew _ _ _ => inferInstanceAs (Decidable (Store.Reply.Idle (fun renewed => renewed = _) _))
  | .finish _ _ _ => inferInstanceAs (Decidable (Store.Reply.Idle (fun _ => False) _))
  | .run _ _ _ _ | .transaction _ _ | .pass _ => .isFalse id

/-! ### Migrations -/

/-- Steps leave the record of migrations as it is. -/
lemma Database.Steps.migrations {before after : Database} (h : before.Steps after) :
    after.migrations = before.migrations := by
  induction h with
  | refl => rfl
  | tail _ step ih =>
      cases step with
      | write hw => cases hw <;> exact ih
      | renew | claim => exact ih

namespace Store

variable {store : Store} {channel : Channel}

/-- Of every reached store the schema is up to date. -/
lemma Reached.migrations (h : store.Reached channel) :
    ∃ clock, store.database.migrations = some [⟨"0001_create_tasks", clock⟩] := by
  induction h with
  | initial clock => exact ⟨clock, rfl⟩
  | call reached call ih => rwa [(call.steps_next channel reached.sound).migrations]
  | plan _ _ ih => exact ih

/-- So the migrations find nothing to do. -/
lemma untouched_migrate (h : store.Reached channel) : store.Untouched store.migrate := by
  obtain ⟨clock, hmigrations⟩ := h.migrations
  have hrun : Action.run (Migration.runAll Schema.Statement.execute Schema.migrations) store.begin =
      (.ok 0, store.begin) := by
    obtain ⟨⟨tasks, nextId, migrations⟩, now, fault⟩ := store
    simp only at hmigrations
    subst hmigrations
    rfl
  rw [migrate, transact, hrun]
  by_cases hl : store.begin.Lands
  · dsimp only
    rw [store.commit_of_lands hl]
    exact ⟨rfl, store.fault, .inl rfl, rfl⟩
  · obtain ⟨hpublished, fault, hfault, hstore⟩ := store.commit_of_not_lands hl
    exact ⟨hpublished, fault, hfault, hstore⟩

/-! ### All calls -/

/-- A call that answers an error, or that nothing was done, leaves every row as it is and publishes
nothing, whatever fails on the way. So do the migrations of a store that is up to date. A
cancellation that fails within an explicit transaction leaves the transaction with all that it has
written, ready to go on. -/
theorem idle_unaffected (reached : store.Reached channel) :
    (∀ call : Call, call.ReportsNothing channel store →
      store.Unaffected (call.published channel store) (call.next channel store)) ∧
    store.Unaffected store.migrate.published store.migrate.store ∧
    ∀ (session : Session) (tx : Transaction) (id : TaskId) (e : TaskError),
      session.open? = some tx →
      let reply := session.perform (.cancel id)
      reply.answer = .error e →
        reply.published = [] ∧
        ∃ nextId fault, tx.database.nextId ≤ nextId ∧ (fault = tx.fault ∨ fault = none) ∧
          reply.session =
            { session with
              open? := some { tx with database := { tx.database with nextId }, fault } } := by
  refine ⟨fun call h => ?_, (untouched_migrate reached).unaffected, ?_⟩
  · cases call with
    | perform operation => exact unaffected_perform reached.sound reached.tasks h
    | claim types worker lease => exact unaffected_claim h
    | renew task worker lease => exact unaffected_renew h
    | finish task worker outcome => exact unaffected_finish h
    | run | transaction | pass => exact h.elim
  · intro session tx id e hopen reply herror
    have hextends := TaskAction.extending_cancel session.channel id tx
    cases hrun : Action.run (TaskAction.cancel session.channel id) tx with
    | mk answer after =>
        rw [hrun] at hextends
        simp only [reply, session.perform_of_open hopen, Operation.action, Action.run_map, hrun]
          at herror ⊢
        cases answer with
        | ok count => cases herror
        | error e' =>
            have hafter := Action.savepoint_restores hrun
            refine ⟨trivial, after.database.nextId, after.fault, hextends.writes.nextId_le,
              hextends.fault, ?_⟩
            rw [hafter]
            rfl

/-- Calls that change nothing: for a parent, a task or a lease that is not there, for a task that
does not wait or has ended, for an outcome that is none, and for a lease without a representable
end. A cancellation that has written rows fails at its notification: it leaves them as they were,
and in an explicit transaction also what was written before, which is committed. -/
theorem dismissed_unaffected :
    let store := watched.play .standard [.finish 3 "second" .completed]
    let dismissed : List Call :=
      [.perform (.createChild 9 "child" none), .perform (.resume 2), .perform (.cancel 9),
        .perform (.cancel 3), .claim ["mail"] "third" (.ofSeconds 60),
        .claim ["child"] "third" (.ofSeconds (10 ^ 18)), .renew 3 "second" (.ofSeconds 60),
        .finish 3 "second" .completed, .finish 3 "second" ⟨none, .running, none⟩]
    let session := disturbed.opened .standard [.perform (.finish 3 "second" (.waiting none))]
    let reply := session.perform (.cancel 2)
    (store.Reached .standard ∧
      ∀ call ∈ dismissed, call.ReportsNothing .standard store ∧
        store.Unaffected (call.published .standard store) (call.next .standard store)) ∧
    (disturbed.Reached .standard ∧
      Call.ReportsNothing .standard disturbed (.perform (.cancel 2)) ∧
      (Call.next .standard disturbed (.perform (.cancel 2))).database.rows =
        disturbed.database.rows) ∧
    reply.answer = .error (.refused "53200") ∧
      reply.session.open?.map (·.database.rows) = session.open?.map (·.database.rows) ∧
      reply.session.commit.answer = .ok () ∧
      reply.session.commit.session.store.database.rows.map Row.status =
        [.known .waiting, .known .pending, .known .waiting] := by
  intro store dismissed session reply
  have reached : watched.Reached .standard := .play (.initial 0) _
  have hstore : store.Reached .standard := reached.play _
  have hdisturbed : disturbed.Reached .standard := reached.plan _
  have hdismissed : ∀ call ∈ dismissed, call.ReportsNothing .standard store := by decide +kernel
  have hcancel : Call.ReportsNothing .standard disturbed (.perform (.cancel 2)) := by
    decide +kernel
  have hanswer : reply.answer = .error (.refused "53200") := by decide +kernel
  refine ⟨⟨hstore, fun call hcall => ?_⟩, ⟨hdisturbed, hcancel, ?_⟩, hanswer, ?_⟩
  · exact ⟨hdismissed call hcall, (idle_unaffected hstore).1 call (hdismissed call hcall)⟩
  · exact ((idle_unaffected hdisturbed).1 _ hcancel).rows
  · have hopen : session.open? = some (session.open?.getD disturbed.begin) := by decide +kernel
    obtain ⟨-, nextId, fault, -, -, hsession⟩ :=
      (idle_unaffected hdisturbed).2.2 session _ 2 _ hopen hanswer
    refine ⟨?_, by decide +kernel, by decide +kernel⟩
    rw [show reply.session = _ from hsession, hopen]
    rfl

end Store
end LeaseQueue
