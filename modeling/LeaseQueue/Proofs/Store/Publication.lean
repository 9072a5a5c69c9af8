/-
A commit publishes exactly what its transaction has made pending.

* `Deed`: an operation in its transaction; `Program.deeds`, `Call.deeds`: the operations of a
  program and of a call;
* `Call.changes`: what the statements of a call found and left, unless they were undone;
* `Call.commits`: the transaction of a call is committed;
* `Transaction.Told`: what a transaction will publish is what its statements have made pending,
  which every operation but a notification keeps;
* `Store.Reached`: the stores that calls reach, whatever failures are planned on the way;
* `Call.published_exact`: what a call publishes over such a store.

A planned failure can undo a part of a transaction that is committed (`Call.deeds` has the
operation, `Call.changes` has nothing of it), or the whole of it.
-/
import LeaseQueue.Proofs.Store.Notice
import LeaseQueue.Proofs.Store.Telling

namespace LeaseQueue

/-! ### The operations of a call -/

/-- An operation, and the transaction in which it is performed. -/
structure Deed where
  operation : Operation
  tx : Transaction

/-- What the statements of an operation found and left. -/
def Deed.changes (channel : Channel) (deed : Deed) : List Effect :=
  (deed.operation.routine channel).changes deed.tx

/-- The operations of a program. -/
def Program.deeds (around : Surroundings) (channel : Channel) : Program → OpenRun → List Deed
  | .finish _, _ | .panic _, _ => []
  | .perform operation next, run =>
    let (answer, after) := run.perform channel operation
    ⟨operation, run.tx⟩ :: deeds around channel (next answer) after
  | .pause millis next, run => deeds around channel next (around millis run)
  | .stop next, run => deeds around channel next run

/-- The answer that a program was given. -/
def TraceEvent.answer? : TraceEvent → Option (Except TaskError Answer)
  | .answered answer => some answer
  | .paused _ | .stopped => none

/-- The answers to the operations of a program are those that it meets on its way. -/
theorem Program.answers_deeds (around : Surroundings) (channel : Channel) (program : Program) :
    ∀ run : OpenRun,
      (program.deeds around channel run).map
          (fun deed => ((deed.operation.action channel).run deed.tx).1) =
        (program.execute around channel run).trace.filterMap TraceEvent.answer? := by
  induction program with
  | finish outcome | panic text => exact fun run => rfl
  | perform operation next ih => exact fun run => congrArg (List.cons _) (ih _ _)
  | pause millis next ih => exact fun run => ih _
  | stop next ih => exact ih

/-- The operation that ends a run. -/
def Execution.deeds (execution : Execution) (task : ClaimedTask) : List Deed :=
  match execution.ending with
  | .finished outcome => [⟨.finish task.id task.worker outcome, execution.run.tx⟩]
  | .panicked _ => []

/-- The operations of an explicit transaction. -/
def TransactionStep.deeds (channel : Channel) : List TransactionStep → Transaction → List Deed
  | [], _ => []
  | .perform operation :: rest, tx =>
    ⟨operation, tx⟩ :: deeds channel rest ((operation.action channel).run tx).2
  | .pass _ :: rest, tx => deeds channel rest tx

namespace Call

variable (channel : Channel) (store : Store)

/-- The operations of a call. The last of a run writes its outcome. -/
def deeds : Call → List Deed
  | .perform operation => [⟨operation, store.begin⟩]
  | .finish task worker outcome => [⟨.finish task worker outcome, store.begin⟩]
  | .run handler task earlierRuns beats =>
    (handler ⟨task, channel, earlierRuns⟩).deeds (.beating task beats) channel (.start store) ++
      (store.executed channel handler task earlierRuns beats).deeds task
  | .transaction steps _ => TransactionStep.deeds channel steps store.begin
  | .claim _ _ _ | .renew _ _ _ | .pass _ => []

/-- What the statements of a call found and left, unless they were undone. -/
def changes (call : Call) : List Effect :=
  match call with
  | .claim types worker lease =>
    if types.isEmpty then []
    else
      (Routine.ask fun now database =>
        database.claimTask now types worker lease).changes store.begin
  | .renew task worker lease =>
    (Routine.ask fun now database => database.renewLease now task worker lease).changes store.begin
  | call => (call.deeds channel store).flatMap (Deed.changes channel)

/-- The transaction of a call is committed. -/
def commits : Call → Bool
  | .perform operation => (store.perform channel operation).answer.isOk
  | .claim types worker lease => !types.isEmpty && (store.tryClaim types worker lease).answer.isOk
  | .renew task worker lease => (store.renew task worker lease).answer.isOk
  | .finish task worker outcome => (store.finish channel task worker outcome).answer.isOk
  | .run handler task earlierRuns beats =>
    (store.runBeating channel handler task earlierRuns beats).answer.isOk
  | .transaction steps keep => store.lands channel steps keep
  | .pass _ => false

end Call

/-! ### Transactions -/

/-- A routine that answers leaves a transaction that can still be committed. -/
lemma Routine.usable_of_ok {α : Type} (routine : Routine α) :
    ∀ (tx after : Transaction) (a : α), tx.aborted = false →
      routine.run.run tx = (.ok a, after) → after.aborted = false := by
  induction routine with
  | done result =>
      intro tx after a ha h
      cases h
      exact ha
  | statement body next ih =>
      intro tx after a ha h
      rw [run, Action.run_bind] at h
      rcases Action.run_onTasks_cases body tx with ⟨e, failed, hrun, -⟩ | ⟨b, database, -, hrun⟩
      · rw [hrun] at h
        cases h
      · rw [hrun] at h
        exact ih b { tx with database } after a ha h
  | notify channel next ih =>
      intro tx after a ha h
      rw [run, Action.run_bind] at h
      rcases Action.run_notify_cases channel tx with ⟨e, failed, hrun, -⟩ | hrun
      · rw [hrun] at h
        cases h
      · rw [hrun] at h
        refine ih _ after a ?_ h
        rwa [Transaction.publish_eq]
  | savepoint inner next ih ih' =>
      intro tx after a ha h
      rw [run, Action.run_bind] at h
      rcases Action.run_savepoint_cases inner.run tx with
        ⟨e, failed, hrun, -⟩ | ⟨b, kept, hin, hrun⟩
      · rw [hrun] at h
        cases h
      · rw [hrun] at h
        exact ih' b kept after a (ih tx kept b ha hin) h

/-- What a transaction will publish is what some statements have made pending, if it can be
committed. -/
def Transaction.Told (channel : Channel) (effects : List Effect) (tx : Transaction) : Prop :=
  tx.aborted = false → (channel ∈ tx.published ↔ ∃ effect ∈ effects, effect.MakesPending)

namespace Transaction.Told

variable {channel : Channel} {effects : List Effect} {tx : Transaction}

lemma begin (channel : Channel) (store : Store) : store.begin.Told channel [] := by
  simp [Told, Store.begin]

/-- Every operation but a notification keeps it. -/
theorem deed (h : tx.Told channel effects) (hs : tx.database.Sound) {operation : Operation}
    (silent : operation ≠ .notify) :
    ((operation.action channel).run tx).2.Told channel
      (effects ++ Deed.changes channel ⟨operation, tx⟩) := by
  intro usable
  have htells := operation.tells channel silent tx hs
  rw [operation.run_routine] at htells
  rw [htells usable, h ((operation.extends channel tx).usable usable)]
  simp only [Deed.changes, List.mem_append, or_and_right, exists_or, false_or]

lemma published_eq (h : tx.Told channel effects) (usable : tx.aborted = false)
    (hshape : tx.published = [] ∨ tx.published = [channel]) :
    tx.published = if ∃ effect ∈ effects, effect.MakesPending then [channel] else [] := by
  rw [if_congr (h usable).symm rfl rfl]
  rcases hshape with hp | hp <;> simp [hp]

end Transaction.Told

/-- What publishes on one channel at most goes on to do so. -/
lemma Transaction.Extends.published_shape {channel : Channel} {before after : Transaction}
    (h : before.Extends channel after)
    (hshape : before.published = [] ∨ before.published = [channel]) :
    after.published = [] ∨ after.published = [channel] := by
  rcases h.published with hp | hp
  · rwa [hp]
  · right
    rw [hp, publish_published]
    rcases hshape with hb | hb <;> simp [hb]

namespace Store

variable {store : Store} {channel : Channel} {effects : List Effect} {tx : Transaction}

/-- The commit of a transaction in which no statement has failed. -/
lemma published_commit (store : Store) (told : tx.Told channel effects)
    (usable : tx.aborted = false) (hshape : tx.published = [] ∨ tx.published = [channel]) :
    (store.commit tx).published =
      if (store.commit tx).answer.isOk = true ∧ ∃ effect ∈ effects, effect.MakesPending
      then [channel] else [] := by
  cases hf : tx.faultAt .commit with
  | none =>
      rw [store.commit_of_lands ⟨usable, hf⟩]
      simp only [told.published_eq usable hshape, Except.isOk, Except.toBool, true_and]
  | some state =>
      rw [store.commit_of_fault tx usable hf]
      simp [Except.isOk, Except.toBool]

/-- A transaction that is silent and makes nothing pending. -/
lemma published_nothing {published : List Channel} (hpublished : published = [])
    (hnone : ∀ effect ∈ effects, ¬ effect.MakesPending) (committed : Bool) :
    published =
      if committed = true ∧ ∃ effect ∈ effects, effect.MakesPending then [channel] else [] := by
  rw [hpublished, if_neg]
  rintro ⟨-, effect, heffect, hmakes⟩
  exact hnone effect heffect hmakes

/-- An answer in other words is no other answer. -/
lemma isOk_map {ε δ α β : Type} (answer : Except ε α) (f : ε → δ) (g : α → β) :
    ((answer.mapError f).map g).isOk = answer.isOk := by
  cases answer <;> rfl

/-- An operation in a transaction of its own. -/
lemma published_transact {ε α : Type} (refused : SqlState → ε) {action : Action ε α}
    (he : action.Extending channel) (told : (action.run store.begin).2.Told channel effects)
    (usable : ∀ a after, action.run store.begin = (.ok a, after) → after.aborted = false) :
    (store.transact refused action).published =
      if (store.transact refused action).answer.isOk = true ∧
        ∃ effect ∈ effects, effect.MakesPending then [channel] else [] := by
  have hshape := (he store.begin).published_shape (.inl rfl)
  rw [transact]
  cases hrun : action.run store.begin with
  | mk answer after =>
      rw [hrun] at told hshape
      cases answer with
      | error e => simp [Except.isOk, Except.toBool]
      | ok a =>
          simp only [isOk_map]
          exact published_commit store told (usable a after hrun) hshape

/-- A single statement. -/
lemma published_autocommit {ε α : Type} {action : Action ε α} (he : action.Extending channel)
    (told : (action.run store.begin).2.Told channel effects)
    (usable : ∀ a after, action.run store.begin = (.ok a, after) → after.aborted = false) :
    (store.autocommit action).published =
      if (store.autocommit action).answer.isOk = true ∧
        ∃ effect ∈ effects, effect.MakesPending then [channel] else [] := by
  have hshape := (he store.begin).published_shape (.inl rfl)
  rw [autocommit]
  cases hrun : action.run store.begin with
  | mk answer after =>
      rw [hrun] at told hshape
      cases answer with
      | error e => simp [Except.isOk, Except.toBool]
      | ok a =>
          simp only [Except.isOk, Except.toBool, true_and]
          exact told.published_eq (usable a after hrun) hshape

end Store

/-! ### Programs and explicit transactions -/

/-- The operations of a program, beside which a lease is renewed. -/
lemma Program.told_execute {store : Store} (sound : store.database.Sound) {channel : Channel}
    (task : ClaimedTask) (beats : Nat → List Beat) (program : Program) :
    ∀ (run : OpenRun) (effects : List Effect), run.Follows store → run.tx.Told channel effects →
      (∀ deed ∈ program.deeds (.beating task beats) channel run, deed.operation ≠ .notify) →
      (program.execute (.beating task beats) channel run).run.tx.Told channel
        (effects ++
          (program.deeds (.beating task beats) channel run).flatMap (Deed.changes channel)) := by
  induction program with
  | finish outcome | panic text =>
      intro run effects _ told _
      simpa only [execute, deeds, List.flatMap_nil, List.append_nil] using told
  | perform operation next ih =>
      intro run effects follows told silent
      simp only [deeds, List.forall_mem_cons] at silent
      have hdeed := told.deed (follows.inside.sound sound) silent.1
      simp only [deeds, List.flatMap_cons, ← List.append_assoc]
      exact ih _ _ _ (follows.extend (operation.extends channel run.tx)) hdeed silent.2
  | pause millis next ih =>
      intro run effects follows told silent
      have hbeats : (Surroundings.beating task beats millis run).Follows store ∧
          (Surroundings.beating task beats millis run).tx.Told channel effects := by
        refine Surroundings.beating_keeps
          (P := fun run => run.Follows store ∧ run.tx.Told channel effects)
          (fun run micros h => ⟨h.1.advance micros, h.2⟩)
          (fun run lease h => ⟨h.1.renew sound task.id task.worker lease, ?_⟩) beats millis run
          ⟨follows, told⟩
        obtain ⟨tasks, htx⟩ := run.renew_tx task.id task.worker lease
        rw [htx]
        exact h.2
      exact ih _ effects hbeats.1 hbeats.2 silent
  | stop next ih => exact ih

/-- The steps of an explicit transaction. -/
lemma Session.told_through (channel : Channel) (steps : List TransactionStep) :
    ∀ (session : Session) (tx : Transaction) (effects : List Effect), session.channel = channel →
      session.open? = some tx → tx.database.Sound → tx.Told channel effects →
      (∀ deed ∈ TransactionStep.deeds channel steps tx, deed.operation ≠ .notify) →
      ∃ after : Transaction, (session.through steps).2.open? = some after ∧
        after.Told channel
          (effects ++ (TransactionStep.deeds channel steps tx).flatMap (Deed.changes channel)) := by
  induction steps with
  | nil =>
      intro session tx effects _ hopen _ told _
      refine ⟨tx, hopen, ?_⟩
      simpa only [TransactionStep.deeds, List.flatMap_nil, List.append_nil] using told
  | cons step rest ih =>
      intro session tx effects hchannel hopen sound told silent
      cases step with
      | perform operation =>
          subst hchannel
          simp only [TransactionStep.deeds, List.forall_mem_cons] at silent
          have hextends := operation.extends session.channel tx
          simp only [TransactionStep.deeds, List.flatMap_cons, ← List.append_assoc, through,
            perform_of_open hopen]
          exact ih _ _ _ rfl rfl (hextends.writes.sound sound) (told.deed sound silent.1) silent.2
      | pass micros =>
          exact ih { session with store := session.store.advance micros } tx effects hchannel hopen
            sound told silent

/-- The end of a run. -/
lemma Execution.published_finish (execution : Execution) (context : RunContext)
    {effects : List Effect} (told : execution.run.tx.Told context.channel effects)
    (sound : execution.run.tx.database.Sound)
    (hshape : execution.run.tx.published = [] ∨
      execution.run.tx.published = [context.channel]) :
    (execution.finish context).published =
      if (execution.finish context).answer.isOk = true ∧
        ∃ effect ∈ effects ++ (execution.deeds context.task).flatMap (Deed.changes context.channel),
          effect.MakesPending
      then [context.channel] else [] := by
  rw [finish, deeds]
  cases execution.ending with
  | panicked text => simp [Ending.outcome?, Except.isOk, Except.toBool]
  | finished outcome =>
      have silent : Operation.finish context.task.id context.task.worker outcome ≠ .notify := by
        simp
      have hend := told.deed sound silent
      have hextends := TaskAction.extending_finish context.channel context.task.id
        context.task.worker outcome execution.run.tx
      rw [Operation.action, Action.run_map] at hend
      simp only [Ending.outcome?, List.flatMap_singleton]
      cases hrun : Action.run (TaskAction.finish context.channel context.task.id
          context.task.worker outcome) execution.run.tx with
      | mk answer after =>
          rw [hrun] at hend hextends
          cases answer with
          | error e => simp [Except.isOk, Except.toBool]
          | ok transition =>
              have happlies := (TaskAction.applies_of_finish_ok hrun).1
              rw [← Routine.run_finish] at hrun
              have usable := Routine.usable_of_ok _ _ _ _ happlies.usable hrun
              simp only [Store.isOk_map]
              exact Store.published_commit execution.run.store hend usable
                (hextends.published_shape hshape)

/-! ### Calls -/

namespace Store

variable {store : Store} {channel : Channel} (sound : store.database.Sound)
include sound

/-- An operation, in a transaction of its own or as a single statement. -/
lemma published_perform {operation : Operation} (silent : operation ≠ .notify) :
    (store.perform channel operation).published =
      if (store.perform channel operation).answer.isOk = true ∧
        ∃ effect ∈ Deed.changes channel ⟨operation, store.begin⟩, effect.MakesPending
      then [channel] else [] := by
  have told := (Transaction.Told.begin channel store).deed sound silent
  have usable : ∀ a after, (operation.action channel).run store.begin = (.ok a, after) →
      after.aborted = false := by
    intro a after hrun
    rw [← operation.run_routine] at hrun
    exact (operation.routine channel).usable_of_ok _ _ a rfl hrun
  rw [perform]
  split
  · exact published_transact _ (operation.extends channel) told usable
  · exact published_autocommit (operation.extends channel) told usable

/-- The end of a run in a transaction of its own. -/
lemma published_finish (task : TaskId) (worker : WorkerId) (outcome : Outcome) :
    (store.finish channel task worker outcome).published =
      if (store.finish channel task worker outcome).answer.isOk = true ∧
        ∃ effect ∈ Deed.changes channel ⟨.finish task worker outcome, store.begin⟩,
          effect.MakesPending
      then [channel] else [] := by
  have silent : Operation.finish task worker outcome ≠ .notify := by simp
  have told := (Transaction.Told.begin channel store).deed sound silent
  rw [Operation.action, Action.run_map] at told
  refine published_transact _ (TaskAction.extending_finish channel task worker outcome) told ?_
  intro transition after hrun
  rw [← Routine.run_finish] at hrun
  exact Routine.usable_of_ok _ _ _ _ rfl hrun

/-- The run of a handler. -/
lemma published_run (handler : Handler) (task : ClaimedTask) (earlierRuns : Nat)
    (beats : Nat → List Beat)
    (silent : ∀ deed ∈ (Call.run handler task earlierRuns beats).deeds channel store,
      deed.operation ≠ .notify) :
    let call := Call.run handler task earlierRuns beats
    call.published channel store =
      if call.commits channel store = true ∧
        ∃ effect ∈ call.changes channel store, effect.MakesPending then [channel] else [] := by
  have follows := OpenRun.Follows.start store
  simp only [Call.deeds, List.forall_mem_append] at silent
  have told := Program.told_execute sound task beats (handler ⟨task, channel, earlierRuns⟩)
    (.start store) [] follows (.begin channel store) silent.1
  have ending := follows.execute sound channel task beats (handler ⟨task, channel, earlierRuns⟩)
  have opened := store.executed_opened channel handler task earlierRuns beats
  have hfinish := Execution.published_finish
    (store.executed channel handler task earlierRuns beats) ⟨task, channel, earlierRuns⟩ told
    (ending.inside.sound sound) opened.published
  rw [List.nil_append, ← List.flatMap_append] at hfinish
  exact hfinish

/-- An explicit transaction. -/
lemma published_transaction (steps : List TransactionStep) (keep : Bool)
    (silent : ∀ deed ∈ TransactionStep.deeds channel steps store.begin,
      deed.operation ≠ .notify) :
    Call.published channel store (.transaction steps keep) =
      if store.lands channel steps keep = true ∧
        ∃ effect ∈ (TransactionStep.deeds channel steps store.begin).flatMap (Deed.changes channel),
          effect.MakesPending
      then [channel] else [] := by
  obtain ⟨tx, hextends, micros, hopened⟩ := store.opened_eq channel steps
  obtain ⟨after, hopen, told⟩ := Session.told_through channel steps
    (Session.mk store channel none).begin store.begin [] rfl rfl sound (.begin channel store) silent
  have hsame : after = tx := eq_of_opened hopened hopen
  subst hsame
  rw [List.nil_append] at told
  simp only [Call.published, lands, hopened, Option.any_some]
  cases keep with
  | false => simp
  | true =>
      have hcommit : (Session.commit ⟨store.advance micros, channel, some after⟩).published =
          ((store.advance micros).commit after).published := rfl
      simp only [if_true, Bool.true_and, decide_eq_true_iff]
      rw [hcommit]
      by_cases hl : after.Lands
      · rw [commit_of_lands _ hl, told.published_eq hl.1 (hextends.published_shape (.inl rfl))]
        simp only [hl, true_and]
      · rw [(commit_of_not_lands _ hl).1, if_neg fun h => hl h.1]

end Store

/-! ### Reached stores -/

/-- The stores that calls reach from the empty one, with any failures planned on the way. -/
inductive Store.Reached (channel : Channel) : Store → Prop where
  | initial (clock : Micros) : Reached channel (.initial clock)
  | call {store : Store} (h : Reached channel store) (call : Call) :
      Reached channel (call.next channel store)
  | plan {store : Store} (h : Reached channel store) (fault : Option PlannedFault) :
      Reached channel { store with fault }

lemma Store.Reached.sound {channel : Channel} {store : Store} (h : store.Reached channel) :
    store.database.Sound := by
  induction h with
  | initial clock => exact initial_sound clock
  | call _ call ih => exact (call.steps_next channel ih).sound ih
  | plan _ _ ih => exact ih

lemma Store.Reached.tasks {channel : Channel} {store : Store} (h : store.Reached channel) :
    store.database.tasks.isSome = true := by
  induction h with
  | initial clock => rfl
  | call reached call ih => exact (call.steps_next channel reached.sound).tasks ih
  | plan _ _ ih => exact ih

lemma Store.Reached.play {channel : Channel} {store : Store} (h : store.Reached channel)
    (calls : List Call) : (store.play channel calls).Reached channel := by
  induction calls generalizing store with
  | nil => exact h
  | cons call rest ih => exact ih (h.call call)

/-- A call that does not ask for a notification publishes once if its transaction is committed and
one of its statements, which was not undone, has made a row pending. Otherwise it publishes
nothing. -/
theorem Call.published_exact (call : Call) {channel : Channel} {store : Store}
    (reached : store.Reached channel)
    (silent : ∀ deed ∈ call.deeds channel store, deed.operation ≠ .notify) :
    call.published channel store =
      if call.commits channel store = true ∧
        ∃ effect ∈ call.changes channel store, effect.MakesPending
      then [channel] else [] := by
  have sound := reached.sound
  cases call with
  | perform operation =>
      simp only [deeds, List.mem_singleton, forall_eq] at silent
      simp only [published, commits, changes, deeds, List.flatMap_singleton]
      exact Store.published_perform sound silent
  | claim types worker lease =>
      have hnone : ∀ effect ∈ (Call.claim types worker lease).changes channel store,
          ¬ effect.MakesPending := by
        rw [changes]
        split
        · simp
        · exact Routine.not_makesPending_ask
            (fun now database => database.not_makesPending_claimTask now types worker lease) _
      refine Store.published_nothing ?_ hnone _
      rcases store.claim_cases types worker lease with ⟨_, _, _, -, -, -, hreply⟩ | ⟨-, huntouched⟩
      · rw [published, hreply]
      · exact huntouched.1
  | renew task worker lease =>
      have hnone : ∀ effect ∈ (Call.renew task worker lease).changes channel store,
          ¬ effect.MakesPending :=
        Routine.not_makesPending_ask
          (fun now database => database.not_makesPending_renewLease now task worker lease) _
      refine Store.published_nothing ?_ hnone _
      rcases store.renew_cases task worker lease with ⟨_, -, -, hreply⟩ | ⟨-, huntouched⟩
      · rw [published, hreply]
      · exact huntouched.1
  | finish task worker outcome =>
      simp only [published, commits, changes, deeds, List.flatMap_singleton]
      exact Store.published_finish sound task worker outcome
  | run handler task earlierRuns beats =>
      exact Store.published_run sound handler task earlierRuns beats silent
  | transaction steps keep => exact Store.published_transaction sound steps keep silent
  | pass micros => simp [published, commits]

namespace Store

/-- A parent that waits for its child, and a task that runs. -/
def watched : Store :=
  (initial 0).play .standard
    [.perform (.create "parent" none), .perform (.createChild 1 "child" none),
      .claim ["parent"] "first" (.ofSeconds 60), .finish 1 "first" (.waiting none),
      .perform (.create "warden" none), .claim ["warden"] "second" (.ofSeconds 60)]

/-- The same store, in which the next notification fails. -/
def disturbed : Store := { watched with fault := some ⟨.notify, "53200"⟩ }

/-- The task that runs cancels the child, and is done whether or not that fails. -/
def warden : Call :=
  .run (fun _ => .perform (.cancel 2) fun _ => .finish .completed) ⟨3, "warden", .null, "second"⟩ 0
    fun _ => []

/-- The cancellation makes the parent pending, of which the run tells. Where it fails it is undone,
and the run is committed without a notification. -/
theorem warden_published :
    (watched.Reached .standard ∧
      (∀ deed ∈ warden.deeds .standard watched, deed.operation ≠ .notify) ∧
      warden.commits .standard watched = true ∧
      warden.published .standard watched = [.standard]) ∧
    (disturbed.Reached .standard ∧
      (∀ deed ∈ warden.deeds .standard disturbed, deed.operation ≠ .notify) ∧
      warden.commits .standard disturbed = true ∧
      warden.published .standard disturbed = []) := by
  have reached : watched.Reached .standard := .play (.initial 0) _
  have silent : ∀ deed ∈ warden.deeds .standard watched, deed.operation ≠ .notify := by
    decide +kernel
  have silent' : ∀ deed ∈ warden.deeds .standard disturbed, deed.operation ≠ .notify := by
    decide +kernel
  refine ⟨⟨reached, silent, by decide +kernel, ?_⟩, reached.plan _, silent', by decide +kernel, ?_⟩
  · exact (warden.published_exact reached silent).trans (if_pos (by decide +kernel))
  · exact (warden.published_exact (reached.plan _) silent').trans (if_neg (by decide +kernel))

end Store
end LeaseQueue
