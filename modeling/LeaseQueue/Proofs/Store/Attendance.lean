/-
Whole runs in which tasks begin to wait only while they have a child that is not at an end.

* `Action.Tending`: the action leaves every waiting task a child that is not at an end, if
  the transaction can go on behind it;
* `Operation.tended`, `Program.execute_tended`: so do operations and programs by which tasks
  begin to wait only while they have such a child;
* `Call.Heedful`, `Store.Heedful`: the calls, and the runs, of this kind;
* `Store.play_tended`: in every store behind such a run all waiting tasks have such a child.
-/
import LeaseQueue.Proofs.Store.Waiting

namespace LeaseQueue

/-! ### Operations -/

namespace Action

variable {ε α β : Type} {channel : Channel}

/-- The action extends transactions, and keeps waiting tasks attended if the transaction
can go on behind it. -/
structure Tending (channel : Channel) (action : Action ε α) : Prop where
  extending : Extending channel action
  tended : ∀ tx : Transaction, tx.Quiet → tx.database.Tended →
    (run action tx).2.aborted = false → (run action tx).2.database.Tended

namespace Tending

lemma pure (a : α) : Tending channel (Pure.pure a : Action ε α) := ⟨.pure a, fun _ _ h _ => h⟩

lemma fail (e : ε) : Tending channel (Action.fail e : Action ε α) := ⟨.fail e, fun _ _ h _ => h⟩

lemma ofExcept (result : Except ε α) : Tending channel (Action.ofExcept result) :=
  ⟨.ofExcept result, fun _ _ h _ => h⟩

lemma bind {action : Action ε α} {next : α → Action ε β} (h : Tending channel action)
    (hn : ∀ a, Tending channel (next a)) : Tending channel (action >>= next) := by
  refine ⟨.bind h.extending fun a => (hn a).extending, fun tx quiet tended => ?_⟩
  have htx := h.tended tx quiet tended
  have he := h.extending tx
  rw [run_bind]
  split
  · rename_i a after hrun
    rw [hrun] at htx he
    intro usable
    -- a transaction that could not go on here could not go on at the end
    have hafter := ((hn a).extending after).usable usable
    exact (hn a).tended after (quiet.extend he) (htx hafter) usable
  · rename_i e after hrun
    rw [hrun] at htx
    exact htx

lemma map {action : Action ε α} (f : α → β) (h : Tending channel action) :
    Tending channel (f <$> action) := by
  refine ⟨.map f h.extending, fun tx quiet tended => ?_⟩
  rw [run_map]
  exact h.tended tx quiet tended

lemma onTasks {body : Micros → Database → Database.Reply α}
    (hw : ∀ now (database : Database), database.Writes (body now database).2)
    (h : ∀ now (database : Database), database.Tended → (body now database).2.Tended) :
    Tending channel (Action.onTasks body) := by
  refine ⟨.onTasks hw, fun tx quiet tended => ?_⟩
  have hbody := h tx.now tx.database tended
  rw [run_onTasks]
  split
  · exact fun _ => tended
  · rw [quiet.faultAt]
    dsimp only
    split <;> rename_i heq <;> rw [heq] at hbody <;> exact fun _ => hbody

lemma notify (channel : Channel) : Tending channel (Action.notify channel) := by
  refine ⟨.notify channel, fun tx quiet tended => ?_⟩
  rw [run_notify]
  split
  · exact fun _ => tended
  · rw [quiet.faultAt]
    dsimp only
    rw [Transaction.publish_eq]
    exact fun _ => tended

end Tending
end Action

namespace TaskAction

open LeaseQueue.Action (Tending)

variable {channel : Channel}

lemma tending_ask {α : Type} (question : Table → α) :
    Tending channel (Action.onTasks fun _ database => database.ask question) :=
  .onTasks (fun _ database => database.writes_ask question) fun _ database h => by
    rw [database.ask_database question]
    exact h

lemma tending_notifyIf (resumed : Bool) : Tending channel (notifyIf channel resumed) := by
  rw [notifyIf]
  split
  · exact .notify channel
  · exact .pure ()

lemma tending_create (taskType : String) (state : Option Json) (parent : Option TaskId) :
    Tending channel (create channel taskType state parent) := by
  refine .bind (.onTasks (fun now database => database.writes_insertTask now _ _ _)
    fun now database h => ?_) fun _ => .bind (.notify channel) fun _ => .pure _
  exact h.insertTask now _ _ _

lemma tending_resume (id : TaskId) (state : Option Json) :
    Tending channel (resume channel id state) := by
  refine .bind (.onTasks ?_ ?_) fun resumed => .bind (tending_notifyIf resumed) fun _ => .pure _
  · intro now database
    cases state with
    | none => exact database.writes_updateRow id fun row h => .resumed h
    | some state => exact database.writes_updateRow id fun row h => .resumedWith state h
  · intro now database h
    cases state with
    | none =>
        rw [Database.resume, Database.updateRow_database]
        exact h.change (fun _ _ _ => ⟨rfl, fun _ => rfl⟩) fun _ _ _ => rfl
    | some state =>
        dsimp only
        rw [Database.resumeWith, Database.updateRow_database]
        exact h.change (fun _ _ _ => ⟨rfl, fun _ => rfl⟩) fun _ _ _ => rfl

lemma tending_get (channel : Channel) (id : TaskId) : Tending channel (get id) := by
  refine .bind (tending_ask _) fun row => ?_
  cases row with
  | none => exact .fail _
  | some row => exact .ofExcept _

lemma tending_children (channel : Channel) (parent : TaskId) :
    Tending channel (children parent) :=
  .bind (tending_ask _) fun _ => .ofExcept _

/-- The cancellation of a tree. -/
lemma tending_cancel (id : TaskId) : Tending channel (cancel channel id) := by
  refine ⟨extending_cancel channel id, fun tx quiet tended usable => ?_⟩
  have ha := (extending_cancel channel id tx).usable usable
  by_cases hown : tx.database.rows.IsOwnParent id
  · rw [run_cancel_endless quiet ha hown]
    exact tended
  by_cases hrow : ∃ row ∈ tx.database.rows, row.id = id
  · rw [run_cancel channel quiet ha hrow hown]
    exact tended.treeCancelled quiet.sound hown tx.now
  · rw [run_cancel_missing quiet ha fun row hmem hid => hrow ⟨row, hmem, hid⟩]
    exact tended

/-- The end of a run, if its task begins to wait only while it has a child that is not at
an end. -/
lemma tended_finish {tx : Transaction} (quiet : tx.Quiet) (tended : tx.database.Tended)
    (usable : tx.aborted = false) (task : TaskId) (worker : WorkerId) (outcome : Outcome)
    (heeds : tx.database.Heeds
      (Action.run (finish channel task worker outcome) tx).2.database) :
    (Action.run (finish channel task worker outcome) tx).2.database.Tended := by
  obtain ⟨table, ht⟩ := quiet.table
  by_cases hp : outcome.status = .running
  · rw [run_finish_improper hp]
    exact tended
  by_cases held : tx.database.Holds task worker
  · rw [run_finish_spared ⟨hp, usable, held⟩ ⟨quiet.faultAt _, fun _ => quiet.faultAt _⟩]
      at heeds ⊢
    exact tended.settled quiet.sound held tx.now heeds
  · rw [run_finish_lost hp usable (quiet.faultAt _) ht held]
    exact tended

end TaskAction

/-- All operations but the end of a run keep waiting tasks attended. -/
lemma Operation.tending (channel : Channel) {operation : Operation}
    (h : ∀ task worker outcome, operation ≠ .finish task worker outcome) :
    Action.Tending channel (operation.action channel) := by
  cases operation with
  | create taskType state => exact .map _ (TaskAction.tending_create taskType state none)
  | createChild parent taskType state =>
      exact .map _ (TaskAction.tending_create taskType state (some parent))
  | resume id => exact .map _ (TaskAction.tending_resume id none)
  | resumeWith id state => exact .map _ (TaskAction.tending_resume id (some state))
  | get id => exact .map _ (TaskAction.tending_get channel id)
  | children parent | lockChildren parent =>
      exact .map _ (TaskAction.tending_children channel parent)
  | cancel id => exact .map _ (TaskAction.tending_cancel id)
  | finish task worker outcome => exact absurd rfl (h task worker outcome)
  | notify => exact .map _ (.notify channel)

/-- Every operation keeps waiting tasks attended, if tasks begin to wait only while they
are and if the transaction can go on behind it. -/
theorem Operation.tended {channel : Channel} {operation : Operation} {tx : Transaction}
    (quiet : tx.Quiet) (tended : tx.database.Tended)
    (usable : ((operation.action channel).run tx).2.aborted = false)
    (heeds : tx.database.Heeds ((operation.action channel).run tx).2.database) :
    ((operation.action channel).run tx).2.database.Tended := by
  by_cases hfinish : ∃ task worker outcome, operation = .finish task worker outcome
  · obtain ⟨task, worker, outcome, rfl⟩ := hfinish
    have hbefore := ((Operation.finish task worker outcome).extends channel tx).usable usable
    simp only [action] at heeds ⊢
    rw [Action.run_map] at heeds ⊢
    exact TaskAction.tended_finish quiet tended hbefore task worker outcome heeds
  · have tending := Operation.tending channel fun task worker outcome h =>
      hfinish ⟨task, worker, outcome, h⟩
    exact tending.tended tx quiet tended usable

/-! ### Heedful runs -/

/-- By no operation of an explicit transaction a task begins to wait but while it has a
child that is not at an end. -/
def Transaction.Heedful (channel : Channel) : List TransactionStep → Transaction → Prop
  | [], _ => True
  | .perform operation :: rest, tx =>
    let after := ((operation.action channel).run tx).2
    tx.database.Heeds after.database ∧ Heedful channel rest after
  | .pass _ :: rest, tx => Heedful channel rest tx

/-- The same for the operations of a program. -/
def Program.Heedful (around : Surroundings) (channel : Channel) : Program → OpenRun → Prop
  | .finish _, _ | .panic _, _ => True
  | .perform operation next, run =>
    let (answer, after) := run.perform channel operation
    run.tx.database.Heeds after.tx.database ∧ Heedful around channel (next answer) after
  | .pause millis next, run => Heedful around channel next (around millis run)
  | .stop next, run => Heedful around channel next run

/-- By nothing in a call that is committed a task begins to wait but while it has, in the
view of the same transaction, a child that is not at an end. -/
def Call.Heedful (channel : Channel) (store : Store) : Call → Prop
  | .perform operation =>
    store.database.Heeds (store.perform channel operation).store.database
  | .finish task worker outcome =>
    store.database.Heeds (store.finish channel task worker outcome).store.database
  | .run handler task earlierRuns beats =>
    let reply := store.runBeating channel handler task earlierRuns beats
    reply.answer.toBool = true →
      (handler ⟨task, channel, earlierRuns⟩).Heedful (.beating task beats) channel (.start store) ∧
      (store.executed channel handler task earlierRuns beats).run.tx.database.Heeds
        reply.store.database
  | .transaction steps keep =>
    store.lands channel steps keep = true → store.begin.Heedful channel steps
  | .claim _ _ _ | .renew _ _ _ | .pass _ => True

/-- The same for a run of calls. -/
def Store.Heedful (store : Store) (channel : Channel) : List Call → Prop
  | [] => True
  | call :: rest => call.Heedful channel store ∧ (call.next channel store).Heedful channel rest

/-! ### Programs -/

/-- An open run in whose view all waiting tasks are attended, as long as its transaction can
go on. -/
structure OpenRun.Attentive (store : Store) (run : OpenRun) : Prop where
  follows : run.Follows store
  tended : run.tx.aborted = false → run.tx.database.Tended

namespace OpenRun.Attentive

variable {store : Store} {run : OpenRun} {channel : Channel}

lemma perform (h : run.Attentive store) (quiet : store.begin.Quiet) {operation : Operation}
    (heeds : run.tx.database.Heeds (run.perform channel operation).2.tx.database) :
    (run.perform channel operation).2.Attentive store := by
  have he := operation.extends channel run.tx
  refine ⟨h.follows.extend he, fun usable => ?_⟩
  exact Operation.tended (h.follows.quiet quiet) (h.tended (he.usable usable)) usable heeds

lemma renew (h : run.Attentive store) (hs : store.database.Sound) (task : TaskId)
    (worker : WorkerId) (lease : Duration) : (run.renew task worker lease).Attentive store := by
  have follows := h.follows.renew hs task worker lease
  rcases OpenRun.renew_cases h.follows.calm (h.follows.outside.sound hs)
    (h.follows.inside.sound hs) task worker lease with hr | ⟨deadline, -, -, -, hr⟩
  · rw [hr]
    exact h
  · refine ⟨follows, ?_⟩
    rw [hr]
    exact fun usable => (h.tended usable).renewed task worker _ deadline

lemma beating (h : run.Attentive store) (hs : store.database.Sound) (task : ClaimedTask)
    (beats : Nat → List Beat) (millis : Nat) :
    (Surroundings.beating task beats millis run).Attentive store :=
  Surroundings.beating_keeps (fun _ micros h => ⟨h.follows.advance micros, h.tended⟩)
    (fun _ lease h => h.renew hs task.id task.worker lease) beats millis run h

/-- A heedful program keeps waiting tasks attended. -/
theorem execute (quiet : store.begin.Quiet) (task : ClaimedTask) (beats : Nat → List Beat)
    (program : Program) :
    ∀ run : OpenRun, run.Attentive store → program.Heedful (.beating task beats) channel run →
      (program.execute (.beating task beats) channel run).run.Attentive store := by
  induction program with
  | finish outcome => exact fun run h _ => h
  | panic text => exact fun run h _ => h
  | perform operation next ih =>
      exact fun run h heedful => ih _ _ (h.perform quiet heedful.1) heedful.2
  | pause millis next ih =>
      exact fun run h heedful => ih _ (h.beating quiet.sound task beats millis) heedful
  | stop next ih => exact ih

end OpenRun.Attentive

/-! ### Calls -/

/-- The heedful steps of an explicit transaction keep waiting tasks attended, as long as it
can go on. -/
lemma Session.tended_through (steps : List TransactionStep) :
    ∀ (session : Session) (tx : Transaction), session.open? = some tx → tx.Quiet →
      (tx.aborted = false → tx.database.Tended) → tx.Heedful session.channel steps →
      ∃ after : Transaction, (session.through steps).2.open? = some after ∧
        (after.aborted = false → after.database.Tended) := by
  induction steps with
  | nil => exact fun session tx h _ tended _ => ⟨tx, h, tended⟩
  | cons step rest ih =>
      intro session tx h quiet tended heedful
      cases step with
      | perform operation =>
          have he := operation.extends session.channel tx
          obtain ⟨heeds, hrest⟩ := heedful
          obtain ⟨after, hopen, hafter⟩ := ih
            { session with open? := some ((operation.action session.channel).run tx).2 } _ rfl
            (quiet.extend he)
            (fun usable => Operation.tended quiet (tended (he.usable usable)) usable heeds) hrest
          refine ⟨after, ?_, hafter⟩
          simpa only [through, perform_of_open h] using hopen
      | pass micros =>
          exact ih { session with store := session.store.advance micros } tx h quiet tended heedful

namespace Store

variable {store : Store} {channel : Channel}

/-- A commit keeps waiting tasks attended, if its transaction does. -/
lemma tended_commit (tended : store.database.Tended) {tx : Transaction}
    (h : tx.aborted = false → store.database.Heeds tx.database → tx.database.Tended)
    (heeds : store.database.Heeds (store.commit tx).store.database) :
    (store.commit tx).store.database.Tended := by
  by_cases hl : tx.Lands
  · rw [store.commit_of_lands hl] at heeds ⊢
    exact h hl.1 heeds
  · obtain ⟨-, fault, -, hstore⟩ := store.commit_of_not_lands hl
    rw [hstore]
    exact tended

/-- So does an action in a transaction of its own. -/
lemma tended_transact {ε α : Type} (tended : store.database.Tended) (refused : SqlState → ε)
    {action : Action ε α}
    (h : (action.run store.begin).2.aborted = false →
      store.database.Heeds (action.run store.begin).2.database →
        (action.run store.begin).2.database.Tended)
    (heeds : store.database.Heeds (store.transact refused action).store.database) :
    (store.transact refused action).store.database.Tended := by
  rw [transact] at heeds ⊢
  cases hrun : action.run store.begin with
  | mk result tx =>
      rw [hrun] at h heeds
      cases result with
      | error e => exact tended
      | ok a => exact tended_commit tended h heeds

/-- A claim keeps waiting tasks attended: the task that it gives was not waiting. -/
lemma tended_claim (tended : store.database.Tended) (types : List String) (worker : WorkerId)
    (lease : Duration) : (store.claim types worker lease).store.database.Tended := by
  rcases store.claim_cases types worker lease with
    ⟨row, deadline, state, ho, -, -, hreply⟩ | ⟨-, -, fault, -, hstore⟩
  · rw [hreply]
    exact tended.change (fun _ _ _ => ⟨rfl, fun _ => rfl⟩) fun _ _ _ => rfl
  · rw [hstore]
    exact tended

variable (quiet : store.begin.Quiet) (tended : store.database.Tended)
include quiet tended

/-- So does a renewal. -/
lemma tended_renew (task : TaskId) (worker : WorkerId) (lease : Duration) :
    (store.renew task worker lease).store.database.Tended := by
  rw [(Store.beside_renew quiet.fault task worker lease).database]
  exact tended.renewAll task worker _

/-- So does a heedful operation. -/
lemma tended_perform (operation : Operation)
    (heeds : store.database.Heeds (store.perform channel operation).store.database) :
    (store.perform channel operation).store.database.Tended := by
  rw [perform] at heeds ⊢
  by_cases htx : operation.isTransactional = true
  · rw [if_pos htx] at heeds ⊢
    exact tended_transact tended _
      (fun usable heeds => Operation.tended quiet tended usable heeds) heeds
  · rw [if_neg htx]
    have hdb := Operation.database_of_single (by simpa using htx) channel store.begin
    rw [autocommit]
    split <;> rename_i hrun
    · exact tended
    · rw [hrun] at hdb
      dsimp only at hdb ⊢
      rw [hdb]
      exact tended

/-- So does the heedful end of a run in a transaction of its own. -/
lemma tended_finish (task : TaskId) (worker : WorkerId) (outcome : Outcome)
    (heeds : store.database.Heeds (store.finish channel task worker outcome).store.database) :
    (store.finish channel task worker outcome).store.database.Tended :=
  tended_transact tended _
    (fun _ heeds => TaskAction.tended_finish quiet tended rfl task worker outcome heeds)
    heeds

/-- So does the run of a heedful handler. -/
lemma tended_run (handler : Handler) (task : ClaimedTask) (earlierRuns : Nat)
    (beats : Nat → List Beat)
    (heedful : Call.Heedful channel store (.run handler task earlierRuns beats)) :
    (store.runBeating channel handler task earlierRuns beats).store.database.Tended := by
  rcases store.runBeating_cases channel handler task earlierRuns beats with
    ⟨outcome, hc, hspared⟩ | ⟨-, -, nextId, fault, -, -, hstore⟩
  · have hreply := store.runBeating_of_commits channel handler task earlierRuns beats hc hspared
    obtain ⟨hprogram, heeds⟩ := heedful (by rw [hreply]; rfl)
    have attentive : (OpenRun.start store).Attentive store := ⟨.start store, fun _ => tended⟩
    have hview := attentive.execute quiet task beats (handler ⟨task, channel, earlierRuns⟩) _
      hprogram
    rw [hreply] at heeds ⊢
    exact (hview.tended hc.applies.usable).settled (hview.follows.quiet quiet).sound
      hc.applies.held store.clock heeds
  · rw [hstore]
    exact tended.renewAll task.id task.worker _

/-- So does a heedful explicit transaction. -/
lemma tended_transaction (steps : List TransactionStep) (keep : Bool)
    (heedful : Call.Heedful channel store (.transaction steps keep)) :
    (store.transaction channel steps keep).database.Tended := by
  obtain ⟨tx, he, micros, hopened⟩ := store.opened_eq channel steps
  rw [transaction_eq hopened]
  cases keep with
  | false => exact tended
  | true =>
      rw [if_pos rfl]
      by_cases hl : tx.Lands
      · have hlands : store.lands channel steps true = true := by
          simpa [lands, hopened] using hl
        obtain ⟨after, hopen, hafter⟩ := Session.tended_through steps
          (Session.mk store channel none).begin store.begin rfl quiet (fun _ => tended)
          (heedful hlands)
        have hsame : after = tx := eq_of_opened hopened hopen
        rw [commit_of_lands _ hl, ← hsame]
        exact hafter (hsame ▸ hl.1)
      · obtain ⟨-, fault, -, hstore⟩ := (store.advance micros).commit_of_not_lands hl
        rw [hstore]
        exact tended

end Store

/-- Every heedful call keeps waiting tasks attended. -/
theorem Call.tended_next (call : Call) {channel : Channel} {store : Store}
    (quiet : store.begin.Quiet) (tended : store.database.Tended)
    (heedful : call.Heedful channel store) : (call.next channel store).database.Tended := by
  cases call with
  | perform operation => exact Store.tended_perform quiet tended operation heedful
  | claim types worker lease => exact Store.tended_claim tended types worker lease
  | renew task worker lease => exact Store.tended_renew quiet tended task worker lease
  | finish task worker outcome => exact Store.tended_finish quiet tended task worker outcome heedful
  | run handler task earlierRuns beats =>
      exact Store.tended_run quiet tended handler task earlierRuns beats heedful
  | transaction steps keep => exact Store.tended_transaction quiet tended steps keep heedful
  | pass micros => exact tended

/-! ### Whole runs -/

namespace Store

lemma Heedful.append {store : Store} {channel : Channel} {first rest : List Call}
    (h : store.Heedful channel (first ++ rest)) :
    store.Heedful channel first ∧ (store.play channel first).Heedful channel rest := by
  induction first generalizing store with
  | nil => exact ⟨trivial, h⟩
  | cons call first ih =>
      obtain ⟨hcall, hrest⟩ := h
      exact ⟨⟨hcall, (ih hrest).1⟩, (ih hrest).2⟩

/-- Behind a heedful run all waiting tasks are attended. -/
lemma Heedful.tended {clock : Micros} {channel : Channel} {calls : List Call}
    (h : (initial clock).Heedful channel calls) :
    ((initial clock).play channel calls).database.Tended := by
  induction calls using List.reverseRecOn with
  | nil =>
      intro row hrow
      rw [play_nil, initial_rows] at hrow
      cases hrow
  | append_singleton calls call ih =>
      obtain ⟨hbefore, hcall⟩ := h.append
      rw [play_concat]
      exact call.tended_next (play_quiet clock channel calls) (ih hbefore) hcall.1

/-- No task waits in vain. In a run from the empty store in which tasks begin to wait only
while they have a child that is not at an end, every waiting task has such a child in every
store on the way. So a task does not go on waiting when the last of its children completes,
fails or is cancelled. -/
theorem play_tended (clock : Micros) (channel : Channel) (calls : List Call)
    (h : (initial clock).Heedful channel calls) (n : Nat) :
    ∀ row ∈ ((initial clock).play channel (calls.take n)).database.rows,
      row.hasStatus .waiting = true →
        ∃ child ∈ ((initial clock).play channel (calls.take n)).database.rows,
          child.parent = some row.id ∧ child.isLive = true := by
  have hsplit : (initial clock).Heedful channel (calls.take n ++ calls.drop n) := by
    rwa [List.take_append_drop]
  exact Heedful.tended (Heedful.append hsplit).1

/-- A parent that waits for the child that its handler has created, until the child is
completed. -/
def family : List Call :=
  [.perform (.create "parent" none),
    .claim ["parent"] "first" (.ofSeconds 60),
    .run (fun _ => .perform (.createChild 1 "child" none) fun _ => .finish (.waiting none))
      ⟨1, "parent", .emptyObject, "first"⟩ 0 fun _ => [],
    .claim ["child"] "second" (.ofSeconds 60),
    .finish 2 "second" .completed]

theorem family_tended :
    (initial 0).Heedful .standard family ∧
      (((initial 0).play .standard (family.take 4)).database.rows.map Row.status =
        [.known .waiting, .known .running]) ∧
      ∀ row ∈ ((initial 0).play .standard (family.take 4)).database.rows,
        row.hasStatus .waiting = true →
          ∃ child ∈ ((initial 0).play .standard (family.take 4)).database.rows,
            child.parent = some row.id ∧ child.isLive = true := by
  have heedful : (initial 0).Heedful .standard family := by
    refine ⟨?_, trivial, fun _ => ⟨⟨?_, trivial⟩, ?_⟩, trivial, ?_, trivial⟩
    · show Database.Heeds _ _
      decide
    · decide
    · decide
    · show Database.Heeds _ _
      decide
  exact ⟨heedful, by rfl, play_tended 0 .standard family heedful 4⟩

end Store
end LeaseQueue
