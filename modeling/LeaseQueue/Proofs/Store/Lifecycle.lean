/-
The life of a task over whole runs.

* `Table.Moves`: acts one after another, each of which moves every row lawfully;
* `Program.acts`, `Call.acts`: the acts of a handler on its transaction, and of a call;
* `Program.moves`, `Session.moves_through`: open transactions are moved by their acts;
* `Call.moves_next`: every call moves the table by its acts, and by nothing else;
* `Store.play_lifecycle`: the life of every row, in every run.

What a handler or a client does in a transaction counts once it is committed; the renewals
beside the run of a handler count either way.
-/
import LeaseQueue.Proofs.Store.Move

namespace LeaseQueue

/-! ### Acts one after another -/

/-- Some acts one after another lead from one table to another, and each of them moves every
row lawfully. -/
inductive Table.Moves : Table → List Act → Table → Prop where
  | refl (table : Table) : Moves table [] table
  | cons {a b c : Table} {act : Act} {rest : List Act} (h : Table.Moved act a b)
      (h' : Moves b rest c) : Moves a (act :: rest) c

namespace Table.Moves

variable {a b c : Table} {act : Act} {first rest acts : List Act}

lemma single (h : Table.Moved act a b) : Moves a [act] b := .cons h (.refl b)

lemma append (h : Moves a first b) (h' : Moves b rest c) : Moves a (first ++ rest) c := by
  induction h with
  | refl => exact h'
  | cons hmoved _ ih => exact .cons hmoved (ih h')

/-- Acts take no row away, keep what a row is, and leave a row alone that is at its end. -/
lemma persists (h : Moves a acts b) :
    ∀ row ∈ a, ∃ next ∈ b, (next.id = row.id ∧ next.taskType = row.taskType ∧
      next.parent = row.parent ∧ next.created = row.created) ∧
      (row.isLive = false → next = row) := by
  induction h with
  | refl => exact fun row hrow => ⟨row, hrow, ⟨rfl, rfl, rfl, rfl⟩, fun _ => rfl⟩
  | cons hmoved _ ih =>
      intro row hrow
      obtain ⟨f, added, hafter, hlawful, -⟩ := hmoved
      have hstep := hlawful row hrow
      have hmem : f row ∈ _ := hafter ▸ List.mem_append_left added (List.mem_map_of_mem hrow)
      obtain ⟨next, hnext, ⟨hid, htype, hparent, hcreated⟩, hfrozen⟩ := ih (f row) hmem
      obtain ⟨hid', htype', hparent', hcreated'⟩ := hstep.same
      refine ⟨next, hnext, ⟨hid.trans hid', htype.trans htype', hparent.trans hparent',
        hcreated.trans hcreated'⟩, fun hends => ?_⟩
      have hsame := hstep.frozen hends
      rw [hsame] at hfrozen
      exact hfrozen hends

end Table.Moves

/-! ### The acts of a call -/

/-- A beat is the renewal of a lease, or nothing. -/
def Beat.act? (task : ClaimedTask) : Beat → Option Act
  | .pass _ => none
  | .renew _ => some (.renew task.id task.worker)

/-- A step of an explicit transaction is an operation, or nothing. -/
def TransactionStep.act? : TransactionStep → Option Act
  | .perform operation => some (.operation operation)
  | .pass _ => none

/-- The acts of a program on its transaction, with the renewals beside it. -/
def Program.acts (task : ClaimedTask) (beats : Nat → List Beat) (channel : Channel) :
    Program → OpenRun → List Act
  | .finish _, _ | .panic _, _ => []
  | .perform operation next, run =>
    let (answer, run) := run.perform channel operation
    .operation operation :: acts task beats channel (next answer) run
  | .pause millis next, run =>
    (beats millis).filterMap (Beat.act? task) ++
      acts task beats channel next (Surroundings.beating task beats millis run)
  | .stop next, run => acts task beats channel next run

/-- The acts of a call on the committed table. -/
def Call.acts (channel : Channel) (store : Store) : Call → List Act
  | .perform operation => [.operation operation]
  | .claim types worker _ => [.claim store.clock types worker]
  | .renew task worker _ => [.renew task worker]
  | .finish task worker outcome => [.operation (.finish task worker outcome)]
  | .run handler task earlierRuns beats =>
    match (store.runBeating channel handler task earlierRuns beats).answer,
      (store.executed channel handler task earlierRuns beats).ending with
    | .ok _, .finished outcome =>
      (handler ⟨task, channel, earlierRuns⟩).acts task beats channel (.start store) ++
        [.operation (.finish task.id task.worker outcome)]
    | _, _ =>
      (store.renewals channel handler task earlierRuns beats).map fun _ =>
        .renew task.id task.worker
  | .transaction steps keep =>
    if store.lands channel steps keep then steps.filterMap TransactionStep.act? else []
  | .pass _ => []

/-! ### Open transactions -/

/-- An operation in a transaction that can go on behind it. -/
lemma Operation.moved_run {channel : Channel} {tx : Transaction} (quiet : tx.Quiet)
    (known : tx.database.Known) (operation : Operation)
    (usable : ((operation.action channel).run tx).2.aborted = false) :
    Table.Moved (.operation operation) tx.database.rows
      ((operation.action channel).run tx).2.database.rows := by
  rw [operation.run_quiet quiet usable]
  exact Database.moved_performed quiet.sound known tx.now operation

namespace OpenRun

variable {store : Store} {run : OpenRun}

/-- A renewal beside the transaction. -/
lemma Follows.moved_renew (h : run.Follows store) (hs : store.database.Sound) (task : TaskId)
    (worker : WorkerId) (lease : Duration) :
    Table.Moved (.renew task worker) run.tx.database.rows
      (run.renew task worker lease).tx.database.rows := by
  rcases OpenRun.renew_cases h.calm (h.outside.sound hs) (h.inside.sound hs) task worker lease with
    hr | ⟨deadline, -, -, -, hr⟩
  · rw [hr]
    exact .refl _ _
  · rw [hr]
    exact Database.moved_renewed _ task worker _ deadline

/-- What happens beside the transaction in a pause. -/
lemma Follows.moves_beats (hs : store.database.Sound) (task : ClaimedTask) (beats : List Beat) :
    ∀ run : OpenRun, run.Follows store →
      (beats.foldl (OpenRun.beat task) run).Follows store ∧
        Table.Moves run.tx.database.rows (beats.filterMap (Beat.act? task))
          (beats.foldl (OpenRun.beat task) run).tx.database.rows := by
  induction beats with
  | nil => exact fun run h => ⟨h, .refl _⟩
  | cons beat rest ih =>
      intro run h
      cases beat with
      | pass micros => exact ih _ (h.advance micros)
      | renew lease =>
          obtain ⟨follows, moves⟩ := ih _ (h.renew hs task.id task.worker lease)
          exact ⟨follows, .cons (h.moved_renew hs task.id task.worker lease) moves⟩

/-- A transaction that can go on behind a program could go on before it. -/
lemma usable_of_execute {channel : Channel} {task : ClaimedTask} {beats : Nat → List Beat}
    (program : Program) {run : OpenRun}
    (usable : (program.execute (.beating task beats) channel run).run.tx.aborted = false) :
    run.tx.aborted = false := by
  by_contra haborted
  have hkept := @Program.execute_keeps (fun run => run.tx.aborted = true) (.beating task beats)
    channel (fun run operation h => (operation.extends channel run.tx).aborted h)
    (Surroundings.beating_keeps (fun _ _ h => h) (fun run lease h => ?_) beats) program run
    (by simpa using haborted)
  · rw [hkept] at usable
    cases usable
  · rw [renew]
    split
    · exact h
    · dsimp only
      split <;> exact h

end OpenRun

/-- The view of a transaction that can go on behind a program is moved by the acts of the
program. -/
theorem Program.moves {store : Store} (quiet : store.begin.Quiet) (known : store.database.Known)
    (channel : Channel) (task : ClaimedTask) (beats : Nat → List Beat) (program : Program) :
    ∀ run : OpenRun, run.Follows store →
      (program.execute (.beating task beats) channel run).run.tx.aborted = false →
      Table.Moves run.tx.database.rows (program.acts task beats channel run)
        (program.execute (.beating task beats) channel run).run.tx.database.rows := by
  induction program with
  | finish outcome => exact fun run _ _ => .refl _
  | panic text => exact fun run _ _ => .refl _
  | perform operation next ih =>
      intro run follows usable
      have hafter : ((operation.action channel).run run.tx).2.aborted = false :=
        OpenRun.usable_of_execute (next (run.perform channel operation).1) usable
      have hview := follows.inside.known quiet.sound known
      exact .cons (operation.moved_run (follows.quiet quiet) hview hafter)
        (ih _ _ (follows.extend (operation.extends channel run.tx)) usable)
  | pause millis next ih =>
      intro run follows usable
      obtain ⟨follows', moves⟩ :=
        OpenRun.Follows.moves_beats quiet.sound task (beats millis) run follows
      exact moves.append (ih _ follows' usable)
  | stop next ih => exact ih

/-- The view of an explicit transaction that can go on behind some steps is moved by their
acts. -/
lemma Session.moves_through (steps : List TransactionStep) :
    ∀ (session : Session) (tx : Transaction), session.open? = some tx → tx.Quiet →
      tx.database.Known →
      ∃ after : Transaction, (session.through steps).2.open? = some after ∧
        tx.Extends session.channel after ∧
        (after.aborted = false → Table.Moves tx.database.rows
          (steps.filterMap TransactionStep.act?) after.database.rows) := by
  induction steps with
  | nil => exact fun session tx h _ _ => ⟨tx, h, .refl tx, fun _ => .refl _⟩
  | cons step rest ih =>
      intro session tx h quiet known
      cases step with
      | perform operation =>
          have he := operation.extends session.channel tx
          have known' := he.writes.steps.known quiet.sound known
          obtain ⟨after, hopen, hafter, moves⟩ := ih
            { session with open? := some ((operation.action session.channel).run tx).2 } _ rfl
            (quiet.extend he) known'
          refine ⟨after, ?_, he.trans hafter, fun usable => ?_⟩
          · simpa only [through, perform_of_open h] using hopen
          · exact .cons (operation.moved_run quiet known (hafter.usable usable)) (moves usable)
      | pass micros =>
          exact ih { session with store := session.store.advance micros } tx h quiet known

/-! ### Calls -/

namespace Store

variable {store : Store} {channel : Channel}

variable (quiet : store.begin.Quiet) (known : store.database.Known)
include quiet known

lemma moved_perform (operation : Operation) :
    Table.Moved (.operation operation) store.database.rows
      (store.perform channel operation).store.database.rows := by
  rw [perform_quiet quiet]
  exact Database.moved_performed quiet.sound known store.clock operation

lemma moved_finish (task : TaskId) (worker : WorkerId) (outcome : Outcome) :
    Table.Moved (.operation (.finish task worker outcome)) store.database.rows
      (store.finish channel task worker outcome).store.database.rows := by
  have hmoved : Table.Moved _ _ (store.perform channel _).store.database.rows :=
    moved_perform quiet known (.finish task worker outcome)
  rwa [perform_finish] at hmoved

omit quiet known in
/-- Renewals of the lease of a task. -/
lemma moves_renewAll (database : Database) (task : TaskId) (worker : WorkerId)
    (renewals : List Renewal) :
    Table.Moves database.rows (renewals.map fun _ => .renew task worker)
      (database.renewAll task worker renewals).rows := by
  induction renewals generalizing database with
  | nil => exact .refl _
  | cons renewal rest ih => exact .cons (database.moved_renewed task worker _ _) (ih _)

lemma moves_run (handler : Handler) (task : ClaimedTask) (earlierRuns : Nat)
    (beats : Nat → List Beat) :
    Table.Moves store.database.rows
      (Call.acts channel store (.run handler task earlierRuns beats))
      (store.runBeating channel handler task earlierRuns beats).store.database.rows := by
  have sound : store.database.Sound := quiet.sound
  rcases store.runBeating_cases channel handler task earlierRuns beats with
    ⟨outcome, hc, hspared⟩ | ⟨⟨e, he⟩, -, nextId, fault, -, -, hstore⟩
  · have hreply := store.runBeating_of_commits channel handler task earlierRuns beats hc hspared
    have follows := (OpenRun.Follows.start store).execute sound channel task beats
      (handler ⟨task, channel, earlierRuns⟩)
    have moves := (handler ⟨task, channel, earlierRuns⟩).moves quiet known channel task beats
      (.start store) (.start store) hc.applies.usable
    have moved := Database.moved_settled (follows.inside.sound sound) hc.applies.held store.clock
      hc.applies.proper
    simp only [Call.acts, hreply, hc.ended]
    exact moves.append (.single moved)
  · simp only [Call.acts, he, hstore]
    exact moves_renewAll _ _ _ _

lemma moves_transaction (steps : List TransactionStep) (keep : Bool) :
    Table.Moves store.database.rows (Call.acts channel store (.transaction steps keep))
      (store.transaction channel steps keep).database.rows := by
  obtain ⟨tx, -, micros, hopened⟩ := store.opened_eq channel steps
  obtain ⟨after, hopen, -, moves⟩ := Session.moves_through steps
    (Session.mk store channel none).begin store.begin rfl quiet known
  have hsame : after = tx := eq_of_opened hopened hopen
  subst hsame
  rw [transaction_eq hopened]
  simp only [Call.acts, lands, hopened]
  cases keep with
  | false => exact .refl _
  | true =>
      by_cases hl : after.Lands
      · rw [if_pos rfl, commit_of_lands _ hl, if_pos (by simpa using hl)]
        exact moves hl.1
      · obtain ⟨-, fault, -, hstore⟩ := (store.advance micros).commit_of_not_lands hl
        rw [if_pos rfl, hstore, if_neg (by simpa using hl)]
        exact .refl _

end Store

/-- Every call moves the table by its acts, and by nothing else. -/
theorem Call.moves_next (call : Call) {channel : Channel} {store : Store}
    (quiet : store.begin.Quiet) (known : store.database.Known) :
    Table.Moves store.database.rows (call.acts channel store)
      (call.next channel store).database.rows := by
  have sound : store.database.Sound := quiet.sound
  cases call with
  | perform operation => exact .single (Store.moved_perform quiet known operation)
  | claim types worker lease =>
      refine .single ?_
      simp only [next]
      rcases store.claim_cases types worker lease with
        ⟨row, deadline, state, ho, -, -, hreply⟩ | ⟨-, -, fault, -, hstore⟩
      · obtain ⟨hrow, he⟩ := List.mem_filter.mp (Table.oldest?_mem ho)
        rw [hreply]
        exact Database.moved_claimed sound hrow he worker deadline
      · rw [hstore]
        exact .refl _ _
  | renew task worker lease =>
      refine .single ?_
      simp only [next]
      rcases store.renew_cases task worker lease with
        ⟨deadline, -, -, hreply⟩ | ⟨-, -, fault, -, hstore⟩
      · rw [hreply]
        exact Database.moved_renewed _ task worker _ deadline
      · rw [hstore]
        exact .refl _ _
  | finish task worker outcome => exact .single (Store.moved_finish quiet known task worker outcome)
  | run handler task earlierRuns beats =>
      exact Store.moves_run quiet known handler task earlierRuns beats
  | transaction steps keep => exact Store.moves_transaction quiet known steps keep
  | pass micros => exact .refl _

/-! ### Whole runs -/

namespace Store

variable (clock : Micros) (channel : Channel) (calls : List Call)

/-- A call of a run moves the table from the store before it to the one behind it. -/
lemma moves_take {n : Nat} {call : Call} (h : calls[n]? = some call) :
    Table.Moves ((initial clock).play channel (calls.take n)).database.rows
      (call.acts channel ((initial clock).play channel (calls.take n)))
      ((initial clock).play channel (calls.take (n + 1))).database.rows := by
  rw [List.take_add_one, h, Option.toList_some, play_concat]
  exact call.moves_next (play_quiet clock channel _) (play_known clock channel _)

/-- Some acts lead from one point of a run to a later one. -/
lemma moves_between {n m : Nat} (hle : n ≤ m) :
    ∃ acts, Table.Moves ((initial clock).play channel (calls.take n)).database.rows acts
      ((initial clock).play channel (calls.take m)).database.rows := by
  induction m, hle using Nat.le_induction with
  | base => exact ⟨[], .refl _⟩
  | succ m _ ih =>
      obtain ⟨acts, moves⟩ := ih
      cases hcall : calls[m]? with
      | some call => exact ⟨_, moves.append (moves_take clock channel calls hcall)⟩
      | none =>
          rw [List.take_add_one, hcall, Option.toList_none, List.append_nil]
          exact ⟨acts, moves⟩

/-- The life of a task. In every run from the empty store each call moves the rows by its acts
alone, and each act moves every row lawfully: along the ways from one status to another, with
a state that only its worker and a resumption of a waiting task write. Between any two points
of a run no row is taken away, none changes its number, its type, its parent or its time of
creation, and one that is completed or failed does not change at all. -/
theorem play_lifecycle :
    let store (n : Nat) := (initial clock).play channel (calls.take n)
    (∀ n call, calls[n]? = some call →
      Table.Moves (store n).database.rows (call.acts channel (store n))
        (store (n + 1)).database.rows) ∧
      ∀ n m, n ≤ m → ∀ row ∈ (store n).database.rows, ∃ next,
        (store m).database.rows.find? row.id = some next ∧
        (next.id = row.id ∧ next.taskType = row.taskType ∧ next.parent = row.parent ∧
          next.created = row.created) ∧
        (row.status = .known .completed ∨ row.status = .known .failed → next = row) := by
  intro store
  refine ⟨fun n call h => moves_take clock channel calls h, fun n m hle row hrow => ?_⟩
  obtain ⟨acts, moves⟩ := moves_between clock channel calls hle
  obtain ⟨next, hnext, hsame, hfrozen⟩ := moves.persists row hrow
  refine ⟨next, ?_, hsame, fun hs => hfrozen ?_⟩
  · rw [← hsame.1]
    exact (play_sound clock channel (calls.take m)).find?_eq hnext
  · rcases hs with hs | hs <;> rw [Row.isLive, hs] <;> rfl

end Store
end LeaseQueue
