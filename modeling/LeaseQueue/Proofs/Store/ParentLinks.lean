/-
The numbers of the rows, and the links to their parents.

* `GivenOut`: numbers in ascending order, from one on and before another;
* `Database.Grows`, `Database.Writes.grows`: what writes add to the numbers of the rows;
* `Deed.inserted`, `Call.inserted`: the numbers of the rows that are inserted, whether or not they
  stay;
* `Call.takes_next`: these are new, and behind the call the table has all of them or none;
* `Store.ReachedWith`: the stores that calls reach, with the rows that were inserted on the way;
* `Store.parents_rooted`: there every parent is an earlier row or the row itself, and the walk down
  the tree of a task finds each of its rows once, unless the task is its own parent;
* `Store.own_parent_inserted`: a row can be inserted as its own parent.

Every insertion uses a number up, so that the rows that were undone count as well.
-/
import LeaseQueue.Proofs.Store.Publication
import LeaseQueue.Proofs.Store.Walk

namespace LeaseQueue

/-! ### Numbers in ascending order -/

/-- Numbers that are given out in ascending order, from the first on and before the next. -/
structure GivenOut (first next : TaskId) (ids : List TaskId) : Prop where
  ascending : ids.Pairwise (· < ·)
  above : ∀ id ∈ ids, first ≤ id
  below : ∀ id ∈ ids, id < next
  le : first ≤ next

namespace GivenOut

variable {a b c : TaskId} {ids later : List TaskId}

lemma nil (h : a ≤ b) : GivenOut a b [] := ⟨.nil, by simp, by simp, h⟩

lemma append (h : GivenOut a b ids) (h' : GivenOut b c later) : GivenOut a c (ids ++ later) where
  ascending := List.pairwise_append.mpr
    ⟨h.ascending, h'.ascending, fun id hid other hother =>
      lt_of_lt_of_le (h.below id hid) (h'.above other hother)⟩
  above id hid := by
    rcases List.mem_append.mp hid with hid | hid
    · exact h.above id hid
    · exact h.le.trans (h'.above id hid)
  below id hid := by
    rcases List.mem_append.mp hid with hid | hid
    · exact lt_of_lt_of_le (h.below id hid) h'.le
    · exact h'.below id hid
  le := h.le.trans h'.le

lemma mono (h : GivenOut a b ids) (hle : b ≤ c) : GivenOut a c ids := by
  simpa using h.append (nil hle)

end GivenOut

/-! ### The numbers of the rows -/

namespace Database

/-- The numbers of the rows, in the order of the table. -/
def ids (database : Database) : List TaskId := database.rows.map Row.id

lemma ids_change {database : Database} {pick : Row → Bool} {f : Row → Row}
    (hf : ∀ row ∈ database.rows, pick row = true → (f row).id = row.id) :
    (database.change pick f).ids = database.ids := by
  rw [ids, rows_change, Table.update, List.map_map]
  refine List.map_congr_left fun row hrow => ?_
  by_cases hp : pick row = true
  · simp [hp, hf row hrow hp]
  · simp [hp]

lemma ids_renewAll (database : Database) (task : TaskId) (worker : WorkerId)
    (renewals : List Renewal) : (database.renewAll task worker renewals).ids = database.ids := by
  induction renewals generalizing database with
  | nil => rfl
  | cons renewal rest ih => exact (ih _).trans (ids_change fun _ _ _ => rfl)

/-- One database has the numbers of the rows of another one, and behind them numbers that were
given out in between. -/
structure Grows (before after : Database) (added : List TaskId) : Prop where
  ids : after.ids = before.ids ++ added
  given : GivenOut before.nextId after.nextId added

namespace Grows

variable {a b c : Database} {added later : List TaskId}

lemma refl (database : Database) : database.Grows database [] :=
  ⟨(List.append_nil _).symm, .nil le_rfl⟩

lemma trans (h : a.Grows b added) (h' : b.Grows c later) : a.Grows c (added ++ later) :=
  ⟨by rw [h'.ids, h.ids, List.append_assoc], h.given.append h'.given⟩

/-- Databases with the same numbers. -/
lemma congr (h : a.Grows b added) (hids : c.ids = b.ids) (hnext : c.nextId = b.nextId) :
    a.Grows c added :=
  ⟨hids.trans h.ids, by rw [hnext]; exact h.given⟩

end Grows

/-- Writes add the numbers that they take, and no others. -/
lemma Writes.grows {before after : Database} (h : before.Writes after) :
    ∃ added, before.Grows after added := by
  induction h with
  | refl => exact ⟨[], .refl before⟩
  | @tail database _ _ step ih =>
      obtain ⟨added, grows⟩ := ih
      cases step with
      | @insert table now taskType state parent ht hp =>
          refine ⟨added ++ [database.nextId], grows.trans ⟨?_, ?_⟩⟩
          · simp [Database.ids, rows, ht, Row.fresh]
          · exact ⟨List.pairwise_singleton _ _, by simp, by simp, (Int.lt_succ _).le⟩
      | skip hn => exact ⟨added, grows.ids, grows.given.mono hn⟩
      | change hc =>
          exact ⟨added, grows.congr (ids_change fun row hrow hp =>
            (hc row hrow hp).same_place.1) rfl⟩

/-- The numbers that are added are those of no row that was there. -/
lemma Grows.filter {database after : Database} {added : List TaskId}
    (h : database.Grows after added) (hs : database.Sound) :
    after.ids.filter (fun id => !database.rows.has id) = added := by
  have hold : database.ids.filter (fun id => !database.rows.has id) = [] := by
    refine List.filter_eq_nil_iff.mpr fun id hid => ?_
    obtain ⟨row, hrow, rfl⟩ := List.mem_map.mp hid
    simpa using Table.has_iff.mpr ⟨row, hrow, rfl⟩
  have hnew : added.filter (fun id => !database.rows.has id) = added := by
    refine List.filter_eq_self.mpr fun id hid => ?_
    have hmissing : ¬ database.rows.has id = true := by
      rw [Table.has_iff]
      rintro ⟨row, hrow, rfl⟩
      exact (h.given.above _ hid).not_gt (hs.below row hrow)
    simpa using hmissing
  rw [h.ids, List.filter_append, hold, hnew, List.nil_append]

end Database

/-! ### Inserted rows -/

/-- The numbers of the rows that an operation inserts, whether or not its transaction is kept. -/
def Deed.inserted (channel : Channel) (deed : Deed) : List TaskId :=
  ((deed.operation.action channel).run deed.tx).2.database.ids.filter
    fun id => !deed.tx.database.rows.has id

/-- The numbers of the rows that a call inserts, whether or not its transaction is kept. -/
def Call.inserted (channel : Channel) (store : Store) (call : Call) : List TaskId :=
  (call.deeds channel store).flatMap (Deed.inserted channel)

/-- An operation adds the numbers of the rows that it inserts. -/
lemma Deed.grows (channel : Channel) (deed : Deed) (hs : deed.tx.database.Sound) :
    deed.tx.database.Grows ((deed.operation.action channel).run deed.tx).2.database
      (deed.inserted channel) := by
  obtain ⟨added, grows⟩ := (deed.operation.extends channel deed.tx).writes.grows
  rw [inserted, grows.filter hs]
  exact grows

/-! ### Programs and explicit transactions -/

/-- A renewal beside a transaction keeps the numbers that it sees. -/
lemma OpenRun.Follows.ids_renew {store : Store} {run : OpenRun} (h : run.Follows store)
    (sound : store.database.Sound) (task : TaskId) (worker : WorkerId) (lease : Duration) :
    (run.renew task worker lease).tx.database.ids = run.tx.database.ids ∧
      (run.renew task worker lease).tx.database.nextId = run.tx.database.nextId := by
  rcases OpenRun.renew_cases h.calm (h.outside.sound sound) (h.inside.sound sound) task worker
    lease with hr | ⟨deadline, -, -, -, hr⟩
  · rw [hr]
    exact ⟨rfl, rfl⟩
  · rw [hr]
    exact ⟨Database.ids_change fun _ _ _ => rfl, rfl⟩

/-- The operations of a program add the numbers of the rows that they insert. -/
lemma Program.grows {store : Store} (sound : store.database.Sound) (channel : Channel)
    (task : ClaimedTask) (beats : Nat → List Beat) (program : Program) :
    ∀ run : OpenRun, run.Follows store →
      run.tx.database.Grows
        (program.execute (.beating task beats) channel run).run.tx.database
        ((program.deeds (.beating task beats) channel run).flatMap (Deed.inserted channel)) := by
  induction program with
  | finish outcome | panic text => exact fun run _ => .refl run.tx.database
  | perform operation next ih =>
      intro run follows
      have hdeed := Deed.grows channel ⟨operation, run.tx⟩ (follows.inside.sound sound)
      exact hdeed.trans (ih _ _ (follows.extend (operation.extends channel run.tx)))
  | pause millis next ih =>
      intro run follows
      have hbeats : (Surroundings.beating task beats millis run).Follows store ∧
          (Surroundings.beating task beats millis run).tx.database.ids = run.tx.database.ids ∧
          (Surroundings.beating task beats millis run).tx.database.nextId =
            run.tx.database.nextId := by
        refine Surroundings.beating_keeps
          (P := fun after => after.Follows store ∧ after.tx.database.ids = run.tx.database.ids ∧
            after.tx.database.nextId = run.tx.database.nextId)
          (fun after micros h => ⟨h.1.advance micros, h.2⟩)
          (fun after lease h => ?_) beats millis run ⟨follows, rfl, rfl⟩
        obtain ⟨hids, hnext⟩ := h.1.ids_renew sound task.id task.worker lease
        exact ⟨h.1.renew sound task.id task.worker lease, hids.trans h.2.1, hnext.trans h.2.2⟩
      obtain ⟨follows', hids, hnext⟩ := hbeats
      have grows := ih _ follows'
      exact ⟨by rw [← hids]; exact grows.ids, by rw [← hnext]; exact grows.given⟩
  | stop next ih => exact ih

/-- The operations of an explicit transaction add the numbers of the rows that they insert. -/
lemma Session.grows_through (channel : Channel) (steps : List TransactionStep) :
    ∀ (session : Session) (tx : Transaction), session.channel = channel →
      session.open? = some tx → tx.database.Sound →
      ∃ after : Transaction, (session.through steps).2.open? = some after ∧
        tx.database.Grows after.database
          ((TransactionStep.deeds channel steps tx).flatMap (Deed.inserted channel)) := by
  induction steps with
  | nil => exact fun session tx _ hopen _ => ⟨tx, hopen, .refl tx.database⟩
  | cons step rest ih =>
      intro session tx hchannel hopen sound
      cases step with
      | perform operation =>
          subst hchannel
          have hextends := operation.extends session.channel tx
          have hdeed := Deed.grows session.channel ⟨operation, tx⟩ sound
          obtain ⟨after, hafter, grows⟩ := ih
            { session with open? := some ((operation.action session.channel).run tx).2 } _ rfl rfl
            (hextends.writes.sound sound)
          refine ⟨after, ?_, hdeed.trans grows⟩
          simpa only [through, perform_of_open hopen] using hafter
      | pass micros =>
          exact ih { session with store := session.store.advance micros } tx hchannel hopen sound

/-! ### Calls -/

namespace Store

/-- A transaction is kept or undone. -/
lemma database_commit (store : Store) (tx : Transaction) :
    (store.commit tx).store.database = tx.database ∨
      (store.commit tx).store.database = store.database.undo tx.database := by
  by_cases hl : tx.Lands
  · rw [store.commit_of_lands hl]
    exact .inl rfl
  · obtain ⟨-, fault, -, hstore⟩ := store.commit_of_not_lands hl
    rw [hstore]
    exact .inr rfl

lemma database_transact {ε α : Type} (store : Store) (refused : SqlState → ε)
    (action : Action ε α) :
    (store.transact refused action).store.database = (action.run store.begin).2.database ∨
      (store.transact refused action).store.database =
        store.database.undo (action.run store.begin).2.database := by
  rw [transact]
  split <;> rename_i hrun <;> rw [hrun]
  · exact .inr rfl
  · exact store.database_commit _

lemma database_autocommit {ε α : Type} (store : Store) (action : Action ε α) :
    (store.autocommit action).store.database = (action.run store.begin).2.database ∨
      (store.autocommit action).store.database =
        store.database.undo (action.run store.begin).2.database := by
  rw [autocommit]
  split <;> rename_i hrun <;> rw [hrun]
  · exact .inr rfl
  · exact .inl rfl

end Store

/-- The end of a run inserts nothing more, and the run is kept or undone. -/
lemma Execution.grows_finish (execution : Execution) (context : RunContext)
    (sound : execution.run.tx.database.Sound) :
    ∃ inside, execution.run.tx.database.Grows inside
        ((execution.deeds context.task).flatMap (Deed.inserted context.channel)) ∧
      ((execution.finish context).store.database = inside ∨
        (execution.finish context).store.database =
          execution.run.store.database.undo inside) := by
  rw [finish, deeds]
  cases execution.ending with
  | panicked text => exact ⟨execution.run.tx.database, .refl _, .inr rfl⟩
  | finished outcome =>
      have grows := Deed.grows context.channel
        ⟨.finish context.task.id context.task.worker outcome, execution.run.tx⟩ sound
      simp only [Operation.action, Action.run_map] at grows
      simp only [Ending.outcome?, List.flatMap_singleton]
      refine ⟨_, grows, ?_⟩
      split <;> rename_i hrun <;> rw [hrun]
      · exact .inr rfl
      · exact execution.run.store.database_commit _

/-- The table has all rows that were inserted, or none of them. Their numbers are used up. -/
structure Database.Takes (before after : Database) (inserted : List TaskId) : Prop where
  ids : after.ids = before.ids ∨ after.ids = before.ids ++ inserted
  given : GivenOut before.nextId after.nextId inserted

namespace Database.Takes

variable {before outside inside after : Database} {inserted : List TaskId}

/-- Databases with the same numbers. -/
lemma same (hids : after.ids = before.ids) (hnext : after.nextId = before.nextId) :
    before.Takes after [] :=
  ⟨.inl hids, by rw [hnext]; exact .nil le_rfl⟩

/-- What grows inside a transaction is kept or undone. -/
lemma ofEnd (h : before.Grows inside inserted) (hids : outside.ids = before.ids)
    (hend : after = inside ∨ after = outside.undo inside) : before.Takes after inserted := by
  rcases hend with rfl | rfl
  · exact ⟨.inr h.ids, h.given⟩
  · exact ⟨.inl hids, h.given⟩

end Database.Takes

namespace Store

variable {store : Store} (sound : store.database.Sound) (channel : Channel)
include sound

lemma takes_perform (operation : Operation) :
    store.database.Takes (store.perform channel operation).store.database
      ((Call.perform operation).inserted channel store) := by
  have grows := Deed.grows channel ⟨operation, store.begin⟩ sound
  simp only [Call.inserted, Call.deeds, List.flatMap_singleton]
  rw [perform]
  split
  · exact .ofEnd grows rfl (store.database_transact _ _)
  · exact .ofEnd grows rfl (store.database_autocommit _)

lemma takes_finish (task : TaskId) (worker : WorkerId) (outcome : Outcome) :
    store.database.Takes (store.finish channel task worker outcome).store.database
      ((Call.finish task worker outcome).inserted channel store) := by
  have grows := Deed.grows channel ⟨.finish task worker outcome, store.begin⟩ sound
  simp only [Operation.action, Action.run_map] at grows
  simp only [Call.inserted, Call.deeds, List.flatMap_singleton]
  exact .ofEnd grows rfl (store.database_transact _ _)

lemma takes_run (handler : Handler) (task : ClaimedTask) (earlierRuns : Nat)
    (beats : Nat → List Beat) :
    store.database.Takes (store.runBeating channel handler task earlierRuns beats).store.database
      ((Call.run handler task earlierRuns beats).inserted channel store) := by
  have follows := OpenRun.Follows.start store
  have grows := (handler ⟨task, channel, earlierRuns⟩).grows sound channel task beats
    (.start store) follows
  have ending := follows.execute sound channel task beats (handler ⟨task, channel, earlierRuns⟩)
  obtain ⟨inside, grows', hend⟩ :=
    (store.executed channel handler task earlierRuns beats).grows_finish
      ⟨task, channel, earlierRuns⟩ (ending.inside.sound sound)
  -- beside the run the lease of its task is renewed, which keeps the numbers
  have beside := store.executed_beside channel handler task earlierRuns beats
  have hids : (store.executed channel handler task earlierRuns beats).run.store.database.ids =
      store.database.ids := by
    rw [beside.database, Database.ids_renewAll]
  simp only [Call.inserted, Call.deeds, List.flatMap_append]
  exact .ofEnd (grows.trans grows') hids hend

lemma takes_transaction (steps : List TransactionStep) (keep : Bool) :
    store.database.Takes (store.transaction channel steps keep).database
      ((Call.transaction steps keep).inserted channel store) := by
  obtain ⟨tx, -, micros, hopened⟩ := store.opened_eq channel steps
  obtain ⟨after, hopen, grows⟩ := Session.grows_through channel steps
    (Session.mk store channel none).begin store.begin rfl rfl sound
  have hsame : after = tx := eq_of_opened hopened hopen
  subst hsame
  refine .ofEnd grows rfl ?_
  rw [transaction_eq hopened]
  split
  · exact (store.advance micros).database_commit after
  · exact .inr rfl

end Store

/-- The numbers of the rows that a call inserts are new. Behind the call the table has all of
these rows, or none. -/
theorem Call.takes_next (call : Call) (channel : Channel) {store : Store}
    (sound : store.database.Sound) :
    store.database.Takes (call.next channel store).database (call.inserted channel store) := by
  cases call with
  | perform operation => exact Store.takes_perform sound channel operation
  | claim types worker lease =>
      simp only [next]
      rcases store.claim_cases types worker lease with
        ⟨row, deadline, state, -, -, -, hreply⟩ | ⟨-, -, fault, -, hstore⟩
      · rw [hreply]
        exact .same (Database.ids_change fun _ _ _ => rfl) rfl
      · rw [hstore]
        exact .same rfl rfl
  | renew task worker lease =>
      simp only [next]
      rcases store.renew_cases task worker lease with
        ⟨deadline, -, -, hreply⟩ | ⟨-, -, fault, -, hstore⟩
      · rw [hreply]
        exact .same (Database.ids_change fun _ _ _ => rfl) rfl
      · rw [hstore]
        exact .same rfl rfl
  | finish task worker outcome => exact Store.takes_finish sound channel task worker outcome
  | run handler task earlierRuns beats =>
      exact Store.takes_run sound channel handler task earlierRuns beats
  | transaction steps keep => exact Store.takes_transaction sound channel steps keep
  | pass micros => exact .same rfl rfl

/-! ### Reached stores -/

/-- The stores that calls reach from the empty one, with any failures planned on the way, and the
numbers of all rows that were ever inserted, in the order of their insertion. -/
inductive Store.ReachedWith (channel : Channel) : List TaskId → Store → Prop where
  | initial (clock : Micros) : ReachedWith channel [] (.initial clock)
  | call {inserted : List TaskId} {store : Store} (h : ReachedWith channel inserted store)
      (call : Call) :
      ReachedWith channel (inserted ++ call.inserted channel store) (call.next channel store)
  | plan {inserted : List TaskId} {store : Store} (h : ReachedWith channel inserted store)
      (fault : Option PlannedFault) : ReachedWith channel inserted { store with fault }

namespace Store

variable {channel : Channel} {inserted : List TaskId} {store : Store}

lemma ReachedWith.sound (h : store.ReachedWith channel inserted) : store.database.Sound := by
  induction h with
  | initial clock => exact initial_sound clock
  | call _ call ih => exact (call.steps_next channel ih).sound ih
  | plan _ _ ih => exact ih

/-- The numbers of the rows that some calls insert, one call after the other. -/
def insertedBy (channel : Channel) : List Call → Store → List TaskId
  | [], _ => []
  | call :: rest, store =>
    call.inserted channel store ++ insertedBy channel rest (call.next channel store)

lemma ReachedWith.play (h : store.ReachedWith channel inserted) (calls : List Call) :
    (store.play channel calls).ReachedWith channel
      (inserted ++ insertedBy channel calls store) := by
  induction calls generalizing store inserted with
  | nil => simpa [insertedBy] using h
  | cons call rest ih =>
      have hrest := ih (h.call call)
      rwa [List.append_assoc] at hrest

lemma reachedWith_play (clock : Micros) (channel : Channel) (calls : List Call) :
    ((initial clock).play channel calls).ReachedWith channel
      (insertedBy channel calls (initial clock)) :=
  (ReachedWith.initial clock).play calls

/-- All rows were inserted on the way, and their numbers were given out one after the other. -/
lemma ReachedWith.ids (h : store.ReachedWith channel inserted) :
    GivenOut 1 store.database.nextId inserted ∧ store.database.ids.Sublist inserted := by
  induction h with
  | initial clock =>
      refine ⟨.nil (by simp [initial_eq]), ?_⟩
      rw [Database.ids, initial_rows]
      exact .slnil
  | call reached call ih =>
      obtain ⟨given, sublist⟩ := ih
      have takes := call.takes_next channel reached.sound
      refine ⟨given.append takes.given, ?_⟩
      rcases takes.ids with hids | hids
      · rw [hids]
        exact sublist.trans (List.sublist_append_left _ _)
      · rw [hids]
        exact sublist.append (List.Sublist.refl _)
  | plan _ _ ih => exact ih

/-- The links to parents in every reached store. A row is inserted with a larger number than all
rows before it, also those that were undone, so that no two rows have the same number. A parent is
a row with a smaller number, or the task itself: there is no other circle of parents. The walk down
the tree of a task ends in as many rounds as there are rows, and finds each row of the tree once
and no other row. For a task that is its own parent it has no end. -/
theorem parents_rooted (h : store.ReachedWith channel inserted) :
    let table := store.database.rows
    inserted.Pairwise (· < ·) ∧ (table.map Row.id).Sublist inserted ∧
      (∀ row ∈ table, ∀ parent ∈ row.parent, parent ≤ row.id ∧ ∃ other ∈ table, other.id = parent) ∧
      (∀ row ∈ table, ∀ parent ∈ row.parent, table.Under row.id parent → parent = row.id) ∧
      ∀ root : TaskId,
        let first := table.filter fun row => row.id == root
        if table.IsOwnParent root then ∀ rounds, Database.walk table rounds first = none
        else
          ∃ edges, Database.walk table table.length first = some edges ∧
            (edges.map Prod.fst).Nodup ∧
            ∀ id, id ∈ edges.map Prod.fst ↔ table.Under root id := by
  intro table
  obtain ⟨given, sublist⟩ := h.ids
  have sound := h.sound
  refine ⟨given.ascending, sublist, sound.rooted, ?_, fun root => ?_⟩
  · intro row hrow parent hparent hu
    exact le_antisymm (sound.rooted row hrow parent hparent).1 (sound.root_le hu)
  · dsimp only
    split
    · rename_i hown
      exact Database.walk_eq_none hown
    · rename_i hown
      refine ⟨_, sound.walk_eq_some hown, sound.nodup_walk hown, fun id => ?_⟩
      exact sound.mem_treeEdges_fst_iff hown

/-- A task, an insertion that is refused, a transaction that is undone, a child of the task, and a
task that is its own parent. -/
def linked : List Call :=
  [.perform (.create "job" none), .perform (.createChild 9 "job" none),
    .transaction [.perform (.create "job" none), .perform (.createChild 3 "job" none)] false,
    .perform (.createChild 1 "job" none), .perform (.createChild 6 "job" none)]

/-- The refused insertion and those that are undone use their numbers up. The walk down the tree of
the task finds the task and its child. -/
theorem linked_parents_rooted :
    let store := (initial 0).play .standard linked
    let table := store.database.rows
    store.ReachedWith .standard [1, 3, 4, 5, 6] ∧
      table.map (fun row => (row.id, row.parent)) = [(1, none), (5, some 1), (6, some 6)] ∧
      (table.map Row.id).Sublist [1, 3, 4, 5, 6] ∧
      ∃ edges, Database.walk table 3 (table.filter fun row => row.id == 1) = some edges ∧
        (edges.map Prod.fst).Nodup := by
  intro store table
  have reached : store.ReachedWith .standard [1, 3, 4, 5, 6] := by
    have h := reachedWith_play 0 .standard linked
    rwa [show insertedBy .standard linked (initial 0) = [1, 3, 4, 5, 6] by decide +kernel] at h
  have htable : table.map (fun row => (row.id, row.parent)) =
      [(1, none), (5, some 1), (6, some 6)] := by decide +kernel
  have hown : ¬ table.IsOwnParent 1 := by decide +kernel
  obtain ⟨-, sublist, -, -, walks⟩ := parents_rooted reached
  have hwalk := walks 1
  rw [if_neg hown] at hwalk
  obtain ⟨edges, hedges, hnodup, -⟩ := hwalk
  exact ⟨reached, htable, sublist, edges, hedges, hnodup⟩

/-- The first row can be inserted as its own parent: the parent is looked for behind the insertion.
The walk down its tree has no end. -/
theorem own_parent_inserted :
    let store := (initial 0).play .standard [.perform (.createChild 1 "job" none)]
    let table := store.database.rows
    store.ReachedWith .standard [1] ∧
      ¬ (∀ row ∈ table, ∀ parent ∈ row.parent,
        parent < row.id ∧ ∃ other ∈ table, other ≠ row ∧ other.id = parent) ∧
      ∀ rounds, Database.walk table rounds (table.filter fun row => row.id == 1) = none := by
  intro store table
  have hrows : table = [.fresh 0 1 "job" Json.emptyObject (some 1)] := by rfl
  refine ⟨?_, ?_, ?_⟩
  · have h := reachedWith_play 0 .standard [.perform (.createChild 1 "job" none)]
    rwa [show insertedBy .standard _ (initial 0) = [1] by decide +kernel] at h
  · intro h
    rw [hrows] at h
    exact absurd (h _ (List.mem_singleton_self _) 1 rfl).1 (by decide)
  · exact Database.walk_eq_none (hrows ▸ ⟨_, List.mem_singleton_self _, rfl, rfl⟩)

end Store
end LeaseQueue
