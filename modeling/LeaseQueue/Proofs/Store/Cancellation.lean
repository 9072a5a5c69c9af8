/-
The cancellation of a tree, in a transaction that can go on and meets no failure.

* `root_mem_cancellationOrder`: a root is cancelled with its tree;
* `Database.outsideParent_eq`: the parent of a root lies outside of its tree;
* `Database.cancelAll`, `Database.treeCancelled`: some tasks cancelled, and a whole tree with
  the parent of its root resumed;
* `Database.liveAmong`, `Database.cancelledParent?`: how many tasks of a tree there are to
  cancel, and the parent that is resumed;
* `TaskAction.run_cancel`, `TaskAction.run_cancel_missing`, `TaskAction.run_cancel_endless`: a
  cancellation leaves just that, and a task that is not there or is its own parent is not
  cancelled.
-/
import LeaseQueue.Proofs.Store.Finish
import LeaseQueue.Proofs.Store.Walk

namespace LeaseQueue

/-! ### The order of cancellation -/

lemma root_mem_cancellationOrder (root : TaskId) (edges : List Edge) :
    root ∈ cancellationOrder root edges := by
  rw [cancellationOrder_eq_postOrder]
  cases (Forest.below root edges).length <;> simp [Forest.postOrder]

namespace Database

/-! ### The parent of a root -/

/-- The parent of a root lies outside of its tree. -/
lemma outsideParent_eq {database : Database} (hs : database.Sound) {row : Row}
    (hrow : row ∈ database.rows) (hown : ¬ database.rows.IsOwnParent row.id) :
    TaskAction.outsideParent row.id (treeEdges database.rows row.id) = row.parent := by
  have hfind : (treeEdges database.rows row.id).find? (fun edge => edge.1 == row.id) =
      some (row.id, row.parent) := by
    cases hf : (treeEdges database.rows row.id).find? (fun edge => edge.1 == row.id) with
    | none =>
        have := List.find?_eq_none.mp hf _ (hs.root_mem_treeEdges hown hrow)
        simp at this
    | some edge =>
        obtain ⟨other, hother, -, rfl⟩ :=
          (hs.mem_treeEdges_iff hown).mp (List.mem_of_find?_eq_some hf)
        have hid : other.id = row.id := by simpa using List.find?_some hf
        rw [hs.eq_of_id hother hrow hid]
  rw [TaskAction.outsideParent]
  rw [hfind]
  cases hp : row.parent with
  | none => simp
  | some parent =>
      have hne : parent ≠ row.id := by
        rintro rfl
        exact hown ⟨row, hrow, rfl, hp⟩
      have hlt := lt_of_le_of_ne (hs.rooted row hrow parent hp).1 hne
      have hout : (treeEdges database.rows row.id).any (fun edge => edge.1 == parent) =
          false := by
        refine List.any_eq_false.mpr fun edge hedge => ?_
        obtain ⟨other, -, hu, rfl⟩ := (hs.mem_treeEdges_iff hown).mp hedge
        simpa using (lt_of_lt_of_le hlt (hs.root_le hu)).ne'
      simp [hout]

/-! ### Cancelled trees -/

/-- Of some tasks those are cancelled that are not at an end. -/
def cancelAll (database : Database) (now : Micros) (ids : List TaskId) : Database :=
  database.change (fun row => ids.contains row.id && row.isLive) (Row.cancelled now)

lemma cancelAll_nil (database : Database) (now : Micros) : database.cancelAll now [] = database :=
  change_eq_self fun row _ hp => by simp at hp

lemma cancelAll_cons (database : Database) (now : Micros) (id : TaskId) (rest : List TaskId) :
    database.cancelAll now (id :: rest) =
      (database.change (Table.only id Row.isLive) (Row.cancelled now)).cancelAll now rest := by
  obtain ⟨_ | table, nextId, migrations⟩ := database
  · rfl
  · simp only [cancelAll, change, Option.map_some, Table.update, List.map_map]
    congr 2
    refine List.map_congr_left fun row _ => ?_
    by_cases hl : row.isLive = true
    · by_cases hid : row.id = id
      · -- a task that was cancelled is at an end
        have hend : (row.cancelled now).isLive = false := rfl
        simp [Table.only, hid, hl, hend]
      · simp [Table.only, hid, hl]
    · simp [Table.only, hl]

lemma writes_cancelAll (database : Database) (now : Micros) (ids : List TaskId) :
    database.Writes (database.cancelAll now ids) :=
  .single (.change fun _ _ hp => .cancelled (Bool.and_eq_true_iff.mp hp).2)

/-- The task is there and not at an end. -/
def Live (database : Database) (task : TaskId) : Prop :=
  ∃ row ∈ database.rows, row.id = task ∧ row.isLive = true

instance (database : Database) (task : TaskId) : Decidable (database.Live task) :=
  inferInstanceAs (Decidable (∃ row ∈ database.rows, row.id = task ∧ row.isLive = true))

/-- A task that was cancelled is at an end, and other tasks are what they were. -/
lemma live_cancelled {database : Database} {now : Micros} {id task : TaskId} :
    (database.change (Table.only id Row.isLive) (Row.cancelled now)).Live task ↔
      task ≠ id ∧ database.Live task := by
  constructor
  · rintro ⟨row, hrow, hid, hlive⟩
    rcases mem_change.mp hrow with ⟨hold, hp⟩ | ⟨old, -, -, rfl⟩
    · refine ⟨?_, row, hold, hid, hlive⟩
      rintro rfl
      simp [Table.only, hid, hlive] at hp
    · cases hlive
  · rintro ⟨hne, row, hrow, hid, hlive⟩
    refine ⟨row, ?_, hid, hlive⟩
    exact mem_change.mpr (.inl ⟨hrow, by simp [Table.only, hid, hne]⟩)

/-- A tree is cancelled. If its root was not at an end, a waiting parent is resumed. -/
def treeCancelled (database : Database) (now : Micros) (root : TaskId) : Database :=
  let edges := treeEdges database.rows root
  let cancelled := database.cancelAll now (cancellationOrder root edges)
  if database.Live root ∧ (TaskAction.outsideParent root edges).isSome then
    cancelled.parentResumed now root
  else cancelled

/-- The tasks of a tree, in the order in which they are cancelled. -/
def treeOrder (database : Database) (root : TaskId) : List TaskId :=
  cancellationOrder root (treeEdges database.rows root)

/-- The parent that is resumed by the cancellation of a tree. -/
def cancelledParent? (database : Database) (now : Micros) (root : TaskId) : Option TaskId :=
  if database.Live root ∧
      (TaskAction.outsideParent root (treeEdges database.rows root)).isSome then
    (database.cancelAll now (database.treeOrder root)).waitingParent? root
  else none

/-- How many of some tasks are not at an end. -/
def liveAmong (database : Database) (ids : List TaskId) : Nat :=
  database.rows.countP fun row => ids.contains row.id && row.isLive

/-- Of the tasks that are not at an end the first one is counted before it is cancelled, and
the others behind. -/
lemma liveAmong_cons {database : Database} (hs : database.Sound) (now : Micros) (id : TaskId)
    (rest : List TaskId) :
    database.liveAmong (id :: rest) =
      (database.change (Table.only id Row.isLive) (Row.cancelled now)).liveAmong rest +
        (database.rows.any (Table.only id Row.isLive)).toNat := by
  have hfirst := List.countP_eq_countP_filter_add database.rows
    (fun row => (id :: rest).contains row.id && row.isLive) (Table.only id Row.isLive)
  have hone : (database.rows.filter (Table.only id Row.isLive)).countP
      (fun row => (id :: rest).contains row.id && row.isLive) =
      (database.rows.any (Table.only id Row.isLive)).toNat := by
    rw [← hs.countP_only, List.countP_filter]
    refine List.countP_congr fun row _ => ?_
    simp only [Table.only, List.contains_cons, Bool.and_eq_true, Bool.or_eq_true, beq_iff_eq]
    tauto
  have hrest : (database.rows.filter fun row => !Table.only id Row.isLive row).countP
      (fun row => (id :: rest).contains row.id && row.isLive) =
      (database.change (Table.only id Row.isLive) (Row.cancelled now)).liveAmong rest := by
    rw [liveAmong, rows_change, Table.update, List.countP_map, List.countP_filter]
    refine List.countP_congr fun row _ => ?_
    by_cases hp : Table.only id Row.isLive row = true
    · -- a task that was cancelled is at an end
      have hend : (row.cancelled now).isLive = false := rfl
      simp [hp, hend]
    · have hne : row.isLive = true → row.id ≠ id := fun hl hid =>
        hp (Table.only_eq_true.mpr ⟨hid, hl⟩)
      simp only [hp, Function.comp_apply, List.contains_cons, Bool.and_eq_true, Bool.or_eq_true,
        beq_iff_eq, Bool.not_false, and_true, Bool.false_eq_true, if_false]
      tauto
  rw [liveAmong, hfirst, hone, hrest, add_comm]

end Database

/-! ### The operation -/

namespace TaskAction

variable {channel : Channel} {tx : Transaction}

/-- The statement that cancels one task. -/
lemma run_cancelTask (quiet : tx.Quiet) (ha : tx.aborted = false) (id : TaskId) :
    Action.run (Action.onTasks fun now database => database.cancelTask now id) tx =
      (.ok (tx.database.rows.any (Table.only id Row.isLive)),
        { tx with
          database := tx.database.change (Table.only id Row.isLive) (Row.cancelled tx.now) }) := by
  obtain ⟨table, ht⟩ := quiet.table
  refine Action.run_onTasks_ok ha (quiet.faultAt _) ?_
  obtain ⟨now, ⟨tasks, nextId, migrations⟩, published, aborted, fault⟩ := tx
  simp only at ht
  subst ht
  rfl

/-- Cancelling some tasks one by one counts those that were not at an end, and tells whether
the root was among them. -/
lemma run_cancelEach (root : TaskId) (ids : List TaskId) :
    ∀ tx : Transaction, tx.Quiet → tx.aborted = false →
      Action.run (cancelEach root ids) tx =
        (.ok (tx.database.liveAmong ids, decide (root ∈ ids ∧ tx.database.Live root)),
          { tx with database := tx.database.cancelAll tx.now ids }) := by
  induction ids with
  | nil =>
      intro tx _ _
      rw [Database.cancelAll_nil]
      simp [cancelEach, Database.liveAmong]
  | cons id rest ih =>
      intro tx quiet ha
      have hwrite := run_cancelTask quiet ha id
      have hlive : tx.database.rows.any (Table.only id Row.isLive) = true ↔
          tx.database.Live id := by
        rw [Table.any_only_iff, Database.Live]
      have quiet' : Transaction.Quiet { tx with
          database := tx.database.change (Table.only id Row.isLive) (Row.cancelled tx.now) } :=
        ⟨quiet.fault, by simpa [Database.change] using quiet.tasks,
          quiet.sound.change fun _ _ _ => ⟨rfl, rfl⟩⟩
      have hrest := ih _ quiet' ha
      have hroot : decide (root ∈ id :: rest ∧ tx.database.Live root) =
          (decide (root ∈ rest ∧ (tx.database.change (Table.only id Row.isLive)
              (Row.cancelled tx.now)).Live root) ||
            (tx.database.rows.any (Table.only id Row.isLive) && id == root)) := by
        rw [Bool.eq_iff_iff, Bool.or_eq_true, Bool.and_eq_true, hlive, decide_eq_true_iff,
          decide_eq_true_iff, Database.live_cancelled, beq_iff_eq, List.mem_cons]
        by_cases hid : id = root
        · subst hid
          simp
        · simp [hid, Ne.symm hid]
      rw [cancelEach, Action.run_bind, hwrite]
      dsimp only
      rw [Action.run_bind, hrest, Database.cancelAll_cons, hroot,
        Database.liveAmong_cons quiet.sound tx.now]
      rfl

/-- A question. -/
lemma run_ask {α : Type} (quiet : tx.Quiet) (ha : tx.aborted = false) (question : Table → α) :
    Action.run (Action.onTasks fun _ database => database.ask question) tx =
      (.ok (question tx.database.rows), tx) := by
  obtain ⟨table, ht⟩ := quiet.table
  refine Action.run_onTasks_ok ha (quiet.faultAt _) ?_
  obtain ⟨now, ⟨tasks, nextId, migrations⟩, published, aborted, fault⟩ := tx
  simp only at ht
  subst ht
  rfl

/-- The question for the edges of a tree, where the walk has an end. -/
lemma run_tree (quiet : tx.Quiet) (ha : tx.aborted = false) {root : TaskId} {edges : List Edge}
    (h : Database.walk tx.database.rows tx.database.rows.length
      (tx.database.rows.filter fun row => row.id == root) = some edges) :
    Action.run (Action.onTasks fun _ database => database.tree root) tx = (.ok edges, tx) := by
  obtain ⟨table, ht⟩ := quiet.table
  refine Action.run_onTasks_ok ha (quiet.faultAt _) ?_
  obtain ⟨now, ⟨tasks, nextId, migrations⟩, published, aborted, fault⟩ := tx
  simp only at ht
  subst ht
  have hwalk : Database.walk table table.length (table.filter fun row => row.id == root) =
      some edges := h
  simp only [Database.tree, Database.onTasks, hwalk]

/-- The question for the edges of a tree, where the walk has no end. -/
lemma run_tree_endless (quiet : tx.Quiet) (ha : tx.aborted = false) {root : TaskId}
    (hown : tx.database.rows.IsOwnParent root) :
    Action.run (Action.onTasks fun _ database => database.tree root) tx =
      (.error (.refused .queryCanceled), { tx with aborted := true }) := by
  obtain ⟨table, ht⟩ := quiet.table
  have hrows : tx.database.rows = table := by simp [Database.rows, ht]
  have hwalk := Database.walk_eq_none (hrows ▸ hown) table.length
  have hbody : tx.database.tree root = (.error .queryCanceled, tx.database) := by
    simp only [Database.tree, Database.onTasks, ht, hwalk]
  exact Action.run_onTasks_error ha (quiet.faultAt _) hbody

/-- A part that succeeds is not undone. -/
lemma run_savepoint_ok {α : Type} {action : TaskAction α} {a : α} {after : Transaction}
    (ha : tx.aborted = false) (h : Action.run action tx = (.ok a, after))
    (hafter : after.aborted = false) : Action.run action.savepoint tx = (.ok a, after) := by
  simp only [Action.run, Action.savepoint] at h ⊢
  simp only [ha, h, hafter, Bool.false_eq_true, if_false]

/-- A part that fails is undone. -/
lemma run_savepoint_error {α : Type} {action : TaskAction α} {e : TaskError} {after : Transaction}
    (ha : tx.aborted = false) (h : Action.run action tx = (.error e, after)) :
    Action.run action.savepoint tx = (.error e, tx.restore after) := by
  simp only [Action.run, Action.savepoint] at h ⊢
  simp only [ha, h, Bool.false_eq_true, if_false]

/-- The cancellation of a task that is not there. -/
theorem run_cancel_missing (quiet : tx.Quiet) (ha : tx.aborted = false) {id : TaskId}
    (h : ∀ row ∈ tx.database.rows, row.id ≠ id) :
    Action.run (cancel channel id) tx = (.error (.notFound id), tx) := by
  have htree : Action.run (cancelTree channel id) tx = (.error (.notFound id), tx) := by
    rw [cancelTree, Action.run_bind, run_tree quiet ha (Database.walk_missing h _)]
    rfl
  rw [cancel, run_savepoint_error ha htree]
  rfl

/-- The cancellation of a task that is its own parent. The walk down its tree fails in the end,
and nothing has happened. -/
theorem run_cancel_endless (quiet : tx.Quiet) (ha : tx.aborted = false) {id : TaskId}
    (hown : tx.database.rows.IsOwnParent id) :
    Action.run (cancel channel id) tx = (.error (.refused .queryCanceled), tx) := by
  have htree : Action.run (cancelTree channel id) tx =
      (.error (.refused .queryCanceled), { tx with aborted := true }) := by
    rw [cancelTree, Action.run_bind, run_tree_endless quiet ha hown]
  rw [cancel, run_savepoint_error ha htree]
  rfl

/-- The resumption of a parent, where the database does not fail. -/
lemma run_resumeParent_quiet (channel : Channel) (quiet : tx.Quiet) (ha : tx.aborted = false)
    (child : TaskId) :
    Action.run (resumeParent channel child) tx =
      (.ok (tx.database.waitingParent? child),
        { tx with
          database := tx.database.parentResumed tx.now child
          published := if (tx.database.waitingParent? child).isSome then
            (tx.publish channel).published else tx.published }) := by
  obtain ⟨table, ht⟩ := quiet.table
  exact run_announced channel ha (quiet.faultAt _) (quiet.faultAt _)
    (Database.resumeParent_eq ht tx.now child) Option.isSome

/-- The transaction behind the cancellation of a tree. -/
def treeCancelled (channel : Channel) (tx : Transaction) (root : TaskId) : Transaction :=
  { tx with
    database := tx.database.treeCancelled tx.now root
    published := if (tx.database.cancelledParent? tx.now root).isSome then
      (tx.publish channel).published else tx.published }

/-- The cancellation of a tree whose root is there. -/
lemma run_cancelTree (channel : Channel) (quiet : tx.Quiet) (ha : tx.aborted = false)
    {row : Row} (hrow : row ∈ tx.database.rows)
    (hown : ¬ tx.database.rows.IsOwnParent row.id) :
    Action.run (cancelTree channel row.id) tx =
      (.ok (tx.database.liveAmong (tx.database.treeOrder row.id)),
        treeCancelled channel tx row.id) := by
  have hedges : (Database.treeEdges tx.database.rows row.id).isEmpty = false :=
    List.isEmpty_eq_false_iff.mpr
      (List.ne_nil_of_mem (quiet.sound.root_mem_treeEdges hown hrow))
  have horder : cancellationOrder row.id (Database.treeEdges tx.database.rows row.id) =
      tx.database.treeOrder row.id := rfl
  have hlive : (row.id ∈ tx.database.treeOrder row.id ∧ tx.database.Live row.id) ↔
      tx.database.Live row.id := and_iff_right (root_mem_cancellationOrder _ _)
  rw [cancelTree, Action.run_bind, run_tree quiet ha (quiet.sound.walk_eq_some hown)]
  dsimp only
  rw [hedges, if_neg (by simp), Action.run_bind, horder, run_cancelEach row.id _ tx quiet ha]
  dsimp only
  by_cases hp : tx.database.Live row.id ∧
      (outsideParent row.id (Database.treeEdges tx.database.rows row.id)).isSome = true
  · have quiet' : Transaction.Quiet { tx with
        database := tx.database.cancelAll tx.now (tx.database.treeOrder row.id) } :=
      ⟨quiet.fault, by simpa [Database.cancelAll, Database.change] using quiet.tasks,
        (Database.writes_cancelAll _ _ _).sound quiet.sound⟩
    rw [if_pos (by simp [hlive.mpr hp.1, hp.2]), Action.run_bind,
      run_resumeParent_quiet channel quiet' ha, treeCancelled, Database.treeCancelled,
      Database.cancelledParent?, if_pos hp, if_pos hp]
    simp only [Transaction.publish_published]
    rfl
  · rw [if_neg (by simpa [hlive] using hp), treeCancelled, Database.treeCancelled,
      Database.cancelledParent?, if_neg hp, if_neg hp]
    rfl

/-- The cancellation of a task with its tree. -/
theorem run_cancel (channel : Channel) (quiet : tx.Quiet) (ha : tx.aborted = false)
    {id : TaskId} (h : ∃ row ∈ tx.database.rows, row.id = id)
    (hown : ¬ tx.database.rows.IsOwnParent id) :
    Action.run (cancel channel id) tx =
      (.ok (tx.database.liveAmong (tx.database.treeOrder id)), treeCancelled channel tx id) := by
  obtain ⟨row, hrow, rfl⟩ := h
  exact run_savepoint_ok ha (run_cancelTree channel quiet ha hrow hown) ha

end TaskAction
end LeaseQueue
