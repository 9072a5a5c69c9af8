/-
The walk down the tree of a task, round by round.

* `Table.Under`: a task of the tree of a root;
* `Table.IsOwnParent`: the task is its own parent;
* `Database.round`: the rows that a round of the walk finds, `Database.walk_round`: what the
  walk answers from a round on;
* `Database.Sound.round_eq_nil`: below a root that is not its own parent the walk ends in as
  many rounds as there are rows, `Database.Sound.nodup_walk`: and it finds each row once;
* `Database.walk_eq_none`: from a task that is its own parent it goes on forever;
* `Database.treeEdges`, `Database.Sound.mem_treeEdges_iff`: the edges that are found are those
  of the tree.

A round holds the children of the one before. As a parent is no larger than its child, the
numbers of a round grow, unless a row is its own parent. Such a row is found by its own number
only, so that nothing but the root can be one.
-/
import LeaseQueue.Proofs.Store.Sound

namespace LeaseQueue

/-- A larger bound lets an element of its own size through. -/
lemma countP_le_lt {α : Type} (size : α → TaskId) {items : List α} {item : α} {bound : TaskId}
    (hitem : item ∈ items) (hlt : bound < size item) :
    items.countP (fun other => decide (size other ≤ bound)) <
      items.countP fun other => decide (size other ≤ size item) := by
  have hsplit := List.countP_eq_countP_filter_add items
    (fun other => decide (size other ≤ size item)) fun other => decide (size other ≤ bound)
  have hfirst : (items.filter fun other => decide (size other ≤ bound)).countP
      (fun other => decide (size other ≤ size item)) =
      items.countP fun other => decide (size other ≤ bound) := by
    rw [List.countP_filter]
    refine List.countP_congr fun other _ => ?_
    simp only [Bool.and_eq_true, decide_eq_true_eq]
    exact and_iff_right_of_imp fun hle => hle.trans hlt.le
  have hrest : 0 < (items.filter fun other => !decide (size other ≤ bound)).countP
      fun other => decide (size other ≤ size item) := by
    refine List.countP_pos_iff.mpr ⟨item, List.mem_filter.mpr ⟨hitem, ?_⟩, ?_⟩
    · simpa using hlt
    · simp
  omega

namespace Table

/-- A task of the tree of a root: the root, if it is there, or a child of such a task. -/
inductive Under (table : Table) (root : TaskId) : TaskId → Prop where
  | root {row : Row} (hrow : row ∈ table) (hid : row.id = root) : Under table root root
  | child {row : Row} {parent : TaskId} (hrow : row ∈ table) (hparent : row.parent = some parent)
      (h : Under table root parent) : Under table root row.id

/-- The task is its own parent. -/
def IsOwnParent (table : Table) (task : TaskId) : Prop :=
  ∃ row ∈ table, row.id = task ∧ row.parent = some task

instance (table : Table) (task : TaskId) : Decidable (table.IsOwnParent task) :=
  inferInstanceAs (Decidable (∃ row ∈ table, row.id = task ∧ row.parent = some task))

/-- A change that keeps numbers and parents keeps the tasks that are their own parents. -/
lemma isOwnParent_update {pick : Row → Bool} {f : Row → Row} {table : Table} {task : TaskId}
    (hf : ∀ row ∈ table, pick row = true → (f row).id = row.id ∧ (f row).parent = row.parent) :
    (table.update pick f).IsOwnParent task ↔ table.IsOwnParent task := by
  have place : ∀ row ∈ table, (if pick row then f row else row).id = row.id ∧
      (if pick row then f row else row).parent = row.parent :=
    fun row hrow => Row.same_place_ite (hf row hrow)
  constructor
  · rintro ⟨row, hrow, hid, hparent⟩
    obtain ⟨old, hold, rfl⟩ := List.mem_map.mp hrow
    exact ⟨old, hold, (place old hold).1.symm.trans hid, (place old hold).2.symm.trans hparent⟩
  · rintro ⟨old, hold, hid, hparent⟩
    exact ⟨_, List.mem_map_of_mem hold, (place old hold).1.trans hid,
      (place old hold).2.trans hparent⟩

end Table

namespace Database

/-! ### Rounds -/

/-- The rows that a round of the walk down a tree finds: at first the root, then in each round
the children of the rows before. -/
def round (table : Table) (root : TaskId) : Nat → Table
  | 0 => table.filter fun row => row.id == root
  | n + 1 => nextRound table (round table root n)

variable {table : Table} {root : TaskId} {row : Row} {n : Nat}

lemma mem_round_zero : row ∈ round table root 0 ↔ row ∈ table ∧ row.id = root := by
  simp [round]

lemma mem_round_succ : row ∈ round table root (n + 1) ↔
    row ∈ table ∧ ∃ parent ∈ round table root n, row.parent = some parent.id := by
  simp only [round, nextRound, List.mem_flatMap, List.mem_filter, beq_iff_eq]
  tauto

lemma mem_of_mem_round (h : row ∈ round table root n) : row ∈ table := by
  cases n with
  | zero => exact (mem_round_zero.mp h).1
  | succ n => exact (mem_round_succ.mp h).1

/-- Every round finds tasks of the tree. -/
lemma under_of_mem_round (h : row ∈ round table root n) : table.Under root row.id := by
  induction n generalizing row with
  | zero =>
      obtain ⟨hrow, rfl⟩ := mem_round_zero.mp h
      exact .root hrow rfl
  | succ n ih =>
      obtain ⟨hrow, parent, hmem, hparent⟩ := mem_round_succ.mp h
      exact .child hrow hparent (ih hmem)

/-- Behind an empty round all rounds are empty. -/
lemma round_eq_nil_of_le {m : Nat} (h : round table root n = []) (hle : n ≤ m) :
    round table root m = [] := by
  induction hle with
  | refl => exact h
  | step _ ih => rw [round, ih]; rfl

/-- What the walk answers from a round on: the edges of as many rounds as it may take, if none
is left behind them. -/
theorem walk_round (table : Table) (root : TaskId) (rounds n : Nat) :
    walk table rounds (round table root n) =
      if round table root (n + rounds) = [] then
        some ((List.range' n rounds).flatMap fun k =>
          (round table root k).map fun row => (row.id, row.parent))
      else none := by
  induction rounds generalizing n with
  | zero =>
      rw [Nat.add_zero]
      cases hr : round table root n with
      | nil => rfl
      | cons row rest => rfl
  | succ rounds ih =>
      have hnext : nextRound table (round table root n) = round table root (n + 1) := rfl
      have hwalk : walk table (rounds + 1) (round table root n) =
          (walk table rounds (round table root (n + 1))).map fun edges =>
            (round table root n).map (fun row => (row.id, row.parent)) ++ edges := by
        cases hr : round table root n with
        | nil =>
            rw [round_eq_nil_of_le hr n.le_succ]
            cases rounds <;> rfl
        | cons row rest => rw [walk, ← hr, hnext]; simp
      rw [hwalk, ih, Nat.add_right_comm, Nat.add_assoc n rounds 1, List.range'_succ,
        List.flatMap_cons]
      split <;> rfl

/-! ### A walk without an end -/

/-- A task that is its own parent is found in every round. -/
lemma mem_round_of_isOwnParent (h : table.IsOwnParent root) (n : Nat) :
    ∃ row ∈ round table root n, row.id = root ∧ row.parent = some root := by
  induction n with
  | zero =>
      obtain ⟨row, hrow, hid, hparent⟩ := h
      exact ⟨row, mem_round_zero.mpr ⟨hrow, hid⟩, hid, hparent⟩
  | succ n ih =>
      obtain ⟨row, hmem, hid, hparent⟩ := ih
      exact ⟨row, mem_round_succ.mpr ⟨mem_of_mem_round hmem, row, hmem, hid ▸ hparent⟩, hid,
        hparent⟩

/-- The walk down the tree of a task that is its own parent does not end in any number of
rounds. -/
theorem walk_eq_none (h : table.IsOwnParent root) (rounds : Nat) :
    walk table rounds (table.filter fun row => row.id == root) = none := by
  obtain ⟨row, hmem, -⟩ := mem_round_of_isOwnParent h (0 + rounds)
  exact (walk_round table root rounds 0).trans (if_neg (List.ne_nil_of_mem hmem))

/-! ### A walk with an end -/

namespace Sound

variable {database : Database} {root id : TaskId} {row : Row} {n m : Nat}

/-- A tree lies above its root. -/
lemma root_le (hs : database.Sound) (h : database.rows.Under root id) : root ≤ id := by
  induction h with
  | root => exact le_rfl
  | child hrow hparent _ ih => exact ih.trans (hs.rooted _ hrow _ hparent).1

lemma isOwnParent_iff (hs : database.Sound) (hrow : row ∈ database.rows) :
    database.rows.IsOwnParent row.id ↔ row.parent = some row.id := by
  refine ⟨?_, fun h => ⟨row, hrow, rfl, h⟩⟩
  rintro ⟨other, hother, hid, hparent⟩
  rwa [hs.eq_of_id hother hrow hid] at hparent

/-- In a tree the root alone can be its own parent: such a row is nobody else's child. -/
lemma eq_root_of_isOwnParent (hs : database.Sound) (h : database.rows.Under root id)
    (hown : database.rows.IsOwnParent id) : id = root := by
  induction h with
  | root => rfl
  | @child row parent hrow hparent _ ih =>
      have hsame := (hs.isOwnParent_iff hrow).mp hown
      obtain rfl : parent = row.id := Option.some.inj (hparent.symm.trans hsame)
      exact ih hown

/-- Below a root that is not its own parent every parent is an earlier row. -/
lemma parent_lt (hs : database.Sound) (hown : ¬ database.rows.IsOwnParent root)
    {parent : TaskId} (h : database.rows.Under root parent) (hrow : row ∈ database.rows)
    (hparent : row.parent = some parent) : parent < row.id := by
  refine lt_of_le_of_ne (hs.rooted row hrow parent hparent).1 ?_
  rintro rfl
  have hrowOwn : database.rows.IsOwnParent row.id := ⟨row, hrow, rfl, hparent⟩
  exact hown (hs.eq_root_of_isOwnParent h hrowOwn ▸ hrowOwn)

/-- A later round does not find the root again. -/
lemma ne_root_of_mem_succ (hs : database.Sound) (hown : ¬ database.rows.IsOwnParent root)
    (h : row ∈ round database.rows root (n + 1)) : row.id ≠ root := by
  obtain ⟨hrow, parent, hmem, hparent⟩ := mem_round_succ.mp h
  have hu := under_of_mem_round hmem
  exact (lt_of_le_of_lt (hs.root_le hu) (hs.parent_lt hown hu hrow hparent)).ne'

/-- No row is found in two rounds. -/
lemma round_unique (hs : database.Sound) (hown : ¬ database.rows.IsOwnParent root)
    (hn : row ∈ round database.rows root n) (hm : row ∈ round database.rows root m) : n = m := by
  induction n generalizing row m with
  | zero =>
      cases m with
      | zero => rfl
      | succ m => exact absurd (mem_round_zero.mp hn).2 (hs.ne_root_of_mem_succ hown hm)
  | succ n ih =>
      cases m with
      | zero => exact absurd (mem_round_zero.mp hm).2 (hs.ne_root_of_mem_succ hown hn)
      | succ m =>
          obtain ⟨-, parent, hparent, hp⟩ := mem_round_succ.mp hn
          obtain ⟨-, other, hother, ho⟩ := mem_round_succ.mp hm
          have hid : parent.id = other.id := Option.some.inj (hp.symm.trans ho)
          have hsame := hs.eq_of_id (mem_of_mem_round hparent) (mem_of_mem_round hother) hid
          rw [ih hparent (hsame ▸ hother)]

/-- As many rows as rounds before come up to a row that a round finds. -/
lemma lt_countP_of_mem_round (hs : database.Sound) (hown : ¬ database.rows.IsOwnParent root)
    (h : row ∈ round database.rows root n) :
    n < database.rows.countP fun other => decide (other.id ≤ row.id) := by
  induction n generalizing row with
  | zero =>
      refine List.countP_pos_iff.mpr ⟨row, mem_of_mem_round h, ?_⟩
      simp
  | succ n ih =>
      obtain ⟨hrow, parent, hmem, hparent⟩ := mem_round_succ.mp h
      have hlt := hs.parent_lt hown (under_of_mem_round hmem) hrow hparent
      exact lt_of_le_of_lt (ih hmem) (countP_le_lt Row.id hrow hlt)

/-- There are fewer rounds than rows. -/
theorem round_eq_nil (hs : database.Sound) (hown : ¬ database.rows.IsOwnParent root) :
    round database.rows root database.rows.length = [] := by
  refine List.eq_nil_iff_forall_not_mem.mpr fun row h => ?_
  exact absurd (hs.lt_countP_of_mem_round hown h) List.countP_le_length.not_gt

/-- Every task of a tree is found in some round. -/
lemma mem_round_of_under (h : database.rows.Under root id) :
    ∃ n, ∃ row ∈ round database.rows root n, row.id = id := by
  induction h with
  | @root row hrow hid => exact ⟨0, row, mem_round_zero.mpr ⟨hrow, hid⟩, hid⟩
  | @child row parent hrow hparent _ ih =>
      obtain ⟨n, other, hother, rfl⟩ := ih
      exact ⟨n + 1, row, mem_round_succ.mpr ⟨hrow, other, hother, hparent⟩, rfl⟩

/-- No round finds a row twice. -/
lemma nodup_round (hs : database.Sound) (root : TaskId) (n : Nat) :
    (round database.rows root n).Nodup := by
  have hnodup : database.rows.Nodup := hs.ordered.imp fun hlt h => by simp [h] at hlt
  induction n with
  | zero => exact hnodup.filter _
  | succ n ih =>
      refine List.nodup_flatMap.mpr ⟨fun row _ => hnodup.filter _, ?_⟩
      refine (List.Nodup.pairwise_of_forall_ne ih fun a ha b hb hab => ?_)
      -- a child of both has the numbers of both as its parent
      refine List.disjoint_left.mpr fun child hchild hother => hab ?_
      have hparent := beq_iff_eq.mp (List.mem_filter.mp hchild).2
      have hparent' := beq_iff_eq.mp (List.mem_filter.mp hother).2
      exact hs.eq_of_id (mem_of_mem_round ha) (mem_of_mem_round hb)
        (Option.some.inj (hparent.symm.trans hparent'))

end Sound

/-! ### The edges of a tree -/

/-- The edges that the walk down the tree of a task finds. -/
def treeEdges (table : Table) (root : TaskId) : List Edge :=
  (walk table table.length (table.filter fun row => row.id == root)).getD []

/-- Without a root there is no tree. -/
lemma walk_missing (h : ∀ row ∈ table, row.id ≠ root) (rounds : Nat) :
    walk table rounds (table.filter fun row => row.id == root) = some [] := by
  have hnone : table.filter (fun row => row.id == root) = [] :=
    List.filter_eq_nil_iff.mpr fun row hrow => by simpa using h row hrow
  rw [hnone]
  cases rounds <;> rfl

namespace Sound

variable {database : Database} {root id : TaskId} {row : Row}

/-- The walk down the tree of a task that is not its own parent has an end. It finds what the
rounds find. -/
theorem walk_eq (hs : database.Sound) (hown : ¬ database.rows.IsOwnParent root) :
    walk database.rows database.rows.length (database.rows.filter fun row => row.id == root) =
      some ((List.range' 0 database.rows.length).flatMap fun n =>
        (round database.rows root n).map fun row => (row.id, row.parent)) := by
  have hwalk := walk_round database.rows root database.rows.length 0
  rwa [Nat.zero_add, if_pos (hs.round_eq_nil hown)] at hwalk

lemma treeEdges_eq (hs : database.Sound) (hown : ¬ database.rows.IsOwnParent root) :
    treeEdges database.rows root = (List.range' 0 database.rows.length).flatMap fun n =>
      (round database.rows root n).map fun row => (row.id, row.parent) :=
  congrArg (·.getD []) (hs.walk_eq hown)

lemma walk_eq_some (hs : database.Sound) (hown : ¬ database.rows.IsOwnParent root) :
    walk database.rows database.rows.length (database.rows.filter fun row => row.id == root) =
      some (treeEdges database.rows root) := by
  rw [hs.treeEdges_eq hown, hs.walk_eq hown]

/-- The edges of a tree are those of its tasks. -/
theorem mem_treeEdges_iff (hs : database.Sound) (hown : ¬ database.rows.IsOwnParent root)
    {edge : Edge} :
    edge ∈ treeEdges database.rows root ↔
      ∃ row ∈ database.rows, database.rows.Under root row.id ∧ (row.id, row.parent) = edge := by
  rw [hs.treeEdges_eq hown]
  simp only [List.mem_flatMap, List.mem_map]
  constructor
  · rintro ⟨n, -, row, hrow, hedge⟩
    exact ⟨row, mem_of_mem_round hrow, under_of_mem_round hrow, hedge⟩
  · rintro ⟨row, hrow, hu, hedge⟩
    obtain ⟨n, other, hother, hid⟩ := mem_round_of_under hu
    rw [hs.eq_of_id (mem_of_mem_round hother) hrow hid] at hother
    have hn := (hs.lt_countP_of_mem_round hown hother).trans_le List.countP_le_length
    exact ⟨n, List.mem_range'_1.mpr ⟨n.zero_le, by simpa using hn⟩, row, hother, hedge⟩

/-- A tree has no row but those of the table. -/
lemma mem_of_under (h : database.rows.Under root id) : ∃ row ∈ database.rows, row.id = id := by
  cases h with
  | root hrow hid => exact ⟨_, hrow, hid⟩
  | child hrow => exact ⟨_, hrow, rfl⟩

/-- The walk down a tree finds its tasks and no others. -/
lemma mem_treeEdges_fst_iff (hs : database.Sound) (hown : ¬ database.rows.IsOwnParent root) :
    id ∈ (treeEdges database.rows root).map Prod.fst ↔ database.rows.Under root id := by
  rw [List.mem_map]
  constructor
  · rintro ⟨edge, hedge, rfl⟩
    obtain ⟨row, -, hu, rfl⟩ := (hs.mem_treeEdges_iff hown).mp hedge
    exact hu
  · intro hu
    obtain ⟨row, hrow, rfl⟩ := mem_of_under hu
    exact ⟨_, (hs.mem_treeEdges_iff hown).mpr ⟨row, hrow, hu, rfl⟩, rfl⟩

/-- The walk down a tree finds each of its tasks once. -/
theorem nodup_walk (hs : database.Sound) (hown : ¬ database.rows.IsOwnParent root) :
    ((treeEdges database.rows root).map Prod.fst).Nodup := by
  have hids : (treeEdges database.rows root).map Prod.fst =
      ((List.range' 0 database.rows.length).flatMap (round database.rows root)).map Row.id := by
    simp only [hs.treeEdges_eq hown, List.map_flatMap, List.map_map, Function.comp_def]
  have hrows : ((List.range' 0 database.rows.length).flatMap (round database.rows root)).Nodup := by
    refine List.nodup_flatMap.mpr ⟨fun n _ => hs.nodup_round root n, ?_⟩
    refine List.Pairwise.imp (fun hne => List.disjoint_left.mpr fun row hn hm => hne ?_)
      (List.nodup_range' 1)
    exact hs.round_unique hown hn hm
  rw [hids]
  refine hrows.map_on fun a ha b hb hab => ?_
  obtain ⟨_, -, ha⟩ := List.mem_flatMap.mp ha
  obtain ⟨_, -, hb⟩ := List.mem_flatMap.mp hb
  exact hs.eq_of_id (mem_of_mem_round ha) (mem_of_mem_round hb) hab

lemma root_mem_treeEdges (hs : database.Sound) (hown : ¬ database.rows.IsOwnParent row.id)
    (hrow : row ∈ database.rows) : (row.id, row.parent) ∈ treeEdges database.rows row.id :=
  (hs.mem_treeEdges_iff hown).mpr ⟨row, hrow, .root hrow rfl, rfl⟩

end Sound
end Database
end LeaseQueue
