/-
No task waits in vain: every waiting task has a child that is not at an end.

* `Database.Attended`, `Database.Tended`: a task has such a child, and all waiting tasks do;
* `Database.Heeds`: tasks begin to wait only while they have such a child;
* `Tended.change`, `Tended.settled`, `Tended.treeCancelled`: what writes make of that. A task
  that comes to an end by its run or as the root of a cancelled tree leaves its parent
  pending, and below the root of a cancelled tree all parents come to an end themselves.
-/
import LeaseQueue.Proofs.Store.Reachable
import LeaseQueue.Proofs.Store.Subtree

namespace LeaseQueue

namespace Database

/-- The task has a child that is not at an end. -/
def Attended (database : Database) (task : TaskId) : Prop :=
  ∃ child ∈ database.rows, child.parent = some task ∧ child.isLive = true

/-- Every waiting task has a child that is not at an end. -/
def Tended (database : Database) : Prop :=
  ∀ row ∈ database.rows, row.hasStatus .waiting = true → database.Attended row.id

/-- Between two databases no task has begun to wait but one with a child that was not at
an end. -/
def Heeds (before after : Database) : Prop :=
  ∀ row ∈ after.rows, row.hasStatus .waiting = true →
    (∀ old ∈ before.rows, old.id = row.id → old.hasStatus .waiting = false) →
      before.Attended row.id

instance (database : Database) (task : TaskId) : Decidable (database.Attended task) :=
  inferInstanceAs (Decidable
    (∃ child ∈ database.rows, child.parent = some task ∧ child.isLive = true))

instance (database : Database) : Decidable database.Tended :=
  inferInstanceAs (Decidable (∀ row ∈ database.rows, row.hasStatus .waiting = true →
    database.Attended row.id))

instance (before after : Database) : Decidable (before.Heeds after) :=
  inferInstanceAs (Decidable (∀ row ∈ after.rows, row.hasStatus .waiting = true →
    (∀ old ∈ before.rows, old.id = row.id → old.hasStatus .waiting = false) →
      before.Attended row.id))

variable {database : Database}

/-! ### Changes that end no task -/

/-- A change that ends no task leaves a task its child. -/
lemma Attended.change {pick : Row → Bool} {f : Row → Row} {task : TaskId}
    (h : database.Attended task)
    (hf : ∀ row ∈ database.rows, pick row = true →
      (f row).parent = row.parent ∧ (row.isLive = true → (f row).isLive = true)) :
    (database.change pick f).Attended task := by
  obtain ⟨child, hchild, hparent, hlive⟩ := h
  by_cases hp : pick child = true
  · obtain ⟨hsame, hstill⟩ := hf child hchild hp
    refine ⟨f child, ?_, hsame.trans hparent, hstill hlive⟩
    exact mem_change.mpr (.inr ⟨child, hchild, hp, rfl⟩)
  · refine ⟨child, ?_, hparent, hlive⟩
    exact mem_change.mpr (.inl ⟨hchild, by simpa using hp⟩)

/-- A change that ends no task and lets none wait keeps all waiting tasks attended. -/
lemma Tended.change {pick : Row → Bool} {f : Row → Row} (h : database.Tended)
    (hf : ∀ row ∈ database.rows, pick row = true →
      (f row).parent = row.parent ∧ (row.isLive = true → (f row).isLive = true))
    (hw : ∀ row ∈ database.rows, pick row = true → (f row).hasStatus .waiting = false) :
    (database.change pick f).Tended := by
  intro row hrow hwaiting
  rcases mem_change.mp hrow with ⟨hold, -⟩ | ⟨old, hold, hp, rfl⟩
  · exact (h row hold hwaiting).change hf
  · rw [hw old hold hp] at hwaiting
    cases hwaiting

/-- A renewal touches no waiting task. -/
lemma Tended.renewed (h : database.Tended) (task : TaskId) (worker : WorkerId)
    (now deadline : Micros) :
    (database.change (Table.only task (Row.isHeldBy worker)) (Row.renewed now deadline)).Tended :=
  h.change (fun _ _ _ => ⟨rfl, id⟩) fun row _ hp => by
    have hrunning := (Row.isHeldBy_iff.mp (Table.only_eq_true.mp hp).2).2
    simp [Row.hasStatus, Row.renewed, hrunning]

lemma Tended.renewAll (h : database.Tended) (task : TaskId) (worker : WorkerId)
    (renewals : List Renewal) : (database.renewAll task worker renewals).Tended := by
  induction renewals generalizing database with
  | nil => exact h
  | cons renewal rest ih => exact ih (h.renewed task worker _ _)

/-- A new task waits for nothing, and takes no child away. -/
lemma Tended.insertTask (h : database.Tended) (now : Micros) (taskType : String) (state : Json)
    (parent : Option TaskId) : (database.insertTask now taskType state parent).2.Tended := by
  have hrows := database.rows_insertTask now taskType state parent
  intro row hrow hwaiting
  rw [Attended]
  rw [hrows] at hrow ⊢
  cases hanswer : (database.insertTask now taskType state parent).1 with
  | error e =>
      rw [hanswer] at hrow
      exact h row hrow hwaiting
  | ok id =>
      rw [hanswer] at hrow
      rcases List.mem_append.mp hrow with hold | hnew
      · obtain ⟨child, hchild, hparent, hlive⟩ := h row hold hwaiting
        exact ⟨child, List.mem_append_left _ hchild, hparent, hlive⟩
      · rw [List.mem_singleton.mp hnew] at hwaiting
        cases hwaiting

/-! ### The resumption of a parent -/

lemma Attended.parentResumed {task : TaskId} (h : database.Attended task) (now : Micros)
    (child : TaskId) : (database.parentResumed now child).Attended task := by
  rw [Database.parentResumed]
  split
  · exact h
  · exact h.change fun _ _ _ => ⟨rfl, fun _ => rfl⟩

/-- Behind the resumption of its parent a task has no parent that waits. -/
lemma waiting_parentResumed (hs : database.Sound) {child : Row} (hchild : child ∈ database.rows)
    (now : Micros) :
    ∀ row ∈ (database.parentResumed now child.id).rows, row.hasStatus .waiting = true →
      row ∈ database.rows ∧ child.parent ≠ some row.id := by
  have hparent := hs.parentOf_eq hchild
  intro row hrow hwaiting
  rw [parentResumed] at hrow
  split at hrow
  · rename_i hnone
    refine ⟨hrow, fun hp => ?_⟩
    have hany : database.rows.any (Table.only row.id (·.hasStatus .waiting)) = true :=
      Table.any_only_iff.mpr ⟨row, hrow, rfl, hwaiting⟩
    rw [waitingParent?, hparent, hp, Option.filter_some, if_pos hany] at hnone
    cases hnone
  · rename_i parent hsome
    have hp : child.parent = some parent := by
      rw [waitingParent?, hparent] at hsome
      exact (Option.filter_eq_some_iff.mp hsome).1
    rcases mem_change.mp hrow with ⟨hold, hpick⟩ | ⟨old, -, -, rfl⟩
    · refine ⟨hold, fun hid => ?_⟩
      rw [hp] at hid
      simp [Table.only, Option.some.inj hid, hwaiting] at hpick
    · cases hwaiting

/-! ### The end of a run -/

/-- The row of a task that ends its run holds the outcome. -/
lemma finished_mem {row : Row} {worker : WorkerId} (hrow : row ∈ database.rows)
    (hheld : row.isHeldBy worker = true) (now : Micros) (outcome : Outcome) :
    row.finished now outcome ∈ (database.outcomeWritten now row.id worker outcome).rows :=
  mem_change.mpr (.inr ⟨row, hrow, Table.only_eq_true.mpr ⟨rfl, hheld⟩, rfl⟩)

/-- Other rows than that of the task are what they were. -/
lemma mem_outcomeWritten (hs : database.Sound) {row other : Row} (hrow : row ∈ database.rows)
    (hother : other ∈ database.rows) (hne : other ≠ row) (now : Micros) (worker : WorkerId)
    (outcome : Outcome) : other ∈ (database.outcomeWritten now row.id worker outcome).rows := by
  refine mem_change.mpr (.inl ⟨hother, ?_⟩)
  by_contra hp
  exact hne (hs.eq_of_id hother hrow (Table.only_eq_true.mp (by simpa using hp)).1)

/-- A task that comes to an end is taken from its parent alone, which is resumed. -/
lemma Tended.settled_terminal (h : database.Tended) (hs : database.Sound) {task : TaskId}
    {worker : WorkerId} (held : database.Holds task worker) (now : Micros) {outcome : Outcome}
    (hterm : outcome.status.isTerminal = true) :
    (database.settled now task worker outcome).Tended := by
  obtain ⟨row, hrow, rfl, hheld⟩ := held
  have hfinished := finished_mem hrow hheld now outcome
  have hsound : (database.outcomeWritten now row.id worker outcome).Sound :=
    hs.change fun _ _ _ => ⟨rfl, rfl⟩
  rw [Database.settled, if_pos hterm]
  intro waiting hwaiting hstatus
  obtain ⟨hmem, hparent⟩ := waiting_parentResumed hsound hfinished now waiting hwaiting hstatus
  rcases mem_change.mp hmem with ⟨hold, -⟩ | ⟨old, -, -, rfl⟩
  · -- the child that keeps the parent waiting is not the one that has ended
    obtain ⟨child, hchild, hcp, hlive⟩ := h waiting hold hstatus
    have hne : child ≠ row := by
      rintro rfl
      exact hparent hcp
    have hstays := mem_outcomeWritten hs hrow hchild hne now worker outcome
    exact Attended.parentResumed ⟨child, hstays, hcp, hlive⟩ now row.id
  · have hw : outcome.status = .waiting := by simpa [Row.finished, Row.hasStatus] using hstatus
    simp [hw, Status.isTerminal] at hterm

/-- A task that does not come to an end is taken from no parent. -/
lemma Tended.settled_live (h : database.Tended) (hs : database.Sound) {task : TaskId}
    {worker : WorkerId} (held : database.Holds task worker) (now : Micros) {outcome : Outcome}
    (hterm : outcome.status.isTerminal = false)
    (heeds : database.Heeds (database.settled now task worker outcome)) :
    (database.settled now task worker outcome).Tended := by
  obtain ⟨row, hrow, rfl, hheld⟩ := held
  have hlive : ∀ old ∈ database.rows, Table.only row.id (Row.isHeldBy worker) old = true →
      (old.finished now outcome).parent = old.parent ∧
        (old.isLive = true → (old.finished now outcome).isLive = true) := by
    intro old _ _
    exact ⟨rfl, fun _ => by simpa [Row.finished, Row.isLive, StatusColumn.isLive] using hterm⟩
  rw [Database.settled, if_neg (by simp [hterm])] at heeds ⊢
  intro waiting hmem hstatus
  refine Attended.change ?_ hlive
  rcases mem_change.mp hmem with ⟨hold, -⟩ | ⟨old, hold, hp, rfl⟩
  · exact h waiting hold hstatus
  · refine heeds _ hmem hstatus fun before hbefore hid => ?_
    -- the row that has run was not waiting
    have : before = row := hs.eq_of_id hbefore hrow (hid.trans (Table.only_eq_true.mp hp).1)
    subst this
    simp [Row.hasStatus, (Row.isHeldBy_iff.mp hheld).2]

/-- The end of a run keeps waiting tasks attended, if its task begins to wait only while it
is attended itself. -/
lemma Tended.settled (h : database.Tended) (hs : database.Sound) {task : TaskId}
    {worker : WorkerId} (held : database.Holds task worker) (now : Micros) {outcome : Outcome}
    (heeds : database.Heeds (database.settled now task worker outcome)) :
    (database.settled now task worker outcome).Tended := by
  by_cases hterm : outcome.status.isTerminal = true
  · exact h.settled_terminal hs held now hterm
  · exact h.settled_live hs held now (by simpa using hterm) heeds

/-! ### Cancelled trees -/

/-- A task that waits behind the cancellation of a tree is not of the tree. It has a child
left, unless its child was the root of the tree. -/
lemma waiting_cancelAll (h : database.Tended) (hs : database.Sound) {root : TaskId}
    (hown : ¬ database.rows.IsOwnParent root) (now : Micros) :
    let edges := treeEdges database.rows root
    let cancelled := database.cancelAll now (cancellationOrder root edges)
    ∀ row ∈ cancelled.rows, row.hasStatus .waiting = true →
      cancelled.Attended row.id ∨
        ∃ child ∈ database.rows, child.id = root ∧ child.isLive = true ∧
          child.parent = some row.id := by
  intro edges cancelled row hrow hwaiting
  rcases mem_change.mp hrow with ⟨hold, hpick⟩ | ⟨old, -, -, rfl⟩
  · have hlive : row.isLive = true := Row.isLive_of_waiting hwaiting
    have houtside : row.id ∉ cancellationOrder root edges := by
      simpa [hlive] using hpick
    obtain ⟨child, hchild, hparent, hstill⟩ := h row hold hwaiting
    by_cases hin : child.id ∈ cancellationOrder root edges
    · have horder : ∀ id, id ∈ cancellationOrder root edges ↔
          Relation.ReflTransGen (Forest.ChildOf root edges) id root :=
        fun _ => Forest.mem_cancellationOrder_iff (hs.nodup_walk hown)
      rcases Relation.ReflTransGen.cases_head ((horder _).mp hin) with
        hroot | ⟨parent, hbelow, hreaches⟩
      · exact .inr ⟨child, hchild, hroot, hstill, hparent⟩
      · -- a child below the root has its parent in the tree
        obtain ⟨other, hother, -, heq⟩ := (hs.mem_treeEdges_iff hown).mp hbelow.2
        have : other = child := hs.eq_of_id hother hchild (congrArg Prod.fst heq)
        subst this
        have hp : other.parent = some parent := congrArg Prod.snd heq
        rw [hparent] at hp
        exact absurd ((horder _).mpr (Option.some.inj hp ▸ hreaches)) houtside
    · refine .inl ⟨child, ?_, hparent, hstill⟩
      exact mem_change.mpr (.inl ⟨hchild, by simp [hin]⟩)
  · cases hwaiting

/-- The cancellation of a tree takes a child from the parent of the root alone, which is
resumed: all other parents of cancelled tasks were cancelled as well. -/
lemma Tended.treeCancelled (h : database.Tended) (hs : database.Sound) {root : TaskId}
    (hown : ¬ database.rows.IsOwnParent root) (now : Micros) :
    (database.treeCancelled now root).Tended := by
  have hleft := waiting_cancelAll h hs hown now
  rw [Database.treeCancelled]
  dsimp only at hleft ⊢
  split
  · rename_i hresumed
    obtain ⟨⟨child, hchild, rfl, hlive⟩, -⟩ := hresumed
    have hsound := (writes_cancelAll database now
      (cancellationOrder child.id (treeEdges database.rows child.id))).sound hs
    have hcancelled : child.cancelled now ∈ (database.cancelAll now
        (cancellationOrder child.id (treeEdges database.rows child.id))).rows := by
      exact mem_change.mpr (.inr ⟨child, hchild,
        by simpa [hlive] using root_mem_cancellationOrder child.id _, rfl⟩)
    intro row hrow hwaiting
    obtain ⟨hmem, hparent⟩ := waiting_parentResumed hsound hcancelled now row hrow hwaiting
    rcases hleft row hmem hwaiting with hattended | ⟨other, hother, hid, -, hp⟩
    · exact hattended.parentResumed now child.id
    · have : other = child := hs.eq_of_id hother hchild hid
      subst this
      exact absurd hp hparent
  · rename_i hnot
    intro row hrow hwaiting
    rcases hleft row hrow hwaiting with hattended | ⟨child, hchild, rfl, hlive, hp⟩
    · exact hattended
    · refine absurd ⟨⟨child, hchild, rfl, hlive⟩, ?_⟩ hnot
      rw [outsideParent_eq hs hchild hown, hp]
      rfl

end Database
end LeaseQueue
