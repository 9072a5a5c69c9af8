/-
What a cancellation makes of the table, row by row.

* `Table.ResumedBy`: the row that is resumed when a task is cancelled;
* `Database.cancelledRow`, `Database.treeCancelled_eq_change`: what becomes of each row;
* `Database.rows_treeCancelled`, `Database.sound_treeCancelled`: the database behind it;
* `Row.CancelEffect`: what becomes of each row, by cases, in terms of trees and statuses;
* `Store.perform_cancel`, `Store.perform_cancel_missing`, `Store.perform_cancel_endless`: the
  call of a store;
* `Store.cancel_exact`: what it answers, publishes and leaves, in every reachable store;
* `Store.cancel_own_parent`: a task that is its own parent is never cancelled.
-/
import LeaseQueue.Proofs.Store.Perform
import LeaseQueue.Proofs.Store.Reachable
import LeaseQueue.Proofs.Store.Subtree

namespace LeaseQueue

/-- The row waits, and is the parent of a task that is not at an end. -/
def Table.ResumedBy (table : Table) (task : TaskId) (row : Row) : Prop :=
  row.hasStatus .waiting = true ∧
    ∃ child ∈ table, child.id = task ∧ child.isLive = true ∧ child.parent = some row.id

instance (table : Table) (task : TaskId) (row : Row) : Decidable (table.ResumedBy task row) :=
  inferInstanceAs (Decidable (_ ∧ _))

namespace Database

variable {database : Database}

/-! ### The rows of a cancelled tree -/

/-- What the cancellation of a tree makes of a row. -/
def cancelledRow (database : Database) (now : Micros) (root : TaskId) (row : Row) : Row :=
  if row.id ∈ database.treeOrder root ∧ row.isLive = true then row.cancelled now
  else if database.rows.ResumedBy root row then row.resumed now
  else row

lemma cancelledRow_place (database : Database) (now : Micros) (root : TaskId) (row : Row) :
    (database.cancelledRow now root row).id = row.id ∧
      (database.cancelledRow now root row).parent = row.parent := by
  rw [cancelledRow]
  split
  · exact ⟨rfl, rfl⟩
  · split <;> exact ⟨rfl, rfl⟩

/-- A number stands for one row, so the child is that row. -/
lemma resumedBy_iff (hs : database.Sound) {child : Row} (hchild : child ∈ database.rows)
    (row : Row) :
    database.rows.ResumedBy child.id row ↔
      row.hasStatus .waiting = true ∧ child.isLive = true ∧ child.parent = some row.id := by
  refine and_congr_right fun _ => ⟨?_, fun h => ⟨child, hchild, rfl, h⟩⟩
  rintro ⟨other, hother, hid, h⟩
  rwa [hs.eq_of_id hother hchild hid] at h

lemma live_iff (hs : database.Sound) {child : Row} (hchild : child ∈ database.rows) :
    database.Live child.id ↔ child.isLive = true := by
  refine ⟨?_, fun h => ⟨child, hchild, rfl, h⟩⟩
  rintro ⟨other, hother, hid, h⟩
  rwa [hs.eq_of_id hother hchild hid] at h

/-- The condition under which a cancellation looks for a parent to resume. -/
lemma resumes_iff (hs : database.Sound) {child : Row} (hchild : child ∈ database.rows)
    (hown : ¬ database.rows.IsOwnParent child.id) :
    (database.Live child.id ∧ (TaskAction.outsideParent child.id
        (treeEdges database.rows child.id)).isSome = true) ↔
      child.isLive = true ∧ child.parent.isSome = true := by
  rw [live_iff hs hchild, outsideParent_eq hs hchild hown]

lemma parentOf_cancelAll (hs : database.Sound) {child : Row} (hchild : child ∈ database.rows)
    (now : Micros) (ids : List TaskId) :
    parentOf (database.cancelAll now ids).rows child.id = child.parent := by
  have hplace : ∀ row : Row, (row.cancelled now).id = row.id ∧
      (row.cancelled now).parent = row.parent := fun _ => ⟨rfl, rfl⟩
  rw [cancelAll, parentOf_change hplace, hs.parentOf_eq hchild]

/-- The cancellation of a tree is a change of every row on its own. -/
theorem treeCancelled_eq_change (hs : database.Sound) {child : Row}
    (hchild : child ∈ database.rows) (hown : ¬ database.rows.IsOwnParent child.id)
    (now : Micros) :
    database.treeCancelled now child.id =
      database.change (fun _ => true) (database.cancelledRow now child.id) := by
  have hparent := parentOf_cancelAll hs hchild now (database.treeOrder child.id)
  have hpick : ∀ row : Row, ((database.treeOrder child.id).contains row.id && row.isLive) = true ↔
      row.id ∈ database.treeOrder child.id ∧ row.isLive = true := by
    intro row
    rw [Bool.and_eq_true, List.contains_iff_mem]
  rw [treeCancelled, ← treeOrder]
  by_cases hresumes : child.isLive = true ∧ child.parent.isSome = true
  · rw [if_pos ((resumes_iff hs hchild hown).mpr hresumes), parentResumed_eq_change, hparent,
      cancelAll, change_change]
    refine change_congr fun row _ => ?_
    simp only [if_true, hpick, cancelledRow, resumedBy_iff hs hchild]
    by_cases hin : row.id ∈ database.treeOrder child.id ∧ row.isLive = true
    · -- a cancelled row does not wait
      rw [if_pos hin, if_pos hin, if_neg (by simp [Row.cancelled, Row.hasStatus])]
    · rw [if_neg hin, if_neg hin]
      refine if_congr ?_ rfl rfl
      rw [Bool.and_eq_true, beq_iff_eq]
      tauto
  · rw [if_neg (mt (resumes_iff hs hchild hown).mp hresumes), cancelAll]
    refine change_congr fun row _ => ?_
    simp only [if_true, hpick, cancelledRow, resumedBy_iff hs hchild]
    have hnot : ¬ (row.hasStatus .waiting = true ∧ child.isLive = true ∧
        child.parent = some row.id) :=
      fun h => hresumes ⟨h.2.1, by rw [h.2.2]; rfl⟩
    rw [if_neg hnot]

/-- A parent is resumed where there is a row to resume. -/
lemma cancelledParent?_isSome_iff (hs : database.Sound) {child : Row}
    (hchild : child ∈ database.rows) (hown : ¬ database.rows.IsOwnParent child.id)
    (now : Micros) :
    (database.cancelledParent? now child.id).isSome = true ↔
      ∃ row ∈ database.rows, database.rows.ResumedBy child.id row := by
  have hparent := parentOf_cancelAll hs hchild now (database.treeOrder child.id)
  have hwaits : ∀ parent, child.parent = some parent →
      ((∃ row ∈ (database.cancelAll now (database.treeOrder child.id)).rows,
          row.id = parent ∧ row.hasStatus .waiting = true) ↔
        ∃ row ∈ database.rows, row.id = parent ∧ row.hasStatus .waiting = true) := by
    intro parent hp
    -- the parent of the root lies below its tree, and is not cancelled
    have hout : parent ∉ database.treeOrder child.id := by
      intro hin
      have hu := (hs.mem_treeOrder hown ⟨child, hchild, rfl⟩).mp hin
      exact absurd (hs.parent_lt hown hu hchild hp) (hs.root_le hu).not_gt
    constructor
    · rintro ⟨row, hrow, hid, hw⟩
      rcases mem_change.mp hrow with ⟨hold, -⟩ | ⟨old, -, -, rfl⟩
      · exact ⟨row, hold, hid, hw⟩
      · cases hw
    · rintro ⟨row, hrow, hid, hw⟩
      exact ⟨row, mem_change.mpr (.inl ⟨hrow, by simp [hid, hout]⟩), hid, hw⟩
  simp only [resumedBy_iff hs hchild]
  rw [cancelledParent?]
  constructor
  · intro h
    split at h
    · rename_i hresumes
      have hlive := (resumes_iff hs hchild hown).mp hresumes
      obtain ⟨parent, hsome⟩ := Option.isSome_iff_exists.mp h
      obtain ⟨hp, hw⟩ := waitingParent?_eq_some_iff.mp hsome
      rw [hparent] at hp
      obtain ⟨row, hrow, hid, hwaiting⟩ := (hwaits parent hp).mp hw
      exact ⟨row, hrow, hwaiting, hlive.1, hid ▸ hp⟩
    · cases h
  · rintro ⟨row, hrow, hwaiting, hlive, hp⟩
    have hw := (hwaits row.id hp).mpr ⟨row, hrow, rfl, hwaiting⟩
    have hsome := waitingParent?_eq_some_iff.mpr ⟨hparent.trans hp, hw⟩
    have hresumes := (resumes_iff hs hchild hown).mpr ⟨hlive, by rw [hp]; rfl⟩
    rw [if_pos hresumes, hsome]
    rfl

/-! ### Behind a cancelled tree -/

/-- Behind the cancellation of a tree a row is at its end if it was before, or lies in the
tree. -/
lemma isLive_cancelledRow {now : Micros} {root : TaskId} {row : Row} :
    (database.cancelledRow now root row).isLive = true ↔
      row.isLive = true ∧ row.id ∉ database.treeOrder root := by
  rw [cancelledRow]
  split_ifs with hin hr
  · have hends : (row.cancelled now).isLive = false := rfl
    simp [hends, hin.1]
  · have hstays : (row.resumed now).isLive = true := rfl
    have hlive := Row.isLive_of_waiting hr.1
    simp only [hstays, hlive, true_and, true_iff]
    exact fun hmem => hin ⟨hmem, hlive⟩
  · tauto

variable {now : Micros} {child row : Row}

lemma rows_treeCancelled (hs : database.Sound) (hchild : child ∈ database.rows)
    (hown : ¬ database.rows.IsOwnParent child.id) :
    (database.treeCancelled now child.id).rows =
      database.rows.map (database.cancelledRow now child.id) := by
  rw [treeCancelled_eq_change hs hchild hown, rows_change]
  simp only [Table.update, if_true]

lemma mem_treeCancelled (hs : database.Sound) (hchild : child ∈ database.rows)
    (hown : ¬ database.rows.IsOwnParent child.id) (hrow : row ∈ database.rows) (now : Micros) :
    database.cancelledRow now child.id row ∈ (database.treeCancelled now child.id).rows := by
  rw [rows_treeCancelled hs hchild hown]
  exact List.mem_map_of_mem hrow

lemma sound_treeCancelled (hs : database.Sound) (hchild : child ∈ database.rows)
    (hown : ¬ database.rows.IsOwnParent child.id) :
    (database.treeCancelled now child.id).Sound := by
  rw [treeCancelled_eq_change hs hchild hown]
  exact hs.change fun row _ _ => database.cancelledRow_place now child.id row

lemma isOwnParent_treeCancelled (hs : database.Sound) (hchild : child ∈ database.rows)
    (hown : ¬ database.rows.IsOwnParent child.id) {id : TaskId} :
    (database.treeCancelled now child.id).rows.IsOwnParent id ↔ database.rows.IsOwnParent id := by
  rw [treeCancelled_eq_change hs hchild hown, rows_change]
  exact Table.isOwnParent_update fun row _ _ => database.cancelledRow_place now child.id row

/-- Behind the cancellation of a tree none of its tasks is left to cancel. -/
lemma not_live_of_cancelled (hs : database.Sound) (hchild : child ∈ database.rows)
    (hown : ¬ database.rows.IsOwnParent child.id) :
    ∀ row ∈ (database.treeCancelled now child.id).rows,
      (database.treeCancelled now child.id).rows.Under child.id row.id → row.isLive = false := by
  rw [rows_treeCancelled hs hchild hown]
  intro row hrow hu
  obtain ⟨old, hold, rfl⟩ := List.mem_map.mp hrow
  rw [Table.under_map_iff fun _ _ => cancelledRow_place ..,
    (database.cancelledRow_place now child.id old).1] at hu
  have hin := (hs.mem_treeOrder hown ⟨child, hchild, rfl⟩).mpr hu
  exact Bool.eq_false_iff.mpr fun hlive => (isLive_cancelledRow.mp hlive).2 hin

/-- Where none of its tasks is left to cancel, a tree counts none. -/
lemma liveAmong_of_ended (hs : database.Sound) {child : Row} (hchild : child ∈ database.rows)
    (hown : ¬ database.rows.IsOwnParent child.id)
    (hends : ∀ row ∈ database.rows, database.rows.Under child.id row.id → row.isLive = false) :
    database.liveAmong (database.treeOrder child.id) = 0 := by
  refine List.countP_eq_zero.mpr fun row hrow hpick => ?_
  obtain ⟨hin, hlive⟩ : row.id ∈ database.treeOrder child.id ∧ row.isLive = true := by
    simpa using hpick
  rw [hends row hrow ((hs.mem_treeOrder hown ⟨child, hchild, rfl⟩).mp hin)] at hlive
  cases hlive

end Database

/-! ### The call -/

namespace Store

variable {store : Store} {channel : Channel}

/-- The cancellation of a task in a transaction of its own. -/
lemma perform_cancel (quiet : store.begin.Quiet) (channel : Channel) {child : Row}
    (hchild : child ∈ store.database.rows) (hown : ¬ store.database.rows.IsOwnParent child.id) :
    store.perform channel (.cancel child.id) =
      ⟨.ok (.cancelled (store.database.liveAmong (store.database.treeOrder child.id))),
        if ∃ row ∈ store.database.rows, store.database.rows.ResumedBy child.id row then [channel]
        else [],
        { store with database := store.database.treeCancelled store.clock child.id }⟩ := by
  have htree : (∃ row ∈ store.database.rows, row.id = child.id) ∧
      ¬ store.database.rows.IsOwnParent child.id := ⟨⟨child, hchild, rfl⟩, hown⟩
  have hannounces : store.database.Announces store.clock (.cancel child.id) ↔
      ∃ row ∈ store.database.rows, store.database.rows.ResumedBy child.id row :=
    (and_iff_right htree).trans
      (Database.cancelledParent?_isSome_iff quiet.sound hchild hown store.clock)
  rw [perform_quiet quiet, Database.answered, if_neg hown, if_pos htree.1, Database.performed,
    if_pos htree, if_congr hannounces rfl rfl]

/-- The cancellation of a task that is not there. -/
lemma perform_cancel_missing (quiet : store.begin.Quiet) {id : TaskId}
    (h : ∀ row ∈ store.database.rows, row.id ≠ id) :
    store.perform channel (.cancel id) = ⟨.error (.notFound id), [], store⟩ := by
  have hrow : ¬ ∃ row ∈ store.database.rows, row.id = id := fun ⟨row, hrow, hid⟩ => h row hrow hid
  have hown : ¬ store.database.rows.IsOwnParent id := fun ⟨row, hrow, hid, _⟩ => h row hrow hid
  exact perform_idle quiet channel not_false ((if_neg hown).trans (if_neg hrow)) (by simp)

/-- The cancellation of a task that is its own parent. -/
lemma perform_cancel_endless (quiet : store.begin.Quiet) {id : TaskId}
    (hown : store.database.rows.IsOwnParent id) :
    store.perform channel (.cancel id) = ⟨.error (.refused .queryCanceled), [], store⟩ :=
  perform_idle quiet channel not_false (if_pos hown) (by simp)

/-- A cancellation that finds nothing left to cancel. -/
lemma perform_cancel_again (quiet : store.begin.Quiet) {child : Row}
    (hchild : child ∈ store.database.rows) (hown : ¬ store.database.rows.IsOwnParent child.id)
    (hends : ∀ row ∈ store.database.rows, store.database.rows.Under child.id row.id →
      row.isLive = false) :
    store.perform channel (.cancel child.id) = ⟨.ok (.cancelled 0), [], store⟩ := by
  have hcount := Database.liveAmong_of_ended quiet.sound hchild hown hends
  have hanswer : store.database.answered store.clock (.cancel child.id) = .ok (.cancelled 0) :=
    (if_neg hown).trans ((if_pos ⟨child, hchild, rfl⟩).trans (congrArg _ (congrArg _ hcount)))
  exact perform_idle quiet channel not_false hanswer fun answer h => Except.ok.inj h ▸ rfl

/-- A cancellation leaves a store that meets no failure, at any time. -/
lemma quiet_treeCancelled (quiet : store.begin.Quiet) {child : Row}
    (hchild : child ∈ store.database.rows) (hown : ¬ store.database.rows.IsOwnParent child.id)
    (later : Micros) :
    ({ store with
      database := store.database.treeCancelled store.clock child.id
      clock := later } : Store).begin.Quiet := by
  refine ⟨quiet.fault, ?_, Database.sound_treeCancelled quiet.sound hchild hown⟩
  have htasks : store.database.tasks.isSome = true := quiet.tasks
  have hchange := Database.treeCancelled_eq_change quiet.sound hchild hown store.clock
  simpa [begin, show store.database.treeCancelled store.clock child.id = _ from hchange,
    Database.change] using htasks

/-- Behind the cancellation of a task there is nothing left to cancel, at any time. -/
lemma perform_cancel_twice (quiet : store.begin.Quiet) {child : Row}
    (hchild : child ∈ store.database.rows) (hown : ¬ store.database.rows.IsOwnParent child.id)
    (later : Micros) :
    let after : Store :=
      { store with
        database := store.database.treeCancelled store.clock child.id
        clock := later }
    after.perform channel (.cancel child.id) = ⟨.ok (.cancelled 0), [], after⟩ := by
  intro after
  have sound : store.database.Sound := quiet.sound
  have quiet' : after.begin.Quiet := quiet_treeCancelled quiet hchild hown later
  have hends : ∀ row ∈ after.database.rows, after.database.rows.Under child.id row.id →
      row.isLive = false := Database.not_live_of_cancelled sound hchild hown
  have hrow : store.database.cancelledRow store.clock child.id child ∈ after.database.rows :=
    Database.mem_treeCancelled sound hchild hown hchild _
  have hown' : ¬ after.database.rows.IsOwnParent child.id :=
    mt (Database.isOwnParent_treeCancelled sound hchild hown).mp hown
  rw [← (store.database.cancelledRow_place store.clock child.id child).1] at hends hown' ⊢
  exact perform_cancel_again quiet' hrow hown' hends

end Store

/-! ### The effect -/

/-- What the cancellation of a task at a time makes of a row of the table. Of the tree of the
task the rows that are not at an end fail as cancelled, and the others stay. Outside of the
tree the row of the parent becomes pending, if it waits and the task was not at an end, and
all others stay. -/
inductive Row.CancelEffect (table : Table) (now : Micros) (root : TaskId) (row : Row) :
    Row → Prop where
  | cancelled (hu : table.Under root row.id)
      (hs : row.status = .known .pending ∨ row.status = .known .running ∨
        row.status = .known .waiting) :
      CancelEffect table now root row { row with
        status := .known .failed
        error := some "cancelled"
        worker := none
        leaseExpires := none
        updated := now }
  | ended (hu : table.Under root row.id)
      (hs : row.status = .known .completed ∨ row.status = .known .failed) :
      CancelEffect table now root row row
  | resumed (hu : ¬ table.Under root row.id) (hw : row.status = .known .waiting) (child : Row)
      (hchild : child ∈ table) (hid : child.id = root) (hlive : child.isLive = true)
      (hparent : child.parent = some row.id) :
      CancelEffect table now root row { row with status := .known .pending, updated := now }
  | untouched (hu : ¬ table.Under root row.id)
      (h : row.status = .known .waiting → ∀ child ∈ table, child.id = root →
        child.isLive = true → child.parent ≠ some row.id) :
      CancelEffect table now root row row

namespace Row

variable {row : Row}

lemma isLive_iff (known : ∃ status, row.status = .known status) :
    row.isLive = true ↔ row.status = .known .pending ∨ row.status = .known .running ∨
      row.status = .known .waiting := by
  obtain ⟨status, hs⟩ := known
  rw [isLive, hs]
  cases status <;> simp [StatusColumn.isLive, Status.isTerminal]

lemma not_isLive_iff (known : ∃ status, row.status = .known status) :
    ¬ row.isLive = true ↔ row.status = .known .completed ∨ row.status = .known .failed := by
  obtain ⟨status, hs⟩ := known
  rw [isLive, hs]
  cases status <;> simp [StatusColumn.isLive, Status.isTerminal]

/-- The row behind a cancellation is the one that the effect gives. -/
lemma cancelEffect {database : Database} (hs : database.Sound) {child : Row}
    (hchild : child ∈ database.rows) (hown : ¬ database.rows.IsOwnParent child.id)
    (known : ∃ status, row.status = .known status) (now : Micros) :
    row.CancelEffect database.rows now child.id (database.cancelledRow now child.id row) := by
  have hin : row.id ∈ database.treeOrder child.id ↔ database.rows.Under child.id row.id :=
    hs.mem_treeOrder hown ⟨child, hchild, rfl⟩
  rw [Database.cancelledRow]
  by_cases hu : database.rows.Under child.id row.id
  · by_cases hlive : row.isLive = true
    · rw [if_pos ⟨hin.mpr hu, hlive⟩]
      exact .cancelled hu ((isLive_iff known).mp hlive)
    · have hnot : ¬ database.rows.ResumedBy child.id row := fun h =>
        hlive (isLive_of_waiting h.1)
      rw [if_neg fun h => hlive h.2, if_neg hnot]
      exact .ended hu ((not_isLive_iff known).mp hlive)
  · rw [if_neg fun h => hu (hin.mp h.1)]
    by_cases hr : database.rows.ResumedBy child.id row
    · obtain ⟨hw, other, hother, hid, hlive, hparent⟩ := hr
      rw [if_pos ⟨hw, other, hother, hid, hlive, hparent⟩]
      exact .resumed hu (hasStatus_iff.mp hw) other hother hid hlive hparent
    · rw [if_neg hr]
      exact .untouched hu fun hw other hother hid hlive hparent =>
        hr ⟨hasStatus_iff.mpr hw, other, hother, hid, hlive, hparent⟩

end Row

namespace Store

open scoped Classical in
/-- The exact effect of a cancellation in every reachable store and at every time. Without
the task it answers that there is none, and changes and publishes nothing. Of a task that is
its own parent the tree has no end: however many rounds the walk down the tree is given, it
finds no end, and the cancellation fails without any effect. Otherwise the cancellation counts
the rows of the tree that were not at an end, has its effect on each row and on nothing else,
and publishes if it has resumed a parent. A second cancellation counts and changes nothing,
and is silent. -/
theorem cancel_exact (start now : Micros) (channel : Channel) (calls : List Call) (id : TaskId) :
    let store : Store := { (initial start).play channel calls with clock := now }
    let table := store.database.rows
    let reply := store.perform channel (.cancel id)
    ((∀ row ∈ table, row.id ≠ id) → reply = ⟨.error (.notFound id), [], store⟩) ∧
      (table.IsOwnParent id →
        (∀ rounds, Database.walk table rounds (table.filter fun row => row.id == id) = none) ∧
          reply = ⟨.error (.refused .queryCanceled), [], store⟩) ∧
      ((∃ row ∈ table, row.id = id) → ¬ table.IsOwnParent id →
        ∃ after : Table, List.Forall₂ (Row.CancelEffect table now id) table after ∧
          reply =
            { answer := .ok (.cancelled
                (table.countP fun row => table.Under id row.id ∧ row.isLive = true))
              published := if ∃ row ∈ table, table.ResumedBy id row then [channel] else []
              store := { store with database := { store.database with tasks := some after } } } ∧
          ∀ later : Micros, ({ reply.store with clock := later } : Store).perform channel
              (.cancel id) =
            ⟨.ok (.cancelled 0), [], { reply.store with clock := later }⟩) := by
  intro store table reply
  have played := play_quiet start channel calls
  have quiet : store.begin.Quiet := ⟨played.fault, played.tasks, played.sound⟩
  refine ⟨fun hmissing => perform_cancel_missing quiet hmissing,
    fun hown => ⟨Database.walk_eq_none hown, perform_cancel_endless quiet hown⟩, ?_⟩
  rintro ⟨child, hchild, rfl⟩ hown
  have sound : store.database.Sound := quiet.sound
  have htasks : store.database.tasks.isSome = true := quiet.tasks
  have hreply : reply = _ := perform_cancel quiet channel hchild hown
  have hchange : store.database.treeCancelled now child.id =
      { store.database with
        tasks := some (table.map (store.database.cancelledRow now child.id)) } := by
    rw [Database.treeCancelled_eq_change sound hchild hown, Database.change_all htasks]
  have hcount : store.database.liveAmong (store.database.treeOrder child.id) =
      table.countP fun row => table.Under child.id row.id ∧ row.isLive = true := by
    refine List.countP_congr fun row _ => ?_
    rw [Bool.and_eq_true, List.contains_iff_mem, sound.mem_treeOrder hown ⟨child, hchild, rfl⟩,
      decide_eq_true_iff]
  refine ⟨table.map (store.database.cancelledRow now child.id), ?_, ?_, fun later => ?_⟩
  · rw [List.forall₂_map_right_iff, List.forall₂_same]
    exact fun row hrow =>
      Row.cancelEffect sound hchild hown (play_known start channel calls row hrow) now
  · rw [hreply, hcount, hchange]
  · rw [hreply]
    exact perform_cancel_twice quiet hchild hown later

/-- A first task can be created as a child of itself. It waits to be run, but the walk down its
tree has no end and no cancellation gets through to it: the task is pending still, and no row
of its tree was counted. -/
theorem cancel_own_parent :
    let store := (initial 0).play .standard [.perform (.createChild 1 "job" none)]
    let reply := store.perform .standard (.cancel 1)
    store.database.rows = [.fresh 0 1 "job" Json.emptyObject (some 1)] ∧
      (∀ rounds, Database.walk store.database.rows rounds
        (store.database.rows.filter fun row => row.id == 1) = none) ∧
      reply.answer ≠ .ok (.cancelled 1) ∧
      reply.store.database.rows = store.database.rows := by
  have hown : Table.IsOwnParent [.fresh 0 1 "job" Json.emptyObject (some 1)] 1 :=
    ⟨_, List.mem_singleton_self _, rfl, rfl⟩
  exact ⟨by rfl, Database.walk_eq_none hown, by decide, by rfl⟩

end Store
end LeaseQueue
