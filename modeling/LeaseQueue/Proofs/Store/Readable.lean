/-
Which stored tasks can be read.

* `Row.Shown`: a task shows all columns of a row;
* `Row.Readable`, `Row.fault`: the state of a row comes back and its lease ends in the calendar, or
  else why it cannot be read;
* `Row.task_of_readable`, `Row.task_of_unreadable`: a row is read if and only if it is readable;
* `Table.mapM_task`, `Table.mapM_task_fault`: rows are read together, or none of them is;
* `Store.read_exact`: the questions for a task and for children, in every reachable store;
* `Store.siblings_read`, `Store.late_lease_unread`: a store that can be read, and one that cannot.

The database writes the ends of leases up to the year 294276, and the calendar of those who read
them ends in the year 262142.
-/
import LeaseQueue.Proofs.Store.Dates
import LeaseQueue.Proofs.Store.Deadline
import LeaseQueue.Proofs.Store.Drain
import LeaseQueue.Proofs.Store.Untouched
import LeaseQueue.Proofs.Time.Calendar

namespace LeaseQueue

/-! ### One row -/

namespace Row

/-- A task shows a row: all its columns, with the state that comes back and the dates of its
times. -/
structure Shown (row : Row) (task : Task) : Prop where
  id : task.id = row.id
  taskType : task.taskType = row.taskType
  state : row.readState = .ok task.state
  status : row.status = .known task.status
  worker : task.worker = row.worker
  lease : task.leaseExpires = row.leaseExpires.bind Timestamp.ofMicros?
  error : task.error = row.error
  parent : task.parent = row.parent
  created : Timestamp.ofMicros? row.created = some task.created
  updated : Timestamp.ofMicros? row.updated = some task.updated

/-- The state of the row comes back, and its lease ends in the calendar, if there is one. -/
def Readable (row : Row) : Prop :=
  row.isRead = true ∧ ∀ deadline ∈ row.leaseExpires, deadline ≤ Timestamp.lastMicros

instance (row : Row) : Decidable row.Readable :=
  inferInstanceAs (Decidable (_ ∧ ∀ deadline ∈ row.leaseExpires, _))

/-- The error about a lease that ends behind the calendar. -/
def lateLease : TaskError := .database (.undecodable "lease_expires_at")

/-- The error about a row that is not readable. Its state is looked at first. -/
def fault (row : Row) : TaskError := if row.isRead then lateLease else unreadState

/-- The row was written within the calendar. -/
structure Datable (row : Row) : Prop where
  known : ∃ status, row.status = .known status
  created : (Timestamp.ofMicros? row.created).isSome = true
  updated : (Timestamp.ofMicros? row.updated).isSome = true
  lease : ∀ deadline ∈ row.leaseExpires, Timestamp.firstMicros ≤ deadline

variable {row : Row}

/-- A readable row is shown. -/
lemma task_of_readable (h : row.Datable) (hr : row.Readable) :
    ∃ task, row.task = .ok task ∧ row.Shown task := by
  obtain ⟨hread, hcalendar⟩ := hr
  obtain ⟨state, hstate⟩ := (row.isRead_iff).mp hread
  obtain ⟨status, hstatus⟩ := h.known
  obtain ⟨created, hcreated⟩ := Option.isSome_iff_exists.mp h.created
  obtain ⟨updated, hupdated⟩ := Option.isSome_iff_exists.mp h.updated
  have hlease : readOptionalTime "lease_expires_at" row.leaseExpires =
      .ok (row.leaseExpires.bind Timestamp.ofMicros?) := by
    cases hd : row.leaseExpires with
    | none => rfl
    | some deadline =>
        obtain ⟨time, htime⟩ := Option.isSome_iff_exists.mp
          ((Timestamp.isSome_ofMicros? deadline).mpr ⟨h.lease deadline hd, hcalendar deadline hd⟩)
        rw [Option.bind_some, readOptionalTime, readTime, htime]
        rfl
  refine ⟨{ row with
    state, status, created, updated
    leaseExpires := row.leaseExpires.bind Timestamp.ofMicros? },
    ?_, ⟨rfl, rfl, hstate, hstatus, rfl, rfl, rfl, rfl, hcreated, hupdated⟩⟩
  rw [task, hstate, hstatus, hlease, readTime, readTime, hcreated, hupdated]
  rfl

/-- A row that is not readable gives its fault. -/
lemma task_of_unreadable (h : row.Datable) (hr : ¬ row.Readable) :
    row.task = .error row.fault := by
  obtain ⟨state, hstate⟩ | hstate := row.readState_cases
  · have hread : row.isRead = true := row.isRead_iff.mpr ⟨state, hstate⟩
    obtain ⟨status, hstatus⟩ := h.known
    simp only [Readable, hread, true_and, not_forall] at hr
    obtain ⟨deadline, hd, hlate⟩ := hr
    have hnone : Timestamp.ofMicros? deadline = none := by
      rw [← Option.not_isSome_iff_eq_none, Timestamp.isSome_ofMicros?]
      exact fun hin => hlate hin.2
    rw [fault, if_pos hread, task, hstate, hstatus, Option.mem_def.mp hd, readOptionalTime,
      readTime, hnone]
    rfl
  · have hread : ¬ row.isRead = true := by
      rw [isRead, hstate]
      exact Bool.false_ne_true
    rw [fault, if_neg hread, task, hstate]
    rfl

end Row

/-! ### Several rows -/

namespace Table

/-- Rows that can all be read are shown, one by one. -/
lemma mapM_task {rows : Table} (h : ∀ row ∈ rows, row.Datable) (hr : ∀ row ∈ rows, row.Readable) :
    ∃ tasks, rows.mapM Row.task = .ok tasks ∧ List.Forall₂ Row.Shown rows tasks := by
  induction rows with
  | nil => exact ⟨[], rfl, .nil⟩
  | cons row rest ih =>
      obtain ⟨task, htask, hshown⟩ :=
        Row.task_of_readable (h row List.mem_cons_self) (hr row List.mem_cons_self)
      obtain ⟨tasks, htasks, hall⟩ := ih (fun other hmem => h other (List.mem_cons_of_mem _ hmem))
        fun other hmem => hr other (List.mem_cons_of_mem _ hmem)
      refine ⟨task :: tasks, ?_, .cons hshown hall⟩
      rw [List.mapM_cons, htask, htasks]
      rfl

/-- The first row that is not readable keeps all of them from being read. -/
lemma mapM_task_fault {rows : Table} {row : Row} (h : ∀ row ∈ rows, row.Datable)
    (hfirst : List.find? (fun row => ¬ row.Readable) rows = some row) :
    rows.mapM Row.task = .error row.fault := by
  induction rows with
  | nil => cases hfirst
  | cons first rest ih =>
      rw [List.mapM_cons]
      by_cases hr : first.Readable
      · obtain ⟨task, htask, -⟩ := Row.task_of_readable (h first List.mem_cons_self) hr
        rw [List.find?_cons_of_neg (by simpa using hr)] at hfirst
        rw [htask, ih (fun other hmem => h other (List.mem_cons_of_mem _ hmem)) hfirst]
        rfl
      · rw [List.find?_cons_of_pos (by simpa using hr)] at hfirst
        obtain rfl := Option.some.inj hfirst
        rw [Row.task_of_unreadable (h first List.mem_cons_self) hr]
        rfl

end Table

/-! ### Reachable stores -/

/-- The children of a task are those rows whose parent it is, each once and oldest first. -/
lemma Database.Sound.children {database : Database} (sound : database.Sound) (parent : TaskId) :
    (∀ row, row ∈ database.rows.children parent ↔
      row ∈ database.rows ∧ row.parent = some parent) ∧
      (database.rows.children parent).Nodup ∧
      (database.rows.children parent).Pairwise fun a b => a.before b = true := by
  have hordered := sound.ordered_mergeSort fun row => row.parent == some parent
  refine ⟨fun row => ?_, hordered.imp fun {a b} hbefore => ?_, hordered⟩
  · rw [Table.children, List.mem_mergeSort, List.mem_filter, beq_iff_eq]
  · rintro rfl
    rw [Row.before_self] at hbefore
    cases hbefore

namespace Store

variable {start : Micros} {channel : Channel} {calls : List Call}

/-- Within the calendar all rows are written within the calendar. -/
lemma datable_of_clock (hstart : Timestamp.firstMicros ≤ start)
    (hclock : ((initial start).play channel calls).clock ≤ Timestamp.lastMicros) :
    ∀ row ∈ ((initial start).play channel calls).database.rows, row.Datable := by
  intro row hrow
  obtain ⟨hcreated, hupdated, hnow⟩ := (play_timely start channel calls).rows row hrow
  refine ⟨play_known start channel calls row hrow, ?_, ?_, fun deadline hdeadline => ?_⟩
  · exact (Timestamp.isSome_ofMicros? _).mpr
      ⟨hstart.trans hcreated, (hupdated.trans hnow).trans hclock⟩
  · exact (Timestamp.isSome_ofMicros? _).mpr
      ⟨hstart.trans (hcreated.trans hupdated), hnow.trans hclock⟩
  · obtain ⟨now, lease, ⟨hfirst, -⟩, hd⟩ :=
      play_granted start channel calls row hrow deadline hdeadline
    exact hstart.trans (hfirst.trans (Database.le_of_leaseDeadline? hd))

/-- What can be read of the stored tasks. In every store that calls reach from the empty one within
the calendar the question for a task is answered with the task, unless its state does not come back
from its column or its lease ends behind the calendar, and with its absence if there is none. The
questions for the children of a task are answered with all of them, each once and oldest first,
unless one of them cannot be read: then the first such child keeps all of them from being read.
A state that its column keeps comes back as it was stored. Every lease is one that the database has
accepted in the meantime. -/
theorem read_exact (hstart : Timestamp.firstMicros ≤ start)
    (hclock : ((initial start).play channel calls).clock ≤ Timestamp.lastMicros) :
    let store := (initial start).play channel calls
    let answer (operation : Operation) := (store.perform channel operation).answer
    (∀ id, (∀ row ∈ store.database.rows, row.id ≠ id) → answer (.get id) = .error (.notFound id)) ∧
    (∀ row ∈ store.database.rows,
      (row.Readable → ∃ task, answer (.get row.id) = .ok (.task task) ∧ row.Shown task) ∧
      (¬ row.Readable → answer (.get row.id) = .error row.fault)) ∧
    (∀ parent, ∀ question ∈ [Operation.children parent, .lockChildren parent],
      let children := store.database.rows.children parent
      ((∀ row ∈ children, row.Readable) →
        ∃ tasks, answer question = .ok (.tasks tasks) ∧ List.Forall₂ Row.Shown children tasks) ∧
      ∀ row, List.find? (fun row => ¬ row.Readable) children = some row →
        answer question = .error row.fault) ∧
    (∀ parent,
      let children := store.database.rows.children parent
      (∀ row, row ∈ children ↔ row ∈ store.database.rows ∧ row.parent = some parent) ∧
        children.Nodup ∧ children.Pairwise fun a b => a.before b = true) ∧
    ∀ row ∈ store.database.rows,
      (row.state.Kept Json.depthLimit → row.readState = .ok row.state) ∧
        ∀ deadline ∈ row.leaseExpires, Database.Granted start store.clock deadline := by
  intro store answer
  have sound : store.database.Sound := play_sound start channel calls
  have datable := datable_of_clock hstart hclock
  have quiet : store.begin.Quiet := play_quiet start channel calls
  have hanswer : ∀ operation, answer operation = store.database.answered store.clock operation :=
    fun operation => congrArg Reply.answer (perform_quiet quiet channel operation)
  refine ⟨fun id hmissing => ?_, fun row hrow => ?_, fun parent question hquestion => ?_,
    fun parent => sound.children parent,
    fun row hrow => ⟨Row.readState_of_kept, play_granted start channel calls row hrow⟩⟩
  · have hnone : store.database.rows.find? id = none := by
      refine List.find?_eq_none.mpr fun row hrow => ?_
      simpa using hmissing row hrow
    rw [hanswer, Database.answered, hnone]
    rfl
  · rw [hanswer, Database.answered, sound.find?_eq hrow, Option.elim_some]
    refine ⟨fun hr => ?_, fun hr => ?_⟩
    · obtain ⟨task, htask, hshown⟩ := Row.task_of_readable (datable row hrow) hr
      exact ⟨task, by rw [htask]; rfl, hshown⟩
    · rw [Row.task_of_unreadable (datable row hrow) hr]
      rfl
  · intro children
    have hchildren : ∀ row ∈ children, row.Datable := fun row hrow =>
      datable row (((sound.children parent).1 row).mp hrow).1
    have hquestions : answer question = (children.mapM Row.task).map .tasks := by
      rw [hanswer]
      rcases List.mem_pair.mp hquestion with rfl | rfl <;> rfl
    rw [hquestions]
    refine ⟨fun hr => ?_, fun row hfirst => ?_⟩
    · obtain ⟨tasks, htasks, hall⟩ := Table.mapM_task hchildren hr
      exact ⟨tasks, by rw [htasks]; rfl, hall⟩
    · rw [Table.mapM_task_fault hchildren hfirst]
      rfl

/-- Two children of a task, one of which runs under a lease. -/
def siblings (lease : Duration) : List Call :=
  [.perform (.create "job" none), .perform (.createChild 1 "part" none),
    .perform (.createChild 1 "piece" none), .claim ["part"] "worker" lease]

theorem siblings_read :
    let store := (initial 0).play .standard (siblings (.ofSeconds 60))
    ∃ tasks, (store.perform .standard (.children 1)).answer = .ok (.tasks tasks) ∧
      tasks.length = 2 := by
  intro store
  have hchildren : store.database.rows.children 1 = store.database.rows.offspring 1 :=
    Table.children_eq_offspring (play_sound 0 .standard _).ordered
      (by decide +kernel : ∀ child ∈ Table.offspring _ 1, child.created = 0)
  have hread := read_exact (by decide : Timestamp.firstMicros ≤ 0)
    (by decide +kernel : store.clock ≤ Timestamp.lastMicros)
  obtain ⟨tasks, hanswer, hshown⟩ := (hread.2.2.1 1 _ List.mem_cons_self).1 (by
    rw [hchildren]
    decide +kernel)
  refine ⟨tasks, hanswer, ?_⟩
  rw [← hshown.length_eq, hchildren]
  decide +kernel

/-- The database accepts a lease that ends behind the calendar, and then the task cannot be read,
and neither can its sibling in a list of children. -/
theorem late_lease_unread :
    let store := (initial 0).play .standard (siblings (.ofMillis 8500000000000000))
    ((store.database.rows.find? 2).map Row.leaseExpires = some (some 8500000000000000000) ∧
      (store.database.rows.find? 3).isSome = true) ∧
      (store.perform .standard (.get 2)).answer = .error Row.lateLease ∧
      (store.perform .standard (.children 1)).answer = .error Row.lateLease := by
  intro store
  have quiet : store.begin.Quiet := play_quiet 0 .standard _
  have hchildren : store.database.rows.children 1 = store.database.rows.offspring 1 :=
    Table.children_eq_offspring quiet.sound.ordered
      (by decide +kernel : ∀ child ∈ Table.offspring _ 1, child.created = 0)
  refine ⟨by decide +kernel, by decide +kernel, ?_⟩
  rw [perform_quiet quiet, Database.answered, hchildren]
  decide +kernel

end Store
end LeaseQueue
