/-
The rows of the task table, in ascending order of their numbers, and the changes
that single statements make to them:

* `Table.update`: changes the rows that a condition picks;
* `Table.find?`, `Table.children`: the row of a number, the children of a task;
* `Table.oldest?`: of some rows the one that was created first;
* `mem_update`, `find?_update`: what an update leaves of the rows.
-/
import LeaseQueue.Store.Row

namespace LeaseQueue

/-- The rows of the task table. -/
abbrev Table := List Row

namespace Table

/-- The row of a number. -/
def find? (table : Table) (id : TaskId) : Option Row :=
  List.find? (fun row => row.id == id) table

/-- There is a row of this number. -/
def has (table : Table) (id : TaskId) : Bool := (table.find? id).isSome

/-- Changes the rows that a condition picks. -/
def update (pick : Row → Bool) (change : Row → Row) (table : Table) : Table :=
  table.map fun row => if pick row then change row else row

/-- The rows of a number that a condition picks as well. -/
def only (id : TaskId) (condition : Row → Bool) (row : Row) : Bool :=
  row.id == id && condition row

/-- Of some rows the one that comes before all others. -/
def oldest? : Table → Option Row
  | [] => none
  | row :: rest =>
    match oldest? rest with
    | none => some row
    | some other => if row.before other then some row else some other

/-- The rows of the children of a task, oldest first. -/
def children (table : Table) (parent : TaskId) : List Row :=
  (table.filter fun row => row.parent == some parent).mergeSort fun a b => !b.before a

/-! ### Updates -/

theorem mem_update {pick : Row → Bool} {change : Row → Row} {table : Table} {row : Row} :
    row ∈ update pick change table ↔
      (row ∈ table ∧ pick row = false) ∨ ∃ old ∈ table, pick old = true ∧ change old = row := by
  simp only [update, List.mem_map]
  constructor
  · rintro ⟨old, hold, rfl⟩
    by_cases h : pick old = true
    · exact .inr ⟨old, hold, h, by simp [h]⟩
    · exact .inl ⟨by simpa [h] using hold, by simp [h]⟩
  · rintro (⟨hmem, h⟩ | ⟨old, hold, h, rfl⟩)
    · exact ⟨row, hmem, by simp [h]⟩
    · exact ⟨old, hold, by simp [h]⟩

theorem find?_update {pick : Row → Bool} {change : Row → Row}
    (h : ∀ row, (change row).id = row.id) (table : Table) (id : TaskId) :
    find? (update pick change table) id =
      (find? table id).map fun row => if pick row then change row else row := by
  have key : ∀ row : Row, (if pick row then change row else row).id = row.id := by
    intro row; by_cases hp : pick row = true <;> simp [hp, h]
  induction table with
  | nil => rfl
  | cons row rest ih =>
    simp only [find?, update] at ih
    simp only [find?, update, List.map_cons, List.find?_cons, key]
    split
    · simp
    · exact ih

/-- An update that picks nothing changes nothing. -/
theorem update_eq_self {pick : Row → Bool} {change : Row → Row} {table : Table}
    (h : ∀ row ∈ table, pick row = false) : update pick change table = table := by
  have : ∀ row ∈ table, (if pick row then change row else row) = row := by
    intro row hrow; simp [h row hrow]
  simpa [update] using List.map_congr_left this

theorem find?_eq_some_mem {table : Table} {id : TaskId} {row : Row}
    (h : find? table id = some row) : row ∈ table ∧ row.id = id :=
  ⟨List.mem_of_find?_eq_some h, by simpa using List.find?_some h⟩

theorem oldest?_mem : ∀ {table : Table} {row : Row}, oldest? table = some row → row ∈ table
  | [], _, h => by cases h
  | first :: rest, row, h => by
    unfold oldest? at h
    split at h
    · cases h; exact List.mem_cons_self
    · next other ho =>
      split at h
      · cases h; exact List.mem_cons_self
      · cases h; exact List.mem_cons_of_mem _ (oldest?_mem ho)

theorem oldest?_eq_none_iff {table : Table} : oldest? table = none ↔ table = [] := by
  cases table with
  | nil => simp [oldest?]
  | cons row rest =>
    simp only [oldest?, reduceCtorEq, iff_false]
    split
    · simp
    · split <;> simp

end Table
end LeaseQueue
