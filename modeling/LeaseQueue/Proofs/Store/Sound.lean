/-
What calls of the store make of a database, and the tables that come of it.

* `Database.Step`, `Database.Steps`: a write of an operation, a renewal or a claim;
  any number of them;
* `Database.Sound`: the rows stand in the order of their numbers, no number is
  still to come, and every parent is an earlier row or the row itself;
* `Steps.sound`: all steps keep a sound database sound;
* `Steps.forall_rows`: what every change of a row keeps holds of all rows;
* `Database.Known`: every status is one of the five;
* `Transaction.Quiet`: a transaction that meets no failure, over a sound table.

In a sound database a number stands for one row (`Sound.eq_of_id`), so that changes
of the rows of a number are changes of one row.
-/
import LeaseQueue.Proofs.Store.Write

namespace LeaseQueue

namespace Database

/-! ### Steps -/

/-- A step of the database: a write of an operation, the renewal of a lease, or the
claim of a row that can be claimed. -/
inductive Step : Database → Database → Prop where
  | write {before after : Database} (h : before.Write after) : Step before after
  | renew {database : Database} (task : TaskId) (worker : WorkerId) (now deadline : Micros) :
      Step database
        (database.change (Table.only task (Row.isHeldBy worker)) (Row.renewed now deadline))
  | claim {database : Database} {row : Row} {now : Micros} {types : List String}
      (worker : WorkerId) (deadline : Micros) (hrow : row ∈ database.rows)
      (he : row.isEligible now types = true) :
      Step database
        (database.change (Table.only row.id fun _ => true) (Row.claimed now worker deadline))

/-- Any number of steps. -/
abbrev Steps : Database → Database → Prop := Relation.ReflTransGen Step

lemma Writes.steps {before after : Database} (h : before.Writes after) : before.Steps after :=
  h.lift id fun _ _ => .write

/-! ### Sound databases -/

/-- The rows stand in the order of their numbers, the next number is above them all,
and a parent is an earlier row or the row itself. -/
structure Sound (database : Database) : Prop where
  ordered : database.rows.Pairwise fun a b => a.id < b.id
  below : ∀ row ∈ database.rows, row.id < database.nextId
  rooted : ∀ row ∈ database.rows, ∀ parent ∈ row.parent,
    parent ≤ row.id ∧ ∃ other ∈ database.rows, other.id = parent

namespace Sound

variable {database : Database}

/-- A number stands for one row. -/
lemma eq_of_id (h : database.Sound) {a b : Row} (ha : a ∈ database.rows)
    (hb : b ∈ database.rows) (hab : a.id = b.id) : a = b := by
  have hnodup : (database.rows.map Row.id).Nodup :=
    List.pairwise_map.mpr (h.ordered.imp fun hlt => ne_of_lt hlt)
  exact List.inj_on_of_nodup_map hnodup ha hb hab

lemma find?_eq (h : database.Sound) {row : Row} (hrow : row ∈ database.rows) :
    database.rows.find? row.id = some row := by
  cases hf : database.rows.find? row.id with
  | none =>
      have := List.find?_eq_none.mp hf row hrow
      simp at this
  | some other =>
      obtain ⟨hother, hid⟩ := Table.find?_eq_some_mem hf
      rw [h.eq_of_id hother hrow hid]

lemma parentOf_eq (h : database.Sound) {row : Row} (hrow : row ∈ database.rows) :
    parentOf database.rows row.id = row.parent := by
  rw [parentOf, h.find?_eq hrow]
  rfl

/-- At most one row of a number meets a condition. -/
lemma countP_only (h : database.Sound) (id : TaskId) (condition : Row → Bool) :
    database.rows.countP (Table.only id condition) =
      (database.rows.any (Table.only id condition)).toNat := by
  have hnodup : (database.rows.map Row.id).Nodup :=
    List.pairwise_map.mpr (h.ordered.imp fun hlt => ne_of_lt hlt)
  have hle : database.rows.countP (Table.only id condition) ≤ 1 :=
    calc database.rows.countP (Table.only id condition)
        ≤ database.rows.countP (fun row => row.id == id) :=
          List.countP_mono_left fun row _ hrow => by simpa using (Table.only_eq_true.mp hrow).1
      _ = (database.rows.map Row.id).count id := by
          rw [List.count_eq_countP, List.countP_map]; rfl
      _ ≤ 1 := List.nodup_iff_count_le_one.mp hnodup id
  by_cases hany : database.rows.any (Table.only id condition) = true
  · have hpos : 0 < database.rows.countP (Table.only id condition) :=
      List.countP_pos_iff.mpr (List.any_eq_true.mp hany)
    rw [hany, Bool.toNat_true]
    omega
  · have hzero : database.rows.countP (Table.only id condition) = 0 :=
      List.countP_eq_zero.mpr fun row hrow hp => hany (List.any_eq_true.mpr ⟨row, hrow, hp⟩)
    rw [hzero, Bool.eq_false_iff.mpr hany, Bool.toNat_false]

/-- A change that keeps numbers and parents keeps a database sound. -/
lemma change (h : database.Sound) {pick : Row → Bool} {f : Row → Row}
    (hf : ∀ row ∈ database.rows, pick row = true →
      (f row).id = row.id ∧ (f row).parent = row.parent) :
    (database.change pick f).Sound := by
  have place : ∀ row ∈ database.rows, (if pick row then f row else row).id = row.id ∧
      (if pick row then f row else row).parent = row.parent :=
    fun row hrow => Row.same_place_ite (hf row hrow)
  refine ⟨?_, ?_, ?_⟩ <;> rw [rows_change, Table.update]
  · refine List.pairwise_map.mpr (h.ordered.imp_of_mem fun ha hb hlt => ?_)
    rw [(place _ ha).1, (place _ hb).1]
    exact hlt
  · intro row hrow
    obtain ⟨old, hold, rfl⟩ := List.mem_map.mp hrow
    rw [(place old hold).1]
    exact h.below old hold
  · intro row hrow parent hparent
    obtain ⟨old, hold, rfl⟩ := List.mem_map.mp hrow
    rw [(place old hold).2] at hparent
    obtain ⟨hle, other, hother, hid⟩ := h.rooted old hold parent hparent
    refine ⟨by rw [(place old hold).1]; exact hle, _, List.mem_map_of_mem hother, ?_⟩
    rw [(place other hother).1, hid]

/-- A change of the row of a number, where the row meets the condition. -/
lemma change_only (h : database.Sound) (ht : database.tasks.isSome = true) {row : Row}
    (hrow : row ∈ database.rows) {condition : Row → Bool} (hc : condition row = true)
    (f : Row → Row) :
    database.change (Table.only row.id condition) f =
      { database with
        tasks := some (database.rows.map fun other => if other = row then f row else other) } := by
  rw [← change_all ht]
  refine change_congr fun other hother => ?_
  by_cases hsame : other = row
  · rw [if_pos (by rw [hsame]; exact Table.only_eq_true.mpr ⟨rfl, hc⟩), hsame]
    simp
  · rw [if_neg fun h' => hsame (h.eq_of_id hother hrow (Table.only_eq_true.mp h').1)]
    simp [hsame]

lemma write (h : database.Sound) {after : Database} (hw : database.Write after) :
    after.Sound := by
  cases hw with
  | @insert table now taskType state parent ht hp =>
      have hrows : database.rows = table := by simp [rows, ht]
      obtain ⟨ordered, below, rooted⟩ := h
      rw [hrows] at ordered below rooted
      refine ⟨?_, ?_, ?_⟩
      · refine List.pairwise_append.mpr ⟨ordered, List.pairwise_singleton _ _, ?_⟩
        intro a ha b hb
        rw [List.mem_singleton.mp hb]
        exact below a ha
      · intro row hrow
        rcases List.mem_append.mp hrow with hold | hnew
        · exact (below row hold).trans (Int.lt_succ _)
        · rw [List.mem_singleton.mp hnew]
          exact Int.lt_succ _
      · intro row hrow p hparent
        rcases List.mem_append.mp hrow with hold | hnew
        · obtain ⟨hle, other, hother, hid⟩ := rooted row hold p hparent
          exact ⟨hle, other, List.mem_append_left _ hother, hid⟩
        · rw [List.mem_singleton.mp hnew] at hparent ⊢
          rcases hp p hparent with ⟨other, hother, hid⟩ | rfl
          · rw [hrows] at hother
            exact ⟨hid ▸ (below other hother).le, other, List.mem_append_left _ hother, hid⟩
          · exact ⟨le_rfl, _, List.mem_append_right _ (List.mem_singleton_self _), rfl⟩
  | skip hn =>
      exact ⟨h.ordered, fun row hrow => lt_of_lt_of_le (h.below row hrow) hn, h.rooted⟩
  | change hc => exact h.change fun row hrow hp => (hc row hrow hp).same_place

lemma step (h : database.Sound) {after : Database} (hs : database.Step after) :
    after.Sound := by
  cases hs with
  | write hw => exact h.write hw
  | renew => exact h.change fun _ _ _ => ⟨rfl, rfl⟩
  | claim => exact h.change fun _ _ _ => ⟨rfl, rfl⟩

end Sound

/-- All steps keep a sound database sound. -/
lemma Steps.sound {before after : Database} (h : before.Steps after) (hb : before.Sound) :
    after.Sound := by
  induction h with
  | refl => exact hb
  | tail _ step ih => exact ih.step step

lemma Writes.sound {before after : Database} (h : before.Writes after) (hb : before.Sound) :
    after.Sound :=
  h.steps.sound hb

/-- All steps keep the task table. -/
lemma Steps.tasks {before after : Database} (h : before.Steps after)
    (hb : before.tasks.isSome = true) : after.tasks.isSome = true := by
  induction h with
  | refl => exact hb
  | tail _ step ih =>
      cases step with
      | write hw =>
          cases hw with
          | insert => rfl
          | skip => exact ih
          | change => simpa [change] using ih
      | renew | claim => simpa [change] using ih

/-! ### What holds of every row -/

/-- A property that a new row has, and that every change of a row keeps, holds of all
rows behind any number of steps. -/
theorem Steps.forall_rows {P : Row → Prop} {before after : Database} (h : before.Steps after)
    (fresh : ∀ now id taskType state parent, P (Row.fresh now id taskType state parent))
    (change : ∀ now row next, Row.Change now row next → P row → P next)
    (renewed : ∀ now deadline worker row, row.isHeldBy worker = true → P row →
      P (row.renewed now deadline))
    (claimed : ∀ now types worker deadline row, row.isEligible now types = true → P row →
      P (row.claimed now worker deadline))
    (hb : before.Sound) (hrows : ∀ row ∈ before.rows, P row) : ∀ row ∈ after.rows, P row := by
  induction h with
  | refl => exact hrows
  | tail steps step ih =>
      have hs := Steps.sound steps hb
      intro row hrow
      cases step with
      | write hw =>
          cases hw with
          | @insert table now taskType state parent ht hp =>
              rcases List.mem_append.mp hrow with hold | hnew
              · exact ih row (by simpa [rows, ht] using hold)
              · rw [List.mem_singleton.mp hnew]
                exact fresh _ _ _ _ _
          | skip => exact ih row hrow
          | change hc =>
              rcases mem_change.mp hrow with ⟨hold, -⟩ | ⟨old, hold, hp, rfl⟩
              · exact ih row hold
              · exact change _ _ _ (hc old hold hp) (ih old hold)
      | renew task worker now deadline =>
          rcases mem_change.mp hrow with ⟨hold, -⟩ | ⟨old, hold, hp, rfl⟩
          · exact ih row hold
          · exact renewed _ _ worker old (Table.only_eq_true.mp hp).2 (ih old hold)
      | claim worker deadline hpicked he =>
          rcases mem_change.mp hrow with ⟨hold, -⟩ | ⟨old, hold, hp, rfl⟩
          · exact ih row hold
          · -- the number of the claimed row stands for that row alone
            have := hs.eq_of_id hold hpicked (Table.only_eq_true.mp hp).1
            subst this
            exact claimed _ _ _ _ _ he (ih _ hold)

/-- The status of every row is one of the five. -/
def Known (database : Database) : Prop :=
  ∀ row ∈ database.rows, ∃ status, row.status = .known status

/-- All steps write one of the five. -/
lemma Steps.known {before after : Database} (h : before.Steps after) (hb : before.Sound)
    (hk : before.Known) : after.Known := by
  refine h.forall_rows ?_ ?_ ?_ ?_ hb hk
  · exact fun now id taskType state parent => ⟨_, rfl⟩
  · intro now row next h _
    cases h <;> exact ⟨_, rfl⟩
  · exact fun now deadline worker row _ h => h
  · exact fun now types worker deadline row _ _ => ⟨_, rfl⟩

end Database

/-! ### Quiet transactions -/

/-- A transaction that meets no failure, over a sound table. -/
structure Transaction.Quiet (tx : Transaction) : Prop where
  fault : tx.fault = none
  tasks : tx.database.tasks.isSome = true
  sound : tx.database.Sound

namespace Transaction.Quiet

variable {channel : Channel} {tx after : Transaction}

lemma faultAt (h : tx.Quiet) (point : FaultPoint) : tx.faultAt point = none := by
  simp [Transaction.faultAt, h.fault]

/-- There is a task table. -/
lemma table (h : tx.Quiet) : ∃ table, tx.database.tasks = some table :=
  Option.isSome_iff_exists.mp h.tasks

lemma extend (h : tx.Quiet) (he : tx.Extends channel after) : after.Quiet where
  fault := PlannedFault.left_none he.fault h.fault
  tasks := he.writes.steps.tasks h.tasks
  sound := he.writes.sound h.sound

end Transaction.Quiet
end LeaseQueue
