/-
Migrations are applied once, in order, and all or none of them:

* `Store.upgrade`: a run of migrations, of which `Store.migrate` is the one of the schema;
* `Store.Upgrade`: how a run ends, with the steps that it has performed;
* `Store.upgrade_outcome`, `Store.upgrade_error`, `Store.upgrade_ok`: every run ends so; one that
  fails leaves all tables as they were, and one that does not records what it has performed;
* `Migration.pending_extension`, `Store.upgrade_extension`: a list that was applied and then
  extended leaves to the second run what is left of the extended list;
* `Store.migrations_once`: all of it.
-/
import LeaseQueue.Proofs.Store.Script

namespace LeaseQueue

namespace Migration

variable {σ : Type} (all more : List (Migration σ)) (names : List String)

/-! ### What is due -/

lemma pending_append : pending (all ++ more) names = pending all names ++ pending more names :=
  List.filter_append _ _

lemma not_mem_of_mem_pending {all : List (Migration σ)} {names : List String}
    {migration : Migration σ} (h : migration ∈ pending all names) : migration.name ∉ names := by
  simpa using (List.mem_filter.mp h).2

lemma nodup_left {all more : List (Migration σ)} (h : ((all ++ more).map name).Nodup) :
    (all.map name).Nodup := by
  rw [List.map_append] at h
  exact h.of_append_left

/-- Once the names of the pending migrations are recorded, none is pending. -/
lemma pending_done : pending all (names ++ (pending all names).map name) = [] := by
  refine List.filter_eq_nil_iff.mpr fun migration hmem => ?_
  have hdone : migration.name ∈ names ++ (pending all names).map name := by
    by_cases hrecorded : migration.name ∈ names
    · exact List.mem_append_left _ hrecorded
    · have hpending : migration ∈ pending all names :=
        List.mem_filter.mpr ⟨hmem, by simpa using hrecorded⟩
      exact List.mem_append_right _ (List.mem_map_of_mem hpending)
  rw [List.contains_iff_mem.mpr hdone]
  decide

/-- Then of an extended list the pending ones of the extension are. -/
lemma pending_extension (hdistinct : ((all ++ more).map name).Nodup) :
    pending (all ++ more) (names ++ (pending all names).map name) = pending more names := by
  rw [pending_append, pending_done, List.nil_append]
  refine List.filter_congr fun migration hmem => ?_
  have hother : migration.name ∉ (pending all names).map name := by
    intro hmem'
    rw [List.map_append] at hdistinct
    have hall : migration.name ∈ all.map name :=
      (List.filter_sublist.map name).subset hmem'
    exact List.disjoint_of_nodup_append hdistinct hall (List.mem_map_of_mem hmem)
  simp [hother]

end Migration

namespace Store

open Migration

variable {σ : Type} (store : Store) (dialect : Dialect σ) (all more : List (Migration σ))

/-! ### A run of migrations -/

/-- Applies the migrations that are not recorded, in a transaction, and counts them. -/
def upgrade : Reply MigrationError Nat :=
  store.transact refusedSchema (Migration.runAll dialect.execute all)

/-- The migrations that are not recorded. -/
def due : List (Migration σ) := pending all store.database.recordedNames

/-- The transaction of a run, in front of its first step. -/
def upgrading : Transaction := { store.begin with database := store.database.createRecord }

/-- How a run of migrations ends: all that are due are performed, or it stops at a statement, or the
end of the transaction fails. -/
inductive Upgrade : Reply MigrationError Nat → Prop where
  | applied {after : Transaction}
      (performed : Performed dialect (script (store.due all)) store.upgrading after)
      (lands : after.faultAt .commit = none) :
      Upgrade ⟨.ok (store.due all).length, [],
        { store with database := after.database, fault := after.fault }⟩
  | stopped {name : String} {state : SqlState} {after : Transaction}
      (stopped : StoppedAt dialect (store.due all) store.upgrading name state after) :
      Upgrade ⟨.error (.failed name (.refused state)), [],
        { store with database := store.database.undo after.database, fault := after.fault }⟩
  | uncommitted {state : SqlState} {after : Transaction}
      (performed : Performed dialect (script (store.due all)) store.upgrading after)
      (fault : after.faultAt .commit = some state) :
      Upgrade ⟨.error (refusedSchema state), [],
        { store with database := store.database.undo after.database, fault := none }⟩

lemma migrations_upgrading :
    store.upgrading.database.migrations = some (store.database.migrations.getD []) :=
  rfl

/-- A run applies what is due, in its transaction. -/
lemma run_runAll :
    (runAll dialect.execute all).run store.begin =
      match (applyAll dialect.execute (store.due all)).run store.upgrading with
      | (.ok _, after) => (.ok (store.due all).length, after)
      | (.error e, after) => (.error e, after) := by
  have hcreate : createRecord.run store.begin = (.ok (), store.upgrading) :=
    run_bookkeeping rfl rfl
  have hrecord : (bookkeeping fun _ database => database.record).run store.upgrading =
      (.ok (store.database.migrations.getD []), store.upgrading) :=
    run_bookkeeping rfl rfl
  simp only [runAll, Action.run_bind, hcreate, hrecord]
  rw [due, Database.recordedNames]
  obtain ⟨_ | _, after⟩ := (applyAll dialect.execute _).run store.upgrading <;> rfl

/-- The names that are due are distinct and new. -/
lemma nodup_due (hdistinct : (all.map name).Nodup) : ((store.due all).map name).Nodup :=
  hdistinct.sublist (List.filter_sublist.map name)

lemma disjoint_due : store.database.recordedNames.Disjoint ((store.due all).map name) := by
  intro name hrecorded hdue
  obtain ⟨migration, hmem, rfl⟩ := List.mem_map.mp hdue
  exact not_mem_of_mem_pending hmem hrecorded

variable {all more}

/-- A run whose steps are all performed, up to the end of its transaction. -/
lemma upgrade_of_ok {after : Transaction}
    (hrun : (applyAll dialect.execute (store.due all)).run store.upgrading = (.ok (), after))
    (haborted : after.aborted = false) (hpublished : after.published = []) :
    store.upgrade dialect all =
      match after.faultAt .commit with
      | none => ⟨.ok (store.due all).length, [],
          { store with database := after.database, fault := after.fault }⟩
      | some state => ⟨.error (refusedSchema state), [],
          { store with database := store.database.undo after.database, fault := none }⟩ := by
  rw [upgrade, transact, run_runAll, hrun]
  cases hfault : after.faultAt .commit with
  | none =>
      dsimp only
      rw [store.commit_of_lands ⟨haborted, hfault⟩, hpublished]
      rfl
  | some state =>
      dsimp only
      rw [store.commit_of_fault after haborted hfault]
      rfl

/-- A run that stops at a step. -/
lemma upgrade_of_error {e : MigrationError} {after : Transaction}
    (hrun : (applyAll dialect.execute (store.due all)).run store.upgrading = (.error e, after)) :
    store.upgrade dialect all = ⟨.error e, [], store.rollback after⟩ := by
  rw [upgrade, transact, run_runAll, hrun]

/-- Behind steps that succeed the transaction is usable and publishes nothing. -/
lemma usable_of_performed {steps : List (Step σ)} {after : Transaction}
    (h : Performed dialect steps store.upgrading after) :
    after.aborted = false ∧ after.published = [] := by
  rw [h.eq]
  exact ⟨rfl, rfl⟩

/-- The steps of a run are all performed, or it stops at a statement. -/
lemma run_outcome (hdistinct : (all.map name).Nodup) :
    (∃ after, (applyAll dialect.execute (store.due all)).run store.upgrading = (.ok (), after) ∧
      Performed dialect (script (store.due all)) store.upgrading after) ∨
    ∃ name state after, StoppedAt dialect (store.due all) store.upgrading name state after ∧
      (applyAll dialect.execute (store.due all)).run store.upgrading =
        (.error (.failed name (.refused state)), after) :=
  applyAll_outcome dialect (store.due all) rfl store.migrations_upgrading
    (store.disjoint_due all) (store.nodup_due all hdistinct)

/-- Every run ends in one of three ways. -/
theorem upgrade_outcome (hdistinct : (all.map name).Nodup) :
    store.Upgrade dialect all (store.upgrade dialect all) := by
  rcases store.run_outcome dialect hdistinct with ⟨after, hrun, hperformed⟩ |
    ⟨name, state, after, hstopped, hrun⟩
  · obtain ⟨haborted, hpublished⟩ := store.usable_of_performed dialect hperformed
    rw [store.upgrade_of_ok dialect hrun haborted hpublished]
    cases hfault : after.faultAt .commit with
    | none => exact .applied hperformed hfault
    | some state => exact .uncommitted hperformed hfault
  · rw [store.upgrade_of_error dialect hrun]
    exact .stopped hstopped

/-! ### Runs that fail, and runs that do not -/

/-- A transaction that is undone leaves the number of the next task if it has left it. -/
lemma next?_undo {before after : Database}
    (h : ∀ id, before.next? = some id → after.next? = some id) :
    (before.undo after).next? = before.next? := by
  cases htasks : before.tasks with
  | none => simp [Database.next?, Database.undo, htasks]
  | some table =>
      have hbefore : before.next? = some before.nextId := by rw [Database.next?, htasks]; rfl
      obtain ⟨_, -, hafter⟩ := Option.map_eq_some_iff.mp (h _ hbefore)
      simp [Database.next?, Database.undo, htasks, hafter]

/-- A run that fails leaves the tasks and the record of migrations as they were, and also the number
of the next task if no statement takes one. -/
theorem upgrade_error (hdistinct : (all.map name).Nodup) {e : MigrationError}
    (h : (store.upgrade dialect all).answer = .error e) :
    (store.upgrade dialect all).store.database.tasks = store.database.tasks ∧
      (store.upgrade dialect all).store.database.migrations = store.database.migrations ∧
      ((∀ migration ∈ all, ∀ statement ∈ migration.statements, dialect.TakesNoNumber statement) →
        (store.upgrade dialect all).store.database.next? = store.database.next?) := by
  have houtcome := store.upgrade_outcome dialect hdistinct
  revert h houtcome
  generalize store.upgrade dialect all = reply
  rintro h (⟨-, -⟩ | hstopped | ⟨hperformed, -⟩)
  · cases h
  · exact ⟨rfl, rfl, fun hnumbers => next?_undo fun id => hstopped.next? fun migration hmem =>
      hnumbers migration (List.mem_of_mem_filter hmem)⟩
  · refine ⟨rfl, rfl, fun hnumbers => next?_undo fun id => ?_⟩
    refine hperformed.next? fun statement hmem => ?_
    obtain ⟨migration, hdue, hstatement⟩ := mem_script.mp hmem
    exact hnumbers migration (List.mem_of_mem_filter hdue) statement hstatement

/-- A run that does not fail counts what was due, performs it and records it. -/
theorem upgrade_ok (hdistinct : (all.map name).Nodup) {n : Nat}
    (h : (store.upgrade dialect all).answer = .ok n) :
    n = (store.due all).length ∧
      (store.upgrade dialect all).store.clock = store.clock ∧
      (store.upgrade dialect all).store.database.migrations =
        some (store.database.migrations.getD [] ++
          (store.due all).map fun migration => ⟨migration.name, store.clock⟩) := by
  have houtcome := store.upgrade_outcome dialect hdistinct
  revert h houtcome
  generalize store.upgrade dialect all = reply
  rintro h (⟨performed, -⟩ | - | ⟨-, -⟩)
  · have hmigrations := performed.migrations store.migrations_upgrading
    rw [recorded_script, List.map_map] at hmigrations
    exact ⟨(Except.ok.inj h).symm, rfl, hmigrations⟩
  · cases h
  · cases h

/-- Behind it the names that were due are recorded, too. -/
lemma recordedNames_upgrade (hdistinct : (all.map name).Nodup) {n : Nat}
    (h : (store.upgrade dialect all).answer = .ok n) :
    (store.upgrade dialect all).store.database.recordedNames =
      store.database.recordedNames ++ (store.due all).map name := by
  obtain ⟨-, -, hmigrations⟩ := store.upgrade_ok dialect hdistinct h
  rw [Database.recordedNames, hmigrations, Option.getD_some, List.map_append, List.map_map]
  rfl

/-- Each of them is recorded once. -/
lemma count_recordedNames_upgrade (hdistinct : (all.map name).Nodup) {n : Nat}
    (h : (store.upgrade dialect all).answer = .ok n) {migration : Migration σ}
    (hdue : migration ∈ store.due all) :
    (store.upgrade dialect all).store.database.recordedNames.count migration.name = 1 := by
  have hname : migration.name ∈ (store.due all).map name := List.mem_map_of_mem hdue
  rw [store.recordedNames_upgrade dialect hdistinct h, List.count_append,
    List.count_eq_zero_of_not_mem (not_mem_of_mem_pending hdue),
    List.count_eq_one_of_mem (store.nodup_due all hdistinct) hname]

/-! ### Runs behind a run -/

variable {store dialect} {later : Store}

/-- Behind a run of a list, what is due of an extended list is what was due of the extension. -/
lemma due_extension (hdistinct : ((all ++ more).map name).Nodup) {n : Nat}
    (h : (store.upgrade dialect all).answer = .ok n)
    (hlater : later.database.migrations = (store.upgrade dialect all).store.database.migrations) :
    later.due (all ++ more) = store.due more := by
  have hall := nodup_left hdistinct
  have hnames : later.database.recordedNames =
      store.database.recordedNames ++ (store.due all).map name := by
    rw [← store.recordedNames_upgrade dialect hall h, Database.recordedNames, hlater]
    rfl
  rw [due, hnames]
  exact pending_extension all more _ hdistinct

/-- So both runs together perform the steps of a run of the extended list. -/
lemma script_extension (hdistinct : ((all ++ more).map name).Nodup) {n : Nat}
    (h : (store.upgrade dialect all).answer = .ok n)
    (hlater : later.database.migrations = (store.upgrade dialect all).store.database.migrations) :
    script (store.due all) ++ script (later.due (all ++ more)) =
      script (store.due (all ++ more)) := by
  rw [due_extension hdistinct h hlater, ← script_append, due, due, due, pending_append]

/-- Where the record of migrations exists, a run does not make it. -/
lemma upgrading_eq_begin {record : List AppliedMigration}
    (h : store.database.migrations = some record) : store.upgrading = store.begin := by
  obtain ⟨⟨tasks, nextId, migrations⟩, clock, fault⟩ := store
  simp only at h
  subst h
  rfl

/-- A run of migrations of which none is due changes nothing. -/
lemma upgrade_idle (hdistinct : (all.map name).Nodup) {record : List AppliedMigration}
    (hrecord : store.database.migrations = some record) (hdue : store.due all = []) :
    (store.upgrade dialect all).store.database = store.database ∧
      (store.begin.faultAt .commit = none → (store.upgrade dialect all).answer = .ok 0) := by
  have houtcome := store.upgrade_outcome dialect hdistinct
  have hbegin := upgrading_eq_begin hrecord
  revert houtcome
  generalize store.upgrade dialect all = reply
  rintro (⟨hperformed, -⟩ | hstopped | ⟨hperformed, hfault⟩)
  · rw [hdue, hbegin] at hperformed
    cases hperformed
    exact ⟨rfl, fun _ => by rw [hdue]; rfl⟩
  · exact absurd (hdue ▸ hstopped) not_stoppedAt_nil
  · rw [hdue, hbegin] at hperformed
    cases hperformed
    exact ⟨rfl, fun hlands => absurd (hlands.symm.trans hfault) (by simp)⟩

/-- The next run starts in the transaction in which a run has ended that did not fail. -/
lemma upgrading_upgrade (hdistinct : (all.map name).Nodup) {n : Nat}
    (h : (store.upgrade dialect all).answer = .ok n) :
    (applyAll dialect.execute (store.due all)).run store.upgrading =
      (.ok (), (store.upgrade dialect all).store.upgrading) := by
  rcases store.run_outcome dialect hdistinct with ⟨after, hrun, hperformed⟩ |
    ⟨name, state, after, -, hrun⟩
  · obtain ⟨haborted, hpublished⟩ := store.usable_of_performed dialect hperformed
    rw [store.upgrade_of_ok dialect hrun haborted hpublished] at h ⊢
    cases hfault : after.faultAt .commit with
    | none =>
        have hmigrations := hperformed.migrations store.migrations_upgrading
        rw [hrun, upgrading_eq_begin hmigrations, hperformed.eq]
        rfl
    | some state =>
        rw [hfault] at h
        cases h
  · rw [store.upgrade_of_error dialect hrun] at h
    cases h

/-- A run of the extended list right behind the run of a list answers the rest of what a run of the
extended list would have answered in its place, and leaves the same store. -/
lemma upgrade_upgrade (hdistinct : ((all ++ more).map name).Nodup) {n : Nat}
    (h : (store.upgrade dialect all).answer = .ok n) :
    let first := store.upgrade dialect all
    let second := first.store.upgrade dialect (all ++ more)
    let atOnce := store.upgrade dialect (all ++ more)
    atOnce.answer = second.answer.map (n + ·) ∧
      ∀ m, second.answer = .ok m → atOnce.store = second.store := by
  intro first second atOnce
  have hdue : first.store.due (all ++ more) = store.due more := due_extension hdistinct h rfl
  have hboth : store.due (all ++ more) = store.due all ++ store.due more := pending_append _ _ _
  have hfirst := upgrading_upgrade (nodup_left hdistinct) h
  obtain ⟨hcount, hclock, -⟩ := store.upgrade_ok dialect (nodup_left hdistinct) h
  -- The second transaction goes on where the first one has ended.
  have hrun : (applyAll dialect.execute (first.store.due (all ++ more))).run first.store.upgrading =
      (applyAll dialect.execute (store.due (all ++ more))).run store.upgrading := by
    rw [hboth, hdue, run_applyAll_append, hfirst]
  rcases store.run_outcome dialect hdistinct with ⟨after, hok, hperformed⟩ |
    ⟨name, state, after, -, herror⟩
  · obtain ⟨haborted, hpublished⟩ := store.usable_of_performed dialect hperformed
    have hatOnce : atOnce = _ := store.upgrade_of_ok dialect hok haborted hpublished
    have hsecond : second = _ :=
      first.store.upgrade_of_ok dialect (hrun.trans hok) haborted hpublished
    rw [hatOnce, hsecond]
    cases after.faultAt .commit with
    | none =>
        refine ⟨?_, fun _ _ => congrArg (Store.mk _ · _) hclock.symm⟩
        rw [hboth, hdue, hcount, List.length_append]
        rfl
    | some state => exact ⟨rfl, fun _ hm => by cases hm⟩
  · have hatOnce : atOnce = _ := store.upgrade_of_error dialect herror
    have hsecond : second = _ := first.store.upgrade_of_error dialect (hrun.trans herror)
    rw [hatOnce, hsecond]
    exact ⟨rfl, fun _ hm => by cases hm⟩

/-- Runs of a list and later of its extension leave the record that a run of the extended list
leaves. -/
lemma records_extension (hdistinct : ((all ++ more).map name).Nodup) {n m k : Nat}
    (h : (store.upgrade dialect all).answer = .ok n)
    (hlater : later.database.migrations = (store.upgrade dialect all).store.database.migrations)
    (hm : (later.upgrade dialect (all ++ more)).answer = .ok m)
    (hk : (store.upgrade dialect (all ++ more)).answer = .ok k) :
    n + m = k ∧
      (later.upgrade dialect (all ++ more)).store.database.recordedNames =
        (store.upgrade dialect (all ++ more)).store.database.recordedNames ∧
      (later.clock = store.clock →
        (later.upgrade dialect (all ++ more)).store.database.migrations =
          (store.upgrade dialect (all ++ more)).store.database.migrations) := by
  have hall := nodup_left hdistinct
  obtain ⟨hn, -, hmigrations⟩ := store.upgrade_ok dialect hall h
  obtain ⟨hm', -, hmigrations'⟩ := later.upgrade_ok dialect hdistinct hm
  obtain ⟨hk', -, hmigrations''⟩ := store.upgrade_ok dialect hdistinct hk
  have hdue : later.due (all ++ more) = store.due more := due_extension hdistinct h hlater
  have hboth : store.due (all ++ more) = store.due all ++ store.due more := pending_append _ _ _
  have hbefore : later.database.recordedNames =
      store.database.recordedNames ++ (store.due all).map name := by
    rw [Database.recordedNames, hlater]
    exact store.recordedNames_upgrade dialect hall h
  refine ⟨?_, ?_, fun hclock => ?_⟩
  · rw [hn, hm', hk', hdue, hboth, List.length_append]
  · rw [later.recordedNames_upgrade dialect hdistinct hm,
      store.recordedNames_upgrade dialect hdistinct hk, hbefore, hdue, hboth, List.map_append,
      List.append_assoc]
  · rw [hmigrations', hmigrations'', hlater, hmigrations, hdue, hboth, hclock, Option.getD_some,
      List.map_append, List.append_assoc]

end Store

/-! ### The schema -/

namespace Schema

/-- What the statements of the schema do. -/
def dialect : Migration.Dialect Statement where
  point
    | .createTaskTable => some .schema
    | .createIndex _ => none
  effect
    | .createTaskTable => fun _ database => (.ok (), database.createTaskTable)
    | .createIndex _ => fun _ database => database.ask fun _ => ()
  migrations_effect := by
    rintro (_ | _) now ⟨_ | table, nextId, migrations⟩ <;> rfl

lemma execute_dialect : dialect.execute = Statement.execute := by
  funext statement
  cases statement <;> rfl

/-- A migration of the schema takes no number of a task. -/
lemma takesNoNumber (statement : Statement) : dialect.TakesNoNumber statement := by
  rintro now ⟨_ | table, nextId, migrations⟩ id h <;> cases statement <;> cases h <;> rfl

/-- An index that the schema could get. -/
def leaseIndex : Migration Statement :=
  { name := "0002_lease_index", statements := [.createIndex "idx_tasks_lease_expires_at"] }

end Schema

namespace Store

/-- The schema is brought up to date by a run of its migrations. -/
theorem migrate_eq_upgrade (store : Store) :
    store.migrate = store.upgrade Schema.dialect Schema.migrations := by
  rw [migrate, upgrade, Schema.execute_dialect]

/-! ### All runs -/

open Migration Schema

variable {σ : Type} (store : Store) {all more : List (Migration σ)}

/-- Migrations are applied once, in order, and all or none of them. A run ends in one of three ways,
and leaves the tables as they were unless it has performed all that is due. Then each name that was
due is recorded once. Any later run finds nothing to do, and a run of an extended list performs what
is left of it. -/
theorem migrations_once (dialect : Dialect σ) (hdistinct : ((all ++ more).map name).Nodup) :
    let first := store.upgrade dialect all
    let atOnce := store.upgrade dialect (all ++ more)
    store.Upgrade dialect all first ∧
    (∀ e, first.answer = .error e →
      first.store.database.tasks = store.database.tasks ∧
      first.store.database.migrations = store.database.migrations ∧
      ((∀ migration ∈ all, ∀ statement ∈ migration.statements, dialect.TakesNoNumber statement) →
        first.store.database.next? = store.database.next?)) ∧
    ∀ n, first.answer = .ok n →
      n = (store.due all).length ∧
      first.store.database.migrations = some (store.database.migrations.getD [] ++
        (store.due all).map fun migration => ⟨migration.name, store.clock⟩) ∧
      (∀ migration ∈ store.due all,
        first.store.database.recordedNames.count migration.name = 1) ∧
      (∀ later : Store, later.database.migrations = first.store.database.migrations →
        let again := later.upgrade dialect all
        let extended := later.upgrade dialect (all ++ more)
        again.store.database = later.database ∧
        (later.begin.faultAt .commit = none → again.answer = .ok 0) ∧
        script (store.due all) ++ script (later.due (all ++ more)) =
          script (store.due (all ++ more)) ∧
        ∀ m k, extended.answer = .ok m → atOnce.answer = .ok k →
          n + m = k ∧
          extended.store.database.recordedNames = atOnce.store.database.recordedNames ∧
          (later.clock = store.clock →
            extended.store.database.migrations = atOnce.store.database.migrations)) ∧
      let second := first.store.upgrade dialect (all ++ more)
      atOnce.answer = second.answer.map (n + ·) ∧
      ∀ m, second.answer = .ok m → atOnce.store = second.store := by
  intro first atOnce
  have hall := nodup_left hdistinct
  refine ⟨store.upgrade_outcome dialect hall, fun e he => store.upgrade_error dialect hall he,
    fun n hn => ?_⟩
  obtain ⟨hcount, -, hmigrations⟩ := store.upgrade_ok dialect hall hn
  refine ⟨hcount, hmigrations, fun migration => store.count_recordedNames_upgrade dialect hall hn,
    fun later hlater => ?_, upgrade_upgrade hdistinct hn⟩
  have hnothing : later.due all = [] := by
    have hextended : later.due (all ++ []) = store.due [] :=
      due_extension (by rwa [List.append_nil]) hn hlater
    rwa [List.append_nil] at hextended
  obtain ⟨hsame, hzero⟩ := upgrade_idle hall (hlater.trans hmigrations) hnothing
  exact ⟨hsame, hzero, script_extension hdistinct hn hlater,
    fun m k hm hk => records_extension hdistinct hn hlater hm hk⟩

/-- The index is recorded, but the migration in front of it is not; then the list is extended.
Without the task table, the index fails. -/
theorem lease_index_upgraded :
    let more : List (Migration Schema.Statement) :=
      [⟨"0003_worker_index", [.createIndex "idx_worker"]⟩]
    let store : Store :=
      { database := { migrations := some [⟨"0002_lease_index", 3⟩] }, clock := 7 }
    let first := store.upgrade dialect (migrations ++ [leaseIndex])
    let atOnce := store.upgrade dialect (migrations ++ [leaseIndex] ++ more)
    let empty : Store := { clock := 7 }
    let failed := empty.upgrade dialect [leaseIndex]
    ((migrations ++ [leaseIndex] ++ more).map Migration.name).Nodup ∧
      first.answer = .ok 1 ∧
      first.store.database.migrations =
        some [⟨"0002_lease_index", 3⟩, ⟨"0001_create_tasks", 7⟩] ∧
      atOnce.answer = .ok 2 ∧
      atOnce.answer = (first.store.upgrade dialect (migrations ++ [leaseIndex] ++ more)).answer.map
        (1 + ·) ∧
      ([leaseIndex].map Migration.name).Nodup ∧
      failed.answer = .error (.failed "0002_lease_index" (.refused .undefinedTable)) ∧
      failed.store.database.tasks = none ∧
      failed.store.database.migrations = none ∧
      failed.store.database.next? = none := by
  intro more store first atOnce empty failed
  have hdistinct : ((migrations ++ [leaseIndex] ++ more).map Migration.name).Nodup := by decide
  have hdistinct' : (([leaseIndex] ++ []).map Migration.name).Nodup := by decide
  obtain ⟨-, -, hok⟩ := store.migrations_once dialect hdistinct
  obtain ⟨-, hrecord, -, -, hsecond, -⟩ := hok 1 rfl
  obtain ⟨-, herror, -⟩ := empty.migrations_once dialect hdistinct'
  obtain ⟨htasks, hmigrations, hnext⟩ := herror _ rfl
  exact ⟨hdistinct, rfl, hrecord.trans rfl, rfl, hsecond, hdistinct', rfl, htasks, hmigrations,
    hnext fun _ _ statement _ => takesNoNumber statement⟩

end Store
end LeaseQueue
