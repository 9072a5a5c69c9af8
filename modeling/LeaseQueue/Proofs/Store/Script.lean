/-
The statements of migrations, one by one:

* `Migration.Dialect`: what each statement does, which leaves the record of migrations alone;
* `Migration.script`: the steps of migrations in order, of each its statements and then its record;
* `Migration.Performed`: a transaction in which steps are performed, each of which succeeds;
* `Migration.Performed.eq`, `Migration.Performed.migrations`: such a transaction changes nothing but
  the database, and records what the steps record;
* `Migration.applyAll_outcome`: migrations of new names are performed to the end, or up to a
  statement that fails.
-/
import LeaseQueue.Proofs.Store.Statement

namespace LeaseQueue

namespace Action

variable {α : Type} {point : Option FaultPoint} {body : Micros → Database → Database.Reply α}
  {tx after : Transaction}

/-- A statement that succeeds has changed nothing but the database. -/
lemma of_run_statement_ok {a : α} (h : run (statement point body) tx = (.ok a, after)) :
    ∃ database, tx.aborted = false ∧ body tx.now tx.database = (.ok a, database) ∧
      after = { tx with database } := by
  simp only [run, statement] at h
  split at h
  · cases h
  · rename_i haborted
    split at h
    · cases h
    · split at h
      · rename_i database hbody
        cases h
        exact ⟨database, by simpa using haborted, hbody, rfl⟩
      · cases h

/-- What a statement leaves: the database as it was, or as the statement has left it. -/
lemma database_run_statement (point : Option FaultPoint)
    (body : Micros → Database → Database.Reply α) (tx : Transaction) :
    (run (statement point body) tx).2.database = tx.database ∨
      (run (statement point body) tx).2.database = (body tx.now tx.database).2 := by
  simp only [run, statement]
  split
  · exact .inl rfl
  · split
    · exact .inl rfl
    · obtain ⟨_ | a, database⟩ := body tx.now tx.database <;> exact .inr rfl

/-- A statement that cannot be made to fail, and does not. -/
lemma run_statement_none {a : α} {database : Database} (haborted : tx.aborted = false)
    (h : body tx.now tx.database = (.ok a, database)) :
    run (statement none body) tx = (.ok a, { tx with database }) := by
  simp only [run, statement, haborted, Bool.false_eq_true, if_false, Option.bind_none, h]

lemma run_mapError {δ ε : Type} (f : ε → δ) (action : Action ε α) (tx : Transaction) :
    run (mapError f action) tx = ((run action tx).1.mapError f, (run action tx).2) := by
  simp only [run, mapError]
  obtain ⟨_ | a, after⟩ := action tx <;> rfl

end Action

/-- The names of the migrations that are recorded. -/
def Database.recordedNames (database : Database) : List String :=
  (database.migrations.getD []).map AppliedMigration.name

/-- The number that the next task takes; there is none while the task table is missing. -/
def Database.next? (database : Database) : Option TaskId :=
  database.tasks.map fun _ => database.nextId

lemma Database.next?_recordMigration (database : Database) (now : Micros) (name : String) :
    (database.recordMigration now name).2.next? = database.next? := by
  unfold recordMigration
  cases database.migrations with
  | none => rfl
  | some record =>
      dsimp only
      split_ifs <;> rfl

/-- A name that is not recorded yet can be recorded. -/
lemma Database.recordMigration_new {database : Database} {record : List AppliedMigration}
    {name : String} (h : database.migrations = some record)
    (hnew : name ∉ record.map AppliedMigration.name) (now : Micros) :
    database.recordMigration now name =
      (.ok (), { database with migrations := some (record ++ [⟨name, now⟩]) }) := by
  have htaken : (record.any fun applied => applied.name == name) = false := by simpa using hnew
  simp only [recordMigration, h, htaken, Bool.false_eq_true, if_false]

namespace Migration

variable {σ : Type}

/-! ### Statements -/

/-- What the statements of migrations do, and where each of them can be made to fail. They leave the
record of migrations to the run. -/
structure Dialect (σ : Type) where
  point : σ → Option FaultPoint
  effect : σ → Micros → Database → Database.Reply Unit
  migrations_effect : ∀ statement now database,
    (effect statement now database).2.migrations = database.migrations

/-- Runs a statement. -/
def Dialect.execute (dialect : Dialect σ) (statement : σ) : Action SqlState Unit :=
  .statement (dialect.point statement) (dialect.effect statement)

/-- A statement leaves the number of the next task, where there is a task table. -/
def Dialect.TakesNoNumber (dialect : Dialect σ) (statement : σ) : Prop :=
  ∀ now database id, database.next? = some id →
    (dialect.effect statement now database).2.next? = some id

lemma Dialect.TakesNoNumber.next? {dialect : Dialect σ} {statement : σ}
    (h : dialect.TakesNoNumber statement) {tx : Transaction} {id : TaskId}
    (hnext : tx.database.next? = some id) :
    ((dialect.execute statement).run tx).2.database.next? = some id := by
  rw [Dialect.execute]
  rcases Action.database_run_statement (dialect.point statement) (dialect.effect statement) tx with
    hsame | heffect
  · rw [hsame, hnext]
  · rw [heffect, h _ _ _ hnext]

/-- A step of a run: a statement, or the record of a migration. -/
inductive Step (σ : Type) where
  | statement (body : σ)
  | record (name : String)
  deriving DecidableEq

/-- What a step does. -/
def Step.action (dialect : Dialect σ) : Step σ → Action SqlState Unit
  | .statement body => dialect.execute body
  | .record name => .statement none fun now database => database.recordMigration now name

/-- The statements of a migration, in order, and then its record. -/
def steps (migration : Migration σ) : List (Step σ) :=
  migration.statements.map .statement ++ [.record migration.name]

/-- The steps of migrations, one migration behind the other. -/
def script (due : List (Migration σ)) : List (Step σ) := due.flatMap steps

lemma script_cons (migration : Migration σ) (due : List (Migration σ)) :
    script (migration :: due) = migration.steps ++ script due :=
  List.flatMap_cons

lemma script_append (front back : List (Migration σ)) :
    script (front ++ back) = script front ++ script back :=
  List.flatMap_append

/-- A script runs the statements of its migrations. -/
lemma mem_script {due : List (Migration σ)} {statement : σ} :
    .statement statement ∈ script due ↔ ∃ migration ∈ due, statement ∈ migration.statements := by
  simp [script, steps]

/-- A statement of the bookkeeping that does not fail. -/
lemma run_bookkeeping {α : Type} {body : Micros → Database → Database.Reply α} {tx : Transaction}
    {a : α} {database : Database} (haborted : tx.aborted = false)
    (h : body tx.now tx.database = (.ok a, database)) :
    (bookkeeping body).run tx = (.ok a, { tx with database }) := by
  rw [bookkeeping, Action.run_mapError, Action.run_statement_none haborted h]
  rfl

/-- The names that steps record. -/
def recorded (steps : List (Step σ)) : List String :=
  steps.filterMap fun
    | .statement _ => none
    | .record name => some name

lemma recorded_append (front back : List (Step σ)) :
    recorded (front ++ back) = recorded front ++ recorded back :=
  List.filterMap_append

lemma recorded_statements (statements : List σ) : recorded (statements.map .statement) = [] := by
  rw [recorded, List.filterMap_map]
  exact List.filterMap_eq_nil_iff.mpr fun _ _ => rfl

/-- A script records the names of its migrations, in order. -/
lemma recorded_script (due : List (Migration σ)) : recorded (script due) = due.map name := by
  induction due with
  | nil => rfl
  | cons migration due ih =>
      rw [script_cons, recorded_append, steps, recorded_append, recorded_statements]
      exact congrArg (migration.name :: ·) ih

/-! ### Steps that succeed -/

/-- The steps are performed in a transaction, one after the other, and each of them succeeds. -/
inductive Performed (dialect : Dialect σ) : List (Step σ) → Transaction → Transaction → Prop where
  | nil (tx : Transaction) : Performed dialect [] tx tx
  | cons {step : Step σ} {steps : List (Step σ)} {tx mid after : Transaction}
      (first : (step.action dialect).run tx = (.ok (), mid))
      (rest : Performed dialect steps mid after) : Performed dialect (step :: steps) tx after

namespace Performed

variable {dialect : Dialect σ} {front back steps : List (Step σ)} {tx mid after : Transaction}

lemma append (h : Performed dialect front tx mid) (h' : Performed dialect back mid after) :
    Performed dialect (front ++ back) tx after := by
  induction h with
  | nil => exact h'
  | cons first _ ih => exact .cons first (ih h')

/-- A step that succeeds changes nothing but the database, and records at the time of the
transaction. -/
lemma step {step : Step σ} (h : (step.action dialect).run tx = (.ok (), after)) :
    after = { tx with database := after.database } ∧
      ∀ record, tx.database.migrations = some record →
        after.database.migrations =
          some (record ++ (recorded [step]).map fun name => ⟨name, tx.now⟩) := by
  cases step with
  | statement body =>
      rw [Step.action, Dialect.execute] at h
      obtain ⟨database, -, hbody, rfl⟩ := Action.of_run_statement_ok h
      have hkept := dialect.migrations_effect body tx.now tx.database
      rw [hbody] at hkept
      exact ⟨rfl, fun record hrecord => by simpa [recorded] using hkept.trans hrecord⟩
  | record name =>
      rw [Step.action] at h
      obtain ⟨database, -, hbody, rfl⟩ := Action.of_run_statement_ok h
      refine ⟨rfl, fun record hrecord => ?_⟩
      simp only [Database.recordMigration, hrecord] at hbody
      split_ifs at hbody
      · cases hbody
      · cases hbody
        rfl

/-- Steps that succeed change nothing but the database. -/
lemma eq (h : Performed dialect steps tx after) :
    after = { tx with database := after.database } := by
  induction h with
  | nil => rfl
  | cons first _ ih =>
      rw [ih, (step first).1]

/-- They add the names that they record, at the time of the transaction. -/
lemma migrations (h : Performed dialect steps tx after) {record : List AppliedMigration}
    (hrecord : tx.database.migrations = some record) :
    after.database.migrations =
      some (record ++ (recorded steps).map fun name => ⟨name, tx.now⟩) := by
  induction h generalizing record with
  | nil => simpa [recorded] using hrecord
  | @cons first steps tx mid after hfirst _ ih =>
      obtain ⟨hmid, hmigrations⟩ := step hfirst
      have hnow : mid.now = tx.now := by rw [hmid]
      rw [ih (hmigrations record hrecord), hnow, List.append_assoc, ← List.map_append,
        ← recorded_append]
      rfl

/-- They take no number, if none of the statements does. -/
lemma next? (h : Performed dialect steps tx after)
    (hstatements : ∀ statement, .statement statement ∈ steps → dialect.TakesNoNumber statement)
    {id : TaskId} (hnext : tx.database.next? = some id) : after.database.next? = some id := by
  induction h with
  | nil => exact hnext
  | @cons first steps tx mid after hfirst _ ih =>
      refine ih (fun statement hmem => hstatements statement (List.mem_cons_of_mem _ hmem)) ?_
      have hmid : mid = ((first.action dialect).run tx).2 := by rw [hfirst]
      rw [hmid]
      cases first with
      | statement body => exact (hstatements body List.mem_cons_self).next? hnext
      | record name =>
          rcases Action.database_run_statement none
            (fun now database => database.recordMigration now name) tx with hsame | heffect
          · exact (congrArg Database.next? hsame).trans hnext
          · exact (congrArg Database.next? heffect).trans
              ((Database.next?_recordMigration _ _ _).trans hnext)

end Performed

/-! ### A run -/

variable {dialect : Dialect σ} {tx : Transaction}

/-- Statements are performed to the end, or up to one that fails. -/
lemma runStatements_outcome (dialect : Dialect σ) (statements : List σ) (tx : Transaction) :
    (∃ after, (runStatements dialect.execute statements).run tx = (.ok (), after) ∧
      Performed dialect (statements.map .statement) tx after) ∨
    ∃ front statement rest mid state after, statements = front ++ statement :: rest ∧
      Performed dialect (front.map .statement) tx mid ∧
      (dialect.execute statement).run mid = (.error state, after) ∧
      (runStatements dialect.execute statements).run tx = (.error state, after) := by
  induction statements generalizing tx with
  | nil => exact .inl ⟨tx, rfl, .nil tx⟩
  | cons statement statements ih =>
      simp only [runStatements, Action.run_bind]
      cases hrun : (dialect.execute statement).run tx with
      | mk answer mid =>
          cases answer with
          | error state =>
              exact .inr ⟨[], statement, statements, tx, state, mid, rfl, .nil tx, hrun, rfl⟩
          | ok _ =>
              have hfirst : (Step.action dialect (.statement statement)).run tx = (.ok (), mid) :=
                hrun
              rcases ih mid with ⟨after, hok, hperformed⟩ |
                ⟨front, failing, rest, before, state, after, rfl, hperformed, hfails, herror⟩
              · exact .inl ⟨after, hok, .cons hfirst hperformed⟩
              · exact .inr ⟨statement :: front, failing, rest, before, state, after, rfl,
                  .cons hfirst hperformed, hfails, herror⟩

/-- The run of due migrations stops at a statement that fails: the migrations before its own are
performed, and so are the statements before it. -/
inductive StoppedAt (dialect : Dialect σ) :
    List (Migration σ) → Transaction → String → SqlState → Transaction → Prop where
  | intro {before behind : List (Migration σ)} {migration : Migration σ} {front rest : List σ}
      {statement : σ} {tx mid after : Transaction} {state : SqlState}
      (split : migration.statements = front ++ statement :: rest)
      (performed : Performed dialect (script before ++ front.map .statement) tx mid)
      (refused : (dialect.execute statement).run mid = (.error state, after)) :
      StoppedAt dialect (before ++ migration :: behind) tx migration.name state after

/-- Of no migrations, a run does not stop. -/
lemma not_stoppedAt_nil {tx after : Transaction} {name : String} {state : SqlState} :
    ¬ StoppedAt dialect [] tx name state after := by
  generalize hdue : ([] : List (Migration σ)) = due
  rintro ⟨-, -, -⟩
  exact absurd hdue.symm (by simp)

/-- Behind a migration that is performed, a run stops where the run of the others stops. -/
lemma StoppedAt.cons {migration : Migration σ} {due : List (Migration σ)}
    {tx mid after : Transaction} {name : String} {state : SqlState}
    (h : Performed dialect migration.steps tx mid)
    (h' : StoppedAt dialect due mid name state after) :
    StoppedAt dialect (migration :: due) tx name state after := by
  cases h' with
  | @intro before behind stopped front rest _ _ _ _ _ hsplit hperformed hrefused =>
      have hbefore := h.append hperformed
      rw [← List.append_assoc, ← script_cons] at hbefore
      exact .intro hsplit hbefore hrefused

/-- The migrations behind the one at which a run stops do not matter. -/
lemma StoppedAt.append {due : List (Migration σ)} {tx after : Transaction} {name : String}
    {state : SqlState} (h : StoppedAt dialect due tx name state after) (more : List (Migration σ)) :
    StoppedAt dialect (due ++ more) tx name state after := by
  cases h with
  | intro hsplit hperformed hrefused =>
      rw [List.append_assoc, List.cons_append]
      exact .intro hsplit hperformed hrefused

/-- A run that stops takes no number, if none of the statements does. -/
lemma StoppedAt.next? {due : List (Migration σ)} {tx after : Transaction} {name : String}
    {state : SqlState} (h : StoppedAt dialect due tx name state after)
    (hstatements : ∀ migration ∈ due, ∀ statement ∈ migration.statements,
      dialect.TakesNoNumber statement)
    {id : TaskId} (hnext : tx.database.next? = some id) : after.database.next? = some id := by
  cases h with
  | @intro before behind migration front rest statement _ mid _ _ hsplit hperformed hrefused =>
      have hmigration := hstatements migration (by simp)
      have hmid : mid.database.next? = some id := by
        refine hperformed.next? (fun body hmem => ?_) hnext
        rcases List.mem_append.mp hmem with hbefore | hfront
        · obtain ⟨earlier, hearlier, hbody⟩ := mem_script.mp hbefore
          exact hstatements earlier (List.mem_append_left _ hearlier) body hbody
        · obtain ⟨_, hbody, heq⟩ := List.mem_map.mp hfront
          cases heq
          exact hmigration body (by rw [hsplit]; exact List.mem_append_left _ hbody)
      have hafter : after = ((dialect.execute statement).run mid).2 := by rw [hrefused]
      rw [hafter]
      exact (hmigration statement (by simp [hsplit])).next? hmid

/-- A migration of a new name is performed, or it stops at a statement. -/
lemma apply_outcome (dialect : Dialect σ) (migration : Migration σ) {tx : Transaction}
    {record : List AppliedMigration} (haborted : tx.aborted = false)
    (hrecord : tx.database.migrations = some record)
    (hnew : migration.name ∉ record.map AppliedMigration.name) :
    (∃ after, (apply dialect.execute migration).run tx = (.ok (), after) ∧
      Performed dialect migration.steps tx after) ∨
    ∃ state after, StoppedAt dialect [migration] tx migration.name state after ∧
      (apply dialect.execute migration).run tx =
        (.error (.failed migration.name (.refused state)), after) := by
  simp only [apply, Action.run_bind, Action.run_mapError]
  rcases runStatements_outcome dialect migration.statements tx with ⟨mid, hok, hperformed⟩ |
    ⟨front, statement, rest, mid, state, after, hsplit, hperformed, hfails, herror⟩
  · have hmid : mid.aborted = false := by rw [hperformed.eq, haborted]
    have hkept := hperformed.migrations hrecord
    rw [recorded_statements, List.map_nil, List.append_nil] at hkept
    have hbody := mid.database.recordMigration_new hkept hnew mid.now
    have hstep : ((Step.record migration.name).action dialect).run mid = (.ok (),
        { mid with
          database := { mid.database with
            migrations := some (record ++ [⟨migration.name, mid.now⟩]) } }) := by
      rw [Step.action]
      exact Action.run_statement_none hmid hbody
    rw [hok]
    exact .inl ⟨_, run_bookkeeping hmid hbody, hperformed.append (.cons hstep (.nil _))⟩
  · rw [herror]
    have hbefore : Performed dialect (script [] ++ front.map .statement) tx mid := hperformed
    exact .inr ⟨state, after, .intro hsplit hbefore hfails, rfl⟩

/-- Migrations are applied behind others as if they were alone. -/
lemma run_applyAll_append (execute : σ → Action SqlState Unit) (front back : List (Migration σ))
    (tx : Transaction) :
    (applyAll execute (front ++ back)).run tx =
      match (applyAll execute front).run tx with
      | (.ok _, mid) => (applyAll execute back).run mid
      | (.error e, mid) => (.error e, mid) := by
  induction front generalizing tx with
  | nil => rfl
  | cons migration front ih =>
      simp only [List.cons_append, applyAll, Action.run_bind]
      obtain ⟨_ | _, mid⟩ := (apply execute migration).run tx
      · rfl
      · exact ih mid

/-- Migrations of new names are all performed, or the run stops at a statement. -/
theorem applyAll_outcome (dialect : Dialect σ) (due : List (Migration σ)) {tx : Transaction}
    {record : List AppliedMigration} (haborted : tx.aborted = false)
    (hrecord : tx.database.migrations = some record)
    (hnew : (record.map AppliedMigration.name).Disjoint (due.map name))
    (hdistinct : (due.map name).Nodup) :
    (∃ after, (applyAll dialect.execute due).run tx = (.ok (), after) ∧
      Performed dialect (script due) tx after) ∨
    ∃ name state after, StoppedAt dialect due tx name state after ∧
      (applyAll dialect.execute due).run tx = (.error (.failed name (.refused state)), after) := by
  induction due generalizing tx record with
  | nil => exact .inl ⟨tx, rfl, .nil tx⟩
  | cons migration due ih =>
      obtain ⟨hfirst, hbehind⟩ := List.disjoint_cons_right.mp hnew
      obtain ⟨hmigration, hdue⟩ := List.nodup_cons.mp hdistinct
      simp only [applyAll, Action.run_bind]
      rcases apply_outcome dialect migration haborted hrecord hfirst with ⟨mid, hok, hperformed⟩ |
        ⟨state, after, hstopped, herror⟩
      · have hmid : mid.aborted = false := by rw [hperformed.eq, haborted]
        have hkept := hperformed.migrations hrecord
        have hrest := ih hmid hkept ?_ hdue
        · rw [hok]
          rcases hrest with ⟨after, hok', hperformed'⟩ | ⟨name, state, after, hstopped, herror⟩
          · exact .inl ⟨after, hok', hperformed.append hperformed'⟩
          · exact .inr ⟨name, state, after, hstopped.cons hperformed, herror⟩
        · have hnames : recorded migration.steps = [migration.name] := by
            simpa [script] using recorded_script [migration]
          rw [hnames, List.map_append, List.map_map]
          exact List.disjoint_append_left.mpr ⟨hbehind, List.singleton_disjoint.mpr hmigration⟩
      · rw [herror]
        exact .inr ⟨migration.name, state, after, hstopped.append due, rfl⟩

end Migration
end LeaseQueue
