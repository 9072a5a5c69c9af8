/-
Statements in a transaction, case by case, and transactions of a single statement:

* `Action.run_onTasks`, `Action.run_notify`: a statement is refused behind a failed
  one and where the database fails; otherwise its own answer decides;
* `PlannedFault.left_trans`, `PlannedFault.left_none`: a planned failure is kept until it
  is met;
* `Transaction.Lands`, `Store.commit_of_lands`, `Store.commit_of_not_lands`: a commit
  that takes effect, and one that does not;
* `Store.transact_onTasks`, `Store.autocommit_onTasks`: a statement in a transaction of
  its own, the first one with an answer that is still to be read.
-/
import LeaseQueue.Store
import Mathlib.Tactic

namespace LeaseQueue

namespace Action

variable {ε α β : Type}

lemma run_map (f : α → β) (action : Action ε α) (tx : Transaction) :
    run (f <$> action) tx = ((run action tx).1.map f, (run action tx).2) := by
  have h : run (f <$> action) tx = run (action >>= fun a => pure (f a)) tx := rfl
  rw [h, run_bind]
  obtain ⟨_ | a, after⟩ := run action tx <;> rfl

/-- A statement on the task table. -/
lemma run_onTasks (body : Micros → Database → Database.Reply α) (tx : Transaction) :
    run (onTasks body) tx =
      if tx.aborted then (.error (.refused .failedTransaction), tx)
      else
        match tx.faultAt .tasks with
        | some state => (.error (.refused state), tx.spendFault)
        | none =>
          match body tx.now tx.database with
          | (.ok a, database) => (.ok a, { tx with database })
          | (.error state, database) =>
            (.error (.refused state), { tx with database, aborted := true }) := by
  rw [onTasks]
  simp only [run, mapError, statement, Option.bind_some]
  by_cases ha : tx.aborted = true
  · simp only [if_pos ha]
  · simp only [if_neg ha]
    cases tx.faultAt .tasks with
    | some state => rfl
    | none => obtain ⟨_ | a, database⟩ := body tx.now tx.database <;> rfl

/-- A statement on the task table that is not refused. -/
lemma run_onTasks_ok {body : Micros → Database → Database.Reply α} {tx : Transaction} {a : α}
    {database : Database} (ha : tx.aborted = false) (hf : tx.faultAt .tasks = none)
    (h : body tx.now tx.database = (.ok a, database)) :
    run (onTasks body) tx = (.ok a, { tx with database }) := by
  rw [run_onTasks, if_neg (by simp [ha]), hf]
  dsimp only
  rw [h]

/-- A statement on the task table that fails by itself. -/
lemma run_onTasks_error {body : Micros → Database → Database.Reply α} {tx : Transaction}
    {state : SqlState} {database : Database} (ha : tx.aborted = false)
    (hf : tx.faultAt .tasks = none) (h : body tx.now tx.database = (.error state, database)) :
    run (onTasks body) tx = (.error (.refused state), { tx with database, aborted := true }) := by
  rw [run_onTasks, if_neg (by simp [ha]), hf]
  dsimp only
  rw [h]

/-- A statement that succeeds was not refused. -/
lemma of_run_onTasks_ok {body : Micros → Database → Database.Reply α} {tx after : Transaction}
    {a : α} (h : run (onTasks body) tx = (.ok a, after)) :
    tx.aborted = false ∧ tx.faultAt .tasks = none ∧ (body tx.now tx.database).1 = .ok a := by
  rw [run_onTasks] at h
  split at h
  · cases h
  · rename_i ha
    split at h
    · cases h
    · rename_i hf
      split at h
      · rename_i hbody
        cases h
        exact ⟨by simpa using ha, hf, congrArg Prod.fst hbody⟩
      · cases h

/-- A notification. -/
lemma run_notify (channel : Channel) (tx : Transaction) :
    run (notify channel) tx =
      if tx.aborted then (.error (.refused .failedTransaction), tx)
      else
        match tx.faultAt .notify with
        | some state => (.error (.refused state), tx.spendFault)
        | none => (.ok (), tx.publish channel) := by
  simp only [run, notify, statement, Option.bind_some]
  by_cases ha : tx.aborted = true
  · simp only [if_pos ha]
  · simp only [if_neg ha]
    cases tx.faultAt .notify <;> rfl

end Action

/-! ### Planned failures -/

namespace PlannedFault

variable {a b c : Option PlannedFault}

/-- A failure that is left or was met stays so. -/
lemma left_trans (h : b = a ∨ b = none) (h' : c = b ∨ c = none) : c = a ∨ c = none := by
  rcases h' with rfl | hc
  · exact h
  · exact .inr hc

/-- Where no failure was to come, none is left. -/
lemma left_none (h : b = a ∨ b = none) (ha : a = none) : b = none := by
  rcases h with hb | hb
  · exact hb.trans ha
  · exact hb

end PlannedFault

/-! ### The end of a transaction -/

/-- A commit of the transaction takes effect. -/
def Transaction.Lands (tx : Transaction) : Prop :=
  tx.aborted = false ∧ tx.faultAt .commit = none

instance (tx : Transaction) : Decidable tx.Lands := inferInstanceAs (Decidable (_ ∧ _))

namespace Store

variable {α β : Type}

lemma commit_of_lands (store : Store) {tx : Transaction} (h : tx.Lands) :
    store.commit tx =
      ⟨.ok (), tx.published, { store with database := tx.database, fault := tx.fault }⟩ := by
  simp only [commit, Transaction.commit, h.1, h.2, Bool.false_eq_true, if_false, after]

lemma commit_of_fault (store : Store) (tx : Transaction) {state : SqlState}
    (ha : tx.aborted = false) (hf : tx.faultAt .commit = some state) :
    store.commit tx =
      ⟨.error state, [],
        { store with database := store.database.undo tx.database, fault := none }⟩ := by
  simp only [commit, Transaction.commit, ha, hf, Bool.false_eq_true, if_false, after]

/-- A commit that does not take effect leaves what was there, without the numbers that
were taken. -/
lemma commit_of_not_lands (store : Store) {tx : Transaction} (h : ¬ tx.Lands) :
    (store.commit tx).published = [] ∧
      ∃ fault, (fault = tx.fault ∨ fault = none) ∧
        (store.commit tx).store =
          { store with database := store.database.undo tx.database, fault } := by
  by_cases ha : tx.aborted = true
  · simp only [commit, Transaction.commit, if_pos ha]
    exact ⟨rfl, tx.fault, .inl rfl, rfl⟩
  · have ha : tx.aborted = false := by simpa using ha
    cases hf : tx.faultAt .commit with
    | some state =>
        rw [store.commit_of_fault tx ha hf]
        exact ⟨rfl, none, .inr rfl, rfl⟩
    | none => exact absurd ⟨ha, hf⟩ h

/-- A statement in a transaction of its own, which may also fail when its answer is read and at
its commit. -/
lemma transact_onTasks (store : Store) (body : Micros → Database → Database.Reply α)
    (read : α → Except TaskError β) :
    store.transact TaskError.refused (Action.onTasks body >>= fun a => .ofExcept (read a)) =
      match store.begin.faultAt .tasks with
      | some state => ⟨.error (.refused state), [], { store with fault := none }⟩
      | none =>
        match body store.clock store.database with
        | (.error state, database) =>
          ⟨.error (.refused state), [], { store with database := store.database.undo database }⟩
        | (.ok a, database) =>
          match read a with
          | .error e => ⟨.error e, [], { store with database := store.database.undo database }⟩
          | .ok b =>
            match store.begin.faultAt .commit with
            | some state =>
              ⟨.error (.refused state), [],
                { store with database := store.database.undo database, fault := none }⟩
            | none => ⟨.ok b, [], { store with database }⟩ := by
  rw [transact]
  rw [Action.run_bind, Action.run_onTasks]
  simp only [begin, Bool.false_eq_true, if_false]
  cases hf : Transaction.faultAt
      { now := store.clock, database := store.database, fault := store.fault } .tasks with
  | some state => rfl
  | none =>
      obtain ⟨_ | a, database⟩ := body store.clock store.database
      · rfl
      simp only [Action.run_ofExcept]
      cases read a with
      | error e => rfl
      | ok b =>
          simp only [commit, Transaction.commit, Bool.false_eq_true, if_false,
            Transaction.faultAt]
          cases store.fault with
          | none => rfl
          | some fault =>
              by_cases hp : fault.point = .commit
              · simp only [Option.bind_some, if_pos hp]; rfl
              · simp only [Option.bind_some, if_neg hp]; rfl

/-- A single statement. -/
lemma autocommit_onTasks (store : Store) (body : Micros → Database → Database.Reply α) :
    store.autocommit (Action.onTasks body) =
      match store.begin.faultAt .tasks with
      | some state => ⟨.error (.refused state), [], { store with fault := none }⟩
      | none =>
        match body store.clock store.database with
        | (.error state, database) =>
          ⟨.error (.refused state), [], { store with database := store.database.undo database }⟩
        | (.ok a, database) => ⟨.ok a, [], { store with database }⟩ := by
  rw [autocommit]
  rw [Action.run_onTasks]
  simp only [begin, Bool.false_eq_true, if_false]
  cases Transaction.faultAt
      { now := store.clock, database := store.database, fault := store.fault } .tasks with
  | some state => rfl
  | none => obtain ⟨_ | a, database⟩ := body store.clock store.database <;> rfl

end Store
end LeaseQueue
