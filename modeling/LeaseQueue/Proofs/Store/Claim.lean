/-
Claims and renewals of a store, case by case:

* `Row.Claimable`: when a row can be claimed;
* `Database.leaseDeadline?_eq_some_iff`: when a lease has a deadline, and which;
* `Row.isRead`, `Row.mapM_given`: when the state of a row comes back, and when the row can be given
  to a worker;
* `Store.claim_cases`: a claim that gives a task has found it among those that can
  be claimed, and has changed its row alone; any other claim changes no row;
* `Store.claim_quiet`, `Store.claim_oldest`: what a claim does where the database does not fail,
  and where it finds a row there;
* `Store.not_pending_of_empty`: a claim that finds nothing leaves nothing to claim;
* `Store.renew_cases`: a renewal that succeeds moves the deadline of the row that
  the worker holds; any other changes no row.
-/
import LeaseQueue.Proofs.Json.Column
import LeaseQueue.Proofs.Store.Sound

namespace LeaseQueue

/-- The row can be claimed as a task of some types: it is pending, or it runs under a lease that
has ended before. -/
def Row.Claimable (now : Micros) (types : List String) (row : Row) : Prop :=
  (row.status = .known .pending ∨
      row.status = .known .running ∧
        ∃ deadline, row.leaseExpires = some deadline ∧ deadline < now) ∧
    row.taskType ∈ types

lemma Row.isEligible_iff {now : Micros} {types : List String} {row : Row} :
    row.isEligible now types = true ↔ row.Claimable now types := by
  simp only [isEligible, Claimable, leaseExpired, Bool.and_eq_true, Bool.or_eq_true, hasStatus_iff,
    List.contains_iff_mem, Option.any_eq_true, decide_eq_true_eq]

/-! ### States -/

namespace Row

variable {row : Row}

/-- The error about a state that does not come back. -/
def unreadState : TaskError := .database (.undecodable "state")

lemma readState_error {e : TaskError} (h : row.readState = .error e) : e = unreadState := by
  rw [readState] at h
  split at h <;> cases h
  rfl

lemma readState_eq_ok_iff {state : Json} :
    row.readState = .ok state ↔ Json.readColumn? Json.depthLimit row.state = some state := by
  rw [readState]
  cases Json.readColumn? Json.depthLimit row.state <;> simp

lemma readState_cases (row : Row) :
    (∃ state, row.readState = .ok state) ∨ row.readState = .error unreadState := by
  cases h : row.readState with
  | ok state => exact .inl ⟨state, rfl⟩
  | error e => exact .inr (by rw [readState_error h])

/-- What comes back depends on the state alone. -/
lemma readState_congr {other : Row} (h : other.state = row.state) :
    other.readState = row.readState := by
  rw [readState, h, ← readState]

/-- The state of the row comes back from its column. -/
def isRead (row : Row) : Bool := row.readState.isOk

lemma isRead_iff (row : Row) : row.isRead = true ↔ ∃ state, row.readState = .ok state := by
  rw [isRead]
  cases row.readState <;> simp [Except.isOk, Except.toBool]

/-- A state that its column keeps comes back as it was stored. -/
lemma readState_of_kept (h : row.state.Kept Json.depthLimit) : row.readState = .ok row.state := by
  rw [readState, (Json.readColumn?_eq_self_iff _ _).mpr h]

/-- A row is given with the state that comes back, or not at all. -/
lemma mapM_given (row : Row) (worker : WorkerId) :
    ((some row).mapM fun row => row.given worker) =
      row.readState.map fun state => some ⟨row.id, row.taskType, state, worker⟩ := by
  simp only [Option.mapM_some, given]
  cases row.readState <;> rfl

end Row

/-! ### Deadlines -/

namespace Database

/-- A lease that has a deadline fits into an interval, and ends before the end of time. -/
lemma leaseDeadline?_eq_some_iff {now deadline : Micros} {lease : Duration} :
    leaseDeadline? now lease = some deadline ↔
      IsInterval lease ∧ deadline = now + leaseMicros lease ∧ deadline < endOfTime := by
  rw [leaseDeadline?, Option.ite_none_right_eq_some, Option.some.injEq]
  constructor
  · rintro ⟨⟨hinterval, hend⟩, rfl⟩
    exact ⟨hinterval, rfl, hend⟩
  · rintro ⟨hinterval, rfl, hend⟩
    exact ⟨⟨hinterval, hend⟩, rfl⟩

/-- A lease that ends behind the end of time has no deadline. -/
lemma leaseDeadline?_eq_none {now : Micros} {lease : Duration}
    (h : endOfTime ≤ now + leaseMicros lease) : leaseDeadline? now lease = none :=
  if_neg fun hend => h.not_gt hend.2

end Database

namespace Store

/-- The call has changed nothing, unless it has met the failure that was still to
come. -/
def Untouched {ε α : Type} (store : Store) (reply : Reply ε α) : Prop :=
  reply.published = [] ∧
    ∃ fault, (fault = store.fault ∨ fault = none) ∧ reply.store = { store with fault }

/-- The store behind a claim that gives a row to a worker. -/
def leased (store : Store) (row : Row) (worker : WorkerId) (deadline : Micros) : Store :=
  { store with
    database := store.database.change (Table.only row.id fun _ => true)
      (Row.claimed store.clock worker deadline) }

/-- The store behind a renewal. -/
def renewed (store : Store) (task : TaskId) (worker : WorkerId) (deadline : Micros) : Store :=
  { store with
    database := store.database.change (Table.only task (Row.isHeldBy worker))
      (Row.renewed store.clock deadline) }

/-! ### Claims -/

lemma claimAnswer_error (e : TaskError) (task : ClaimedTask) :
    claimAnswer (.error e) ≠ .ok (.claimed task) := by
  simp only [claimAnswer]
  split <;> simp

/-- A claim gives the oldest row that can be claimed to the worker, with the state that
comes back and until a deadline that can be represented, or it gives no task and changes
nothing. -/
theorem claim_cases (store : Store) (types : List String) (worker : WorkerId)
    (lease : Duration) :
    (∃ row deadline state,
        Table.oldest? (store.database.rows.filter (Row.isEligible store.clock types)) = some row ∧
        Database.leaseDeadline? store.clock lease = some deadline ∧
        row.readState = .ok state ∧
        store.claim types worker lease =
          ⟨.ok (.claimed ⟨row.id, row.taskType, state, worker⟩), [],
            store.leased row worker deadline⟩) ∨
      ((∀ task, (store.claim types worker lease).answer ≠ .ok (.claimed task)) ∧
        store.Untouched (store.claim types worker lease)) := by
  rw [claim]
  by_cases ht : types.isEmpty = true
  · rw [if_pos ht]
    exact .inr ⟨by simp, rfl, store.fault, .inl rfl, rfl⟩
  rw [if_neg ht]
  dsimp only
  rw [tryClaim, claiming, transact_onTasks]
  cases store.begin.faultAt .tasks with
  | some state => exact .inr ⟨claimAnswer_error _, rfl, none, .inr rfl, rfl⟩
  | none =>
      obtain ⟨⟨_ | table, nextId, migrations⟩, clock, fault⟩ := store
      · exact .inr ⟨claimAnswer_error _, rfl, fault, .inl rfl, rfl⟩
      simp only [Database.claimTask, Database.onTasks, Database.rows, Option.getD_some]
      by_cases hinterval : Database.IsInterval lease
      · rw [if_pos hinterval]
        cases ho : Table.oldest? (table.filter (Row.isEligible clock types)) with
        | none =>
            simp only [Option.mapM_none, pure, Except.pure]
            split
            · exact .inr ⟨claimAnswer_error _, rfl, none, .inr rfl, rfl⟩
            · exact .inr ⟨fun task => by simp [claimAnswer], rfl, fault, .inl rfl, rfl⟩
        | some row =>
            cases hd : Database.leaseDeadline? clock lease with
            | none => exact .inr ⟨claimAnswer_error _, rfl, fault, .inl rfl, rfl⟩
            | some deadline =>
                dsimp only
                rw [Row.mapM_given]
                cases hstate : row.readState with
                | error e => exact .inr ⟨claimAnswer_error _, rfl, fault, .inl rfl, rfl⟩
                | ok state =>
                    dsimp only [Except.map]
                    split
                    · exact .inr ⟨claimAnswer_error _, rfl, none, .inr rfl, rfl⟩
                    · exact .inl ⟨row, deadline, state, rfl, rfl, hstate, rfl⟩
      · rw [if_neg hinterval]
        exact .inr ⟨claimAnswer_error _, rfl, fault, .inl rfl, rfl⟩

/-- A claim in a store that meets no failure. -/
theorem claim_quiet {store : Store} (quiet : store.begin.Quiet) (types : List String)
    (worker : WorkerId) (lease : Duration) :
    store.claim types worker lease =
      if types = [] then ⟨.ok .empty, [], store⟩
      else if ¬ Database.IsInterval lease then ⟨.error (.refused .datetimeOverflow), [], store⟩
      else
        match Table.oldest? (store.database.rows.filter (Row.isEligible store.clock types)) with
        | none => ⟨.ok .empty, [], store⟩
        | some row =>
          match Database.leaseDeadline? store.clock lease, row.readState with
          | none, _ => ⟨.error (.refused .datetimeOverflow), [], store⟩
          | some _, .error e => ⟨.error e, [], store⟩
          | some deadline, .ok state =>
            ⟨.ok (.claimed ⟨row.id, row.taskType, state, worker⟩), [],
              store.leased row worker deadline⟩ := by
  rw [claim]
  by_cases ht : types = []
  · rw [if_pos ht, if_pos (List.isEmpty_iff.mpr ht)]
  rw [if_neg ht, if_neg (List.isEmpty_iff.not.mpr ht)]
  dsimp only
  rw [tryClaim, claiming, transact_onTasks, quiet.faultAt, quiet.faultAt]
  obtain ⟨table, htasks⟩ := quiet.table
  obtain ⟨⟨tasks, nextId, migrations⟩, clock, fault⟩ := store
  simp only [begin] at htasks
  subst htasks
  simp only [Database.claimTask, Database.onTasks, Database.rows, Option.getD_some]
  by_cases hinterval : Database.IsInterval lease
  · rw [if_pos hinterval, if_neg (not_not.mpr hinterval)]
    cases Table.oldest? (table.filter (Row.isEligible clock types)) with
    | none => rfl
    | some row =>
        cases Database.leaseDeadline? clock lease with
        | none => rfl
        | some deadline =>
            dsimp only
            rw [Row.mapM_given]
            cases hstate : row.readState with
            | error e =>
                obtain rfl := Row.readState_error hstate
                rfl
            | ok state => rfl
  · rw [if_neg hinterval, if_pos hinterval]
    rfl

/-- A claim that finds a row looks at the oldest one. It gives this row if the lease has a deadline
and the state comes back. -/
lemma claim_oldest {store : Store} (quiet : store.begin.Quiet) {types : List String} {row : Row}
    (h : Table.oldest? (store.database.rows.filter (Row.isEligible store.clock types)) = some row)
    (worker : WorkerId) (lease : Duration) :
    store.claim types worker lease =
      match Database.leaseDeadline? store.clock lease with
      | none => ⟨.error (.refused .datetimeOverflow), [], store⟩
      | some deadline =>
        ⟨(row.given worker).map .claimed, [],
          if row.isRead then store.leased row worker deadline else store⟩ := by
  have hrow := (List.mem_filter.mp (Table.oldest?_mem h)).2
  have htypes : types ≠ [] := List.ne_nil_of_mem (Row.isEligible_iff.mp hrow).2
  rw [claim_quiet quiet, h, if_neg htypes]
  cases hd : Database.leaseDeadline? store.clock lease with
  | none => exact ite_self _
  | some deadline =>
      have hinterval := (Database.leaseDeadline?_eq_some_iff.mp hd).1
      rw [if_neg (not_not.mpr hinterval), Row.given, Row.isRead]
      obtain ⟨state, hstate⟩ | hstate := row.readState_cases <;> simp only [hstate] <;> rfl

/-- A claim that finds nothing leaves no pending task of its types. -/
lemma not_pending_of_empty {store : Store} (quiet : store.begin.Quiet) {types : List String}
    {worker : WorkerId} {lease : Duration}
    (h : (store.claim types worker lease).answer = .ok .empty) :
    ∀ row ∈ store.database.rows, row.hasStatus .pending = true → row.taskType ∉ types := by
  intro row hrow hp htype
  have helig : row ∈ store.database.rows.filter (Row.isEligible store.clock types) :=
    List.mem_filter.mpr ⟨hrow, by simp [Row.isEligible, hp, htype]⟩
  rw [claim_quiet quiet, if_neg (List.ne_nil_of_mem htype)] at h
  cases hfirst : Table.oldest? (store.database.rows.filter (Row.isEligible store.clock types)) with
  | none =>
      rw [Table.oldest?_eq_none_iff.mp hfirst] at helig
      cases helig
  | some first =>
      rw [hfirst] at h
      split at h
      · cases h
      · dsimp only at h
        split at h <;> cases h

/-! ### Renewals -/

/-- A renewal moves the deadline of the row that the worker holds, or it answers
something else than success and changes nothing. -/
theorem renew_cases (store : Store) (task : TaskId) (worker : WorkerId) (lease : Duration) :
    (∃ deadline,
        (∃ row ∈ store.database.rows, row.id = task ∧ row.isHeldBy worker = true) ∧
        Database.leaseDeadline? store.clock lease = some deadline ∧
        store.renew task worker lease = ⟨.ok true, [], store.renewed task worker deadline⟩) ∨
      ((store.renew task worker lease).answer ≠ .ok true ∧
        store.Untouched (store.renew task worker lease)) := by
  rw [renew]
  rw [autocommit_onTasks]
  cases store.begin.faultAt .tasks with
  | some state => exact .inr ⟨by simp, rfl, none, .inr rfl, rfl⟩
  | none =>
      obtain ⟨⟨_ | table, nextId, migrations⟩, clock, fault⟩ := store
      · exact .inr ⟨by simp [Database.renewLease, Database.onTasks], rfl, fault, .inl rfl, rfl⟩
      simp only [Database.renewLease, Database.onTasks, Database.rows, Option.getD_some]
      by_cases hinterval : Database.IsInterval lease
      · rw [if_pos hinterval]
        by_cases hany : table.any (Table.only task (Row.isHeldBy worker)) = true
        · rw [if_pos hany]
          cases hd : Database.leaseDeadline? clock lease with
          | none => exact .inr ⟨by simp, rfl, fault, .inl rfl, rfl⟩
          | some deadline => exact .inl ⟨deadline, Table.any_only_iff.mp hany, rfl, rfl⟩
        · rw [if_neg hany]
          exact .inr ⟨by simp, rfl, fault, .inl rfl, rfl⟩
      · rw [if_neg hinterval]
        exact .inr ⟨by simp, rfl, fault, .inl rfl, rfl⟩

/-- A claim is a step of the database, or none. -/
lemma steps_claim (store : Store) (types : List String) (worker : WorkerId) (lease : Duration) :
    store.database.Steps (store.claim types worker lease).store.database := by
  rcases store.claim_cases types worker lease with
    ⟨row, deadline, state, ho, -, -, hreply⟩ | ⟨-, -, fault, -, hstore⟩
  · obtain ⟨hrow, he⟩ := List.mem_filter.mp (Table.oldest?_mem ho)
    rw [hreply]
    exact .single (.claim worker deadline hrow he)
  · rw [hstore]

/-- A renewal is a step of the database, or none. -/
lemma steps_renew (store : Store) (task : TaskId) (worker : WorkerId) (lease : Duration) :
    store.database.Steps (store.renew task worker lease).store.database := by
  rcases store.renew_cases task worker lease with
    ⟨deadline, -, -, hreply⟩ | ⟨-, -, fault, -, hstore⟩
  · rw [hreply]
    exact .single (.renew task worker store.clock deadline)
  · rw [hstore]

end Store
end LeaseQueue
