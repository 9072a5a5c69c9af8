/-
The columns of a row that belong together.

* `Row.WellFormed`: exactly a running task has a worker and the end of a lease, exactly a
  failed one has an error;
* `Row.WellFormed.fresh`, `change`, `renewed`, `claimed`: every change of a row keeps
  that, though most of them write some of these columns only;
* `Store.play_wellFormed`: all rows of all stores behind a run are of this form.
-/
import LeaseQueue.Proofs.Store.Reachable

namespace LeaseQueue

/-- Exactly a running task has a worker and the end of a lease, and exactly a failed one
has an error. -/
structure Row.WellFormed (row : Row) : Prop where
  worker : row.worker.isSome = true ↔ row.leaseExpires.isSome = true
  lease : row.leaseExpires.isSome = true ↔ row.status = .known .running
  error : row.error.isSome = true ↔ row.status = .known .failed

namespace Row.WellFormed

variable {row : Row}

/-- A task that does not run has neither a worker nor a lease. -/
lemma of_not_running (h : row.WellFormed) (hs : row.status ≠ .known .running) :
    row.worker = none ∧ row.leaseExpires = none := by
  have hl : row.leaseExpires = none := by simpa using mt h.lease.mp hs
  have hw : row.worker = none := by simpa [hl] using h.worker
  exact ⟨hw, hl⟩

/-- A task that has not failed has no error. -/
lemma of_not_failed (h : row.WellFormed) (hs : row.status ≠ .known .failed) :
    row.error = none := by
  simpa using mt h.error.mp hs

lemma fresh (now : Micros) (id : TaskId) (taskType : String) (state : Json)
    (parent : Option TaskId) : (Row.fresh now id taskType state parent).WellFormed := by
  constructor <;> simp [Row.fresh]

/-- A resumption writes neither the lease nor the error: a waiting task had none. -/
lemma pending_of_waiting {next : Row} (h : row.WellFormed) (hw : row.hasStatus .waiting = true)
    (hs : next.status = .known .pending) (worker : next.worker = row.worker)
    (lease : next.leaseExpires = row.leaseExpires) (error : next.error = row.error) :
    next.WellFormed := by
  have hstatus := Row.hasStatus_iff.mp hw
  have hnone := h.of_not_running (by simp [hstatus])
  have herror := h.of_not_failed (by simp [hstatus])
  constructor <;> simp [hs, worker, lease, error, hnone, herror]

lemma change {now : Micros} {next : Row} (hc : Row.Change now row next) (h : row.WellFormed) :
    next.WellFormed := by
  cases hc with
  | resumed hw => exact h.pending_of_waiting hw rfl rfl rfl rfl
  | resumedWith state hw => exact h.pending_of_waiting hw rfl rfl rfl rfl
  | cancelled => constructor <;> simp [Row.cancelled]
  | finished worker outcome hheld hs =>
      constructor
      · simp [Row.finished]
      · simp [Row.finished, hs]
      · by_cases hf : outcome.status = .failed <;> simp [Row.finished, hf]

/-- A renewal writes the lease only: the task was running. -/
lemma renewed (h : row.WellFormed) {worker : WorkerId} (hheld : row.isHeldBy worker = true)
    (now deadline : Micros) : (row.renewed now deadline).WellFormed := by
  obtain ⟨hw, hs⟩ := Row.isHeldBy_iff.mp hheld
  have herror := h.of_not_failed (by simp [hs])
  constructor <;> simp [Row.renewed, hw, hs, herror]

/-- A claim does not write the error: a task that can be claimed has none. -/
lemma claimed (h : row.WellFormed) {now : Micros} {types : List String}
    (he : row.isEligible now types = true) (worker : WorkerId) (deadline : Micros) :
    (row.claimed now worker deadline).WellFormed := by
  have hstatus : row.status ≠ .known .failed := by
    intro hs
    simp [Row.isEligible, Row.hasStatus, hs] at he
  have herror := h.of_not_failed hstatus
  constructor <;> simp [Row.claimed, herror]

end Row.WellFormed

/-- Whatever calls have been made, from the empty store on, exactly the running tasks
have a worker and a lease, and exactly the failed ones have an error. -/
theorem Store.play_wellFormed (clock : Micros) (channel : Channel) (calls : List Call) :
    ∀ row ∈ ((Store.initial clock).play channel calls).database.rows, row.WellFormed := by
  have steps := steps_play (initial_sound clock) channel calls
  refine Database.Steps.forall_rows steps ?_ ?_ ?_ ?_ (initial_sound clock) ?_
  · exact fun now id taskType state parent => .fresh now id taskType state parent
  · exact fun now row next hc h => h.change hc
  · exact fun now deadline worker row hheld h => h.renewed hheld now deadline
  · exact fun now types worker deadline row he h => h.claimed he worker deadline
  · rw [initial_rows]
    exact fun row hrow => absurd hrow List.not_mem_nil

/-- One task fails, and then another one runs. -/
def Store.errands : List Call :=
  [.perform (.create "letter" none), .perform (.create "parcel" none),
    .claim ["letter"] "first" (.ofSeconds 60), .finish 1 "first" (.failed "no stamp"),
    .claim ["parcel"] "second" (.ofSeconds 60)]

theorem Store.errands_wellFormed :
    ∃ failed running,
      ((Store.initial 0).play .standard errands).database.rows = [failed, running] ∧
        (failed.error = some "no stamp" ∧ failed.WellFormed) ∧
        (running.worker = some "second" ∧ running.WellFormed) := by
  refine ⟨_, _, rfl, ⟨rfl, ?_⟩, rfl, ?_⟩
  · exact play_wellFormed 0 .standard errands _ (.head _)
  · exact play_wellFormed 0 .standard errands _ (.tail _ (.head _))

end LeaseQueue
