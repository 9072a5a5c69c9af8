/-
Counts of the runs of a pool of workers:

* `PoolStats`: the runs by how they ended;
* `PoolStats.record`, `PoolStats.recordError`: one run more;
* `PoolStats.totalRuns`: all runs, one more with every record;
* `PoolStats.successRate`: the share of the completed ones.
-/
import LeaseQueue.Number.Double
import LeaseQueue.Task.Status

namespace LeaseQueue

/-- How the runs of a pool have ended: those that were committed by the new status
of the task, and those that were undone. -/
structure PoolStats where
  workers : Nat := 0
  active : Nat := 0
  completed : Nat := 0
  failed : Nat := 0
  waiting : Nat := 0
  requeued : Nat := 0
  errors : Nat := 0
  deriving DecidableEq

namespace PoolStats

/-- The number of runs, committed or not. -/
def totalRuns (stats : PoolStats) : Nat :=
  stats.completed + stats.failed + stats.waiting + stats.requeued + stats.errors

/-- The completed ones of the runs that ended a task, in percent; zero when there
is none. -/
def successRate (stats : PoolStats) : Double :=
  let ended := stats.completed + stats.failed
  if ended = 0 then .zero false
  else ((Double.ofNat stats.completed).div (.ofNat ended)).mul (.ofNat 100)

/-- One more run that was undone. -/
def recordError (stats : PoolStats) : PoolStats := { stats with errors := stats.errors + 1 }

/-- One more run that was committed with a status. -/
def record (stats : PoolStats) : Status → PoolStats
  | .completed => { stats with completed := stats.completed + 1 }
  | .failed => { stats with failed := stats.failed + 1 }
  | .waiting => { stats with waiting := stats.waiting + 1 }
  | .pending => { stats with requeued := stats.requeued + 1 }
  | .running => stats.recordError

@[simp] theorem totalRuns_recordError (stats : PoolStats) :
    stats.recordError.totalRuns = stats.totalRuns + 1 := by
  simp [recordError, totalRuns, Nat.add_assoc]

@[simp] theorem totalRuns_record (stats : PoolStats) (status : Status) :
    (stats.record status).totalRuns = stats.totalRuns + 1 := by
  cases status <;> simp only [record, totalRuns_recordError] <;> simp only [totalRuns] <;> omega

end PoolStats
end LeaseQueue
