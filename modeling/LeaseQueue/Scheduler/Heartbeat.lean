/-
The heartbeat: while a task runs, its lease is renewed again and again.

* `HeartbeatScript`: the interval, the answers of the keeper of the lease and the
  time at which the heartbeat is stopped;
* `HeartbeatScript.tick`: when the next renewal begins;
* `HeartbeatScript.nextDue`: when the one after it is due;
* `HeartbeatScript.log`: the times of all renewals, and when the stop is done.

A renewal that begins late moves the schedule, a short delay apart. A stop comes
before a renewal that is due at the same time, and waits for one that is under way.
-/
import LeaseQueue.Time.Duration

namespace LeaseQueue

/-- What the keeper of a lease answers to a renewal, each time after some milliseconds:
whether the lease is still held, or an error. Or it panics, and with it the heartbeat. -/
inductive KeeperAnswer where
  | renewed (held : Bool) (after : Nat)
  | failed (after : Nat := 0)
  | panicked (after : Nat := 0)
  deriving DecidableEq

/-- What happens around a heartbeat. Behind the end of the answers every renewal
succeeds at once. -/
structure HeartbeatScript where
  interval : Duration
  keeper : List KeeperAnswer
  stopAt : Nat

/-- The times at which renewals began, and the time at which the stop was done. -/
structure HeartbeatLog where
  renewals : List Nat
  stoppedAt : Nat
  deriving DecidableEq

namespace HeartbeatScript

/-- A timer may run out this late, in nanoseconds, before the schedule moves. -/
def tolerance : Nat := 5 * Duration.nanosPerMilli

/-- The millisecond at which a renewal begins that is due at a number of nanoseconds,
when the one before it was answered at the millisecond `free`. -/
def tick (due free : Nat) : Nat := max free (Duration.timerMillis ⟨due⟩)

/-- When the next renewal is due, in nanoseconds, behind one that was due at `due`
and began at the millisecond `time`. -/
def nextDue (interval : Duration) (due time : Nat) : Nat :=
  let now := time * Duration.nanosPerMilli
  if due + tolerance < now then now + interval.nanos else due + interval.nanos

theorem due_le_tick (due free : Nat) : due ≤ tick due free * Duration.nanosPerMilli := by
  simp only [tick, Duration.timerMillis, Duration.nanosPerMilli]
  omega

theorem lt_nextDue {interval : Duration} (h : 0 < interval.nanos) {due time : Nat}
    (ht : due ≤ time * Duration.nanosPerMilli) : due < nextDue interval due time := by
  unfold nextDue
  by_cases hlate : due + tolerance < time * Duration.nanosPerMilli
  · simp only [hlate, ite_true]
    omega
  · simp only [hlate, ite_false]
    omega

/-- A renewal at a time, in front of the later ones. -/
def renewal (time : Nat) (log : HeartbeatLog) : HeartbeatLog :=
  { log with renewals := time :: log.renewals }

/-- The loop: a renewal is due at `due`, in nanoseconds, and the one before it was
answered at the millisecond `free`. -/
def loop (interval : Duration) (h : 0 < interval.nanos) (stopAt : Nat)
    (keeper : List KeeperAnswer) (due free : Nat) : HeartbeatLog :=
  let time := tick due free
  if _hs : stopAt ≤ time then ⟨[], max stopAt free⟩
  else
    match keeper.headD (.renewed true 0) with
    | .panicked after => ⟨[time], max stopAt (time + after)⟩
    | .failed after | .renewed _ after =>
      renewal time
        (loop interval h stopAt keeper.tail (nextDue interval due time) (time + after))
termination_by stopAt * Duration.nanosPerMilli - due
decreasing_by
  all_goals
    have hdue := due_le_tick due free
    have hnext := lt_nextDue h hdue
    have hlt : tick due free < stopAt := Nat.lt_of_not_le _hs
    have hmul : tick due free * Duration.nanosPerMilli < stopAt * Duration.nanosPerMilli :=
      Nat.mul_lt_mul_of_pos_right hlt (by decide)
    omega

/-- What has happened when the heartbeat is stopped. Without an interval there is no
loop at all. -/
def log (script : HeartbeatScript) : HeartbeatLog :=
  if h : 0 < script.interval.nanos then
    loop script.interval h script.stopAt script.keeper script.interval.nanos 0
  else ⟨[], script.stopAt⟩

end HeartbeatScript
end LeaseQueue
