/-
Settings of a scheduler:

* `SchedulerSettings`: workers, lease and heartbeat, channel, fallback rescan,
  shutdown timeout and backoff, with `standard` and `ofWorkers`;
* `Setting`: a change of one of them, and `SchedulerSettings.apply`;
* `requiredConnections`, `checkPoolSize`: the connections that the workers need;
* `validate`: the first reason why the settings do not work.
-/
import LeaseQueue.Backoff
import LeaseQueue.Channel
import LeaseQueue.Error

namespace LeaseQueue

/-- For how long a task is leased, and how often its worker renews the lease. -/
structure LeaseSettings where
  duration : Duration
  heartbeat : Duration
  deriving DecidableEq

/-- Settings of a scheduler. Without a fallback only notifications start a scan. -/
structure SchedulerSettings where
  workers : Nat
  lease : LeaseSettings
  channel : Channel
  fallback : Option Duration
  shutdownTimeout : Duration
  backoff : BackoffPolicy Double
  deriving DecidableEq

/-- A change of one setting. -/
inductive Setting where
  | workers (n : Nat)
  | lease (duration : Duration)
  | heartbeat (interval : Duration)
  | channel (channel : Channel)
  | fallback (interval : Option Duration)
  | shutdownTimeout (timeout : Duration)
  | backoff (policy : BackoffPolicy Double)
  deriving DecidableEq

namespace SchedulerSettings

/-- The length of a lease unless another one is chosen. -/
def standardLease : Duration := .ofSeconds 300

/-- Four workers, with leases of five minutes that are renewed every minute. -/
def standard : SchedulerSettings where
  workers := 4
  lease := ⟨standardLease, .ofSeconds 60⟩
  channel := .standard
  fallback := some standardLease
  shutdownTimeout := .ofSeconds 60
  backoff := .standard

/-- The standard settings with another number of workers. -/
def ofWorkers (n : Nat) : SchedulerSettings := { standard with workers := n }

/-- The settings after a change. A fallback that is as long as the lease follows
it to another length. -/
def apply (settings : SchedulerSettings) : Setting → SchedulerSettings
  | .workers n => { settings with workers := n }
  | .lease duration =>
    { settings with
      fallback :=
        if settings.fallback = some settings.lease.duration then some duration
        else settings.fallback
      lease := { settings.lease with duration } }
  | .heartbeat interval => { settings with lease := { settings.lease with heartbeat := interval } }
  | .channel channel => { settings with channel }
  | .fallback interval => { settings with fallback := interval }
  | .shutdownTimeout timeout => { settings with shutdownTimeout := timeout }
  | .backoff policy => { settings with backoff := policy }

/-- The settings after some changes, in their order. -/
def applyAll (settings : SchedulerSettings) (changes : List Setting) : SchedulerSettings :=
  changes.foldl apply settings

/-- The least number of connections: two for every worker, one that runs the task
and one that renews its lease, and one each for claiming and for listening. The
count stops at the greatest number of 32 bits. -/
def requiredConnections (settings : SchedulerSettings) : Nat :=
  min Text.maxNat32 (2 * settings.workers + 2)

/-- A pool has enough connections. -/
def checkPoolSize (settings : SchedulerSettings) (connections : Nat) : Except ConfigError Unit :=
  let required := settings.requiredConnections
  if connections < required then
    .error (.invalid (.poolTooSmall settings.workers required connections))
  else .ok ()

/-- The first reason why the settings do not work. -/
def fault? (settings : SchedulerSettings) : Option InvalidSetting :=
  let lease := settings.lease
  if settings.workers = 0 then some .noWorkers
  else if lease.heartbeat.nanos = 0 then some .zeroHeartbeat
  else if lease.duration.nanos ≤ lease.heartbeat.nanos then
    some (.heartbeatTooLong lease.heartbeat lease.duration)
  else if settings.fallback = some .zero then some .zeroFallback
  else if settings.backoff.initial.nanos = 0 || settings.backoff.factor.lt .one then
    some .shrinkingBackoff
  else none

/-- The settings can run. -/
def validate (settings : SchedulerSettings) : Except ConfigError Unit :=
  match settings.fault? with
  | some why => .error (.invalid why)
  | none => .ok ()

end SchedulerSettings
end LeaseQueue
