/-
A scheduler at work: a listener, a scanner and workers over one store.

* `Live`: the scanner with its world, and the workers with what they have done;
* `Live.start`: the checks before the start;
* `Live.step?`: the next step of one of the parts, in a fixed order: a notification
  arrives, the scanner moves, a worker moves, a timer runs out;
* `Live.rest`: steps until there is nothing left to do;
* `Live.shutdown`, `Live.interrupt`: both ways to stop it.

The handler of a task runs in one step. Everything it has written is there when the
next part moves. Of the choices that the scanner has behind a shutdown this order takes the
one that overlooks none.
-/
import LeaseQueue.Handler.Run
import LeaseQueue.Pool.Site
import LeaseQueue.Pool.Stats
import LeaseQueue.Settings.Storage

namespace LeaseQueue

/-- What a worker is at: it is about to offer itself, it waits for a task, or it has
gone. -/
inductive WorkerPhase where
  | offering
  | waiting
  | gone
  deriving DecidableEq

/-- A worker of a pool. -/
structure PoolWorker where
  id : WorkerId
  phase : WorkerPhase := .offering
  deriving DecidableEq

/-- A run that a worker has made. -/
structure RunRecord where
  task : ClaimedTask
  trace : List TraceEvent
  answer : Except TaskError Transition

/-- A scheduler at work. -/
structure Live where
  world : Scanner.World Site Handler
  lease : LeaseSettings
  timeout : Duration
  workers : List PoolWorker
  stats : PoolStats
  runs : List RunRecord := []

namespace Live

/-! ### The start -/

/-- Names for some workers. -/
def poolOf (name : Nat → WorkerId) (n : Nat) : List PoolWorker :=
  (List.range n).map fun i => { id := name i }

/-- A scheduler whose settings are in order. -/
def ofSettings (store : Store) (registry : Registry Handler) (settings : SchedulerSettings)
    (name : Nat → WorkerId) : Live where
  world :=
    { source := { store, channel := settings.channel }
      registry
      lease := settings.lease.duration
      fallback := settings.fallback
      backoff := .ofPolicy settings.backoff
      capacity := settings.workers }
  lease := settings.lease
  timeout := settings.shutdownTimeout
  workers := poolOf name settings.workers
  stats := { workers := settings.workers }

/-- Subscribes to a channel, where the failure still to come may be met. -/
def listen (store : Store) (channel : Channel) : Except SchedulerError Unit :=
  match store.begin.faultAt .listen with
  | some state => .error (.listen channel (.refused state))
  | none => .ok ()

/-- Starts a scheduler over a pool of connections. -/
def start (store : Store) (connections : Nat) (registry : Registry Handler)
    (settings : SchedulerSettings) (name : Nat → WorkerId) : Except SchedulerError Live := do
  settings.validate.mapError .invalidConfig
  (settings.checkPoolSize connections).mapError .invalidConfig
  listen store settings.channel
  pure (ofSettings store registry settings name)

/-- Connects to a server and starts a scheduler with the standard settings for some
workers. A pool that is too small for them grows. -/
def startHandlers (server : Server) (storage : StorageSettings) (registry : Registry Handler)
    (workers : Nat) (name : Nat → WorkerId) : Except SchedulerError Live := do
  let settings := SchedulerSettings.ofWorkers workers
  settings.validate.mapError .invalidConfig
  let pool := storage.withMinConnections settings.requiredConnections
  let store ← server.connect.mapError .connect
  start store pool.maxConnections registry settings name

/-! ### The parts -/

def site (live : Live) : Site := live.world.source
def store (live : Live) : Store := live.site.store

/-- Something happens in the world of the scanner. -/
def happen (live : Live) (event : Scanner.World.Event Handler) : Live :=
  { live with world := live.world.happen event }

def withSite (live : Live) (site : Site) : Live :=
  { live with world := { live.world with source := site } }

/-- A notification arrives. One on the channel of the scheduler wakes the scanner. -/
def listen? (live : Live) : Option Live :=
  live.site.arrive?.map fun (channel, site) =>
    let live := live.withSite site
    if channel = site.channel then live.happen .wake else live

/-- While a handler pauses for at least the interval of the heartbeat, its lease is
renewed. -/
def renewing (lease : LeaseSettings) (task : ClaimedTask) : Surroundings := fun millis run =>
  if millis < lease.heartbeat.timerMillis then run
  else run.renew task.id task.worker lease.duration

/-- The number of runs of a type. -/
def runsOf (live : Live) (taskType : String) : Nat :=
  live.runs.countP fun run => run.task.taskType == taskType

/-- A run has ended. -/
def recordRun (live : Live) (task : ClaimedTask) (reply : RunReply) : Live :=
  let stats :=
    match reply.answer with
    | .ok transition => live.stats.record transition.status
    | .error _ => live.stats.recordError
  let live := { live with stats, runs := live.runs ++ [⟨task, reply.trace, reply.answer⟩] }
  let stops := reply.trace.any fun event => event matches .stopped
  if stops then live.happen .shutdown else live

/-- Runs a task with a handler. -/
def execute (live : Live) (handler : Handler) (task : ClaimedTask) : Live :=
  let site := live.site
  let context : RunContext := ⟨task, site.channel, live.runsOf task.taskType⟩
  let reply := site.store.run (renewing live.lease task) handler context
  let site :=
    { site with store := reply.store, inFlight := site.inFlight ++ reply.published }
  (live.withSite site).recordRun task reply

def setPhase (live : Live) (worker : WorkerId) (phase : WorkerPhase) : Live :=
  { live with workers := live.workers.map fun other =>
      if other.id == worker then { other with phase } else other }

/-- The task in the inbox of a worker. -/
def inboxOf (live : Live) (worker : WorkerId) : Option ClaimedTask :=
  (live.world.inbox? worker).bind Scanner.Inbox.content

/-- A worker takes a task from its inbox and runs it. -/
def takeTask (live : Live) (worker : WorkerId) (task : ClaimedTask) : Live :=
  let live := (live.happen (.take worker)).setPhase worker .offering
  match live.world.registry.get? task.taskType with
  | some handler => live.execute handler task
  | none => live

/-- The next move of a worker. A shutdown is seen before all else, and leaves a task
in the inbox where it is. -/
def work? (live : Live) (worker : PoolWorker) : Option Live :=
  match worker.phase with
  | .gone => none
  | .offering =>
    if live.world.shutdown then some (live.setPhase worker.id .gone)
    else some ((live.happen (.offer worker.id .held)).setPhase worker.id .waiting)
  | .waiting =>
    if live.world.shutdown then some (live.setPhase worker.id .gone)
    else (live.inboxOf worker.id).map (live.takeTask worker.id)

/-- A task of a type with a handler could be claimed. -/
def hasWork (live : Live) : Bool :=
  live.store.database.rows.any (Row.isEligible live.store.clock live.world.registry.types)

/-- The time of the timer that everything waits for. A scan that has nothing to find
is not waited for. -/
def timer? (live : Live) : Option Nat :=
  match live.world.phase with
  | .parked _ _ | .backingOff _ _ => if live.hasWork then live.world.nextTimer? else none
  | _ => live.world.nextTimer?

/-- A timer runs out. -/
def jump? (live : Live) : Option Live :=
  live.timer?.map fun time => { live with world := { live.world with now := time } }

/-! ### Steps -/

/-- The next step of one of the parts. -/
def step? (live : Live) : Option Live :=
  live.listen?
    <|> (live.world.move? Site.source).map (fun world => { live with world })
    <|> live.workers.findSome? live.work?
    <|> live.jump?

/-- Steps until there is nothing left to do, at most `steps` of them. -/
def rest : (steps : Nat) → Live → Live
  | 0, live => live
  | steps + 1, live =>
    match live.step? with
    | some next => rest steps next
    | none => live

/-- A worker has a task to run. -/
def isActive (live : Live) : Bool :=
  live.workers.any fun worker =>
    worker.phase == .waiting && (live.inboxOf worker.id).isSome

/-- Steps until a worker has a task to run. -/
def untilActive : (steps : Nat) → Live → Live
  | 0, live => live
  | steps + 1, live =>
    if live.isActive then live
    else
      match live.step? with
      | some next => untilActive steps next
      | none => live

/-- A client calls the store. -/
def call {ε α : Type} (live : Live) (reply : Store.Reply ε α) : Live :=
  live.withSite (live.site.settle reply)

/-! ### The end -/

/-- Stops a scheduler that has nothing left to do. -/
def shutdown (steps : Nat) (live : Live) : Live := (live.happen .shutdown).rest steps

/-- The milliseconds for which a run has paused. -/
def pauseOf (trace : List TraceEvent) : Nat :=
  trace.foldl (fun sum event => sum + event.pause) 0

/-- Stops a scheduler as soon as a handler runs. The handler is waited for until the
timeout, and comes to its end in any case. -/
def interrupt (steps : Nat) (live : Live) : Except SchedulerError Unit × Live :=
  let live := live.untilActive steps
  let before := live.runs.length
  let ran := (live.workers.findSome? live.work?).getD live
  let pause := pauseOf ((ran.runs.drop before).flatMap RunRecord.trace)
  let answer :=
    if live.timeout.nanos < (Duration.ofMillis pause).nanos then
      .error (.shutdownTimeout live.timeout)
    else .ok ()
  (answer, ran.shutdown steps)

end Live
end LeaseQueue
