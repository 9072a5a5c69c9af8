/-
The scanner: it waits for an idle worker, claims a task for it and hands the task
over. When nothing is left to claim it parks the worker and waits for a wake-up or
for the fallback timer; after a failed claim it backs off.

* `ClaimSource`: where tasks are claimed;
* `Phase`: what the scanner is at, with the timers that it waits for;
* `World`: the scanner with all that it can see, in virtual milliseconds;
* `World.happen`: what others do: offers, wake-ups, registrations, shutdown;
* `World.wait?`: what a scanner that waits does, which may overlook a shutdown;
* `World.move?`: the next move of the scanner at this time, if there is one;
* `World.nextTimer?`: the time of the next move, if the scanner waits for a timer.

The log holds each claim, each task taken by a worker and each task without a
handler, in the order in which they happened.
-/
import LeaseQueue.Registry
import LeaseQueue.Scheduler.Wake
import LeaseQueue.Settings.Scheduler
import LeaseQueue.Task.Basic

namespace LeaseQueue

/-- The error of a task that no handler can run. -/
def unhandledTypeMessage (taskType : String) : String :=
  s!"no handler registered for task type {Text.quote taskType}"

namespace Scanner

/-! ### Claims -/

/-- The answer to a claim, and the milliseconds that it takes. -/
structure ClaimReply (σ : Type) where
  delay : Nat
  answer : Except TaskError Claim
  source : σ

/-- Where tasks are claimed: a claim for a worker, and the failing of a task that no
handler can run. -/
structure ClaimSource (σ : Type) where
  claim : σ → (types : List String) → WorkerId → Duration → ClaimReply σ
  failUnhandled : σ → ClaimedTask → (message : String) → σ

/-! ### Inboxes -/

/-- How a worker empties its inbox: at once, only when it is told to, or no more. -/
inductive InboxKind where
  | drained
  | held
  | closed
  deriving DecidableEq

/-- The inbox of a worker, which has room for one task. -/
structure Inbox where
  worker : WorkerId
  kind : InboxKind
  content : Option ClaimedTask := none

/-! ### The log -/

/-- A claim. -/
structure ClaimCall where
  time : Nat
  worker : WorkerId
  types : List String
  lease : Duration

/-- A worker has looked into its inbox. -/
structure Taken where
  time : Nat
  worker : WorkerId
  task : Option ClaimedTask

/-- A task was failed because no handler can run it. -/
structure FailCall where
  time : Nat
  id : TaskId
  message : String

/-- Everything that happened, oldest first. -/
structure Log where
  claims : List ClaimCall := []
  taken : List Taken := []
  failed : List FailCall := []
  stoppedAt : Option Nat := none

/-! ### The scanner -/

/-- What the scanner is at. -/
inductive Phase where
  /-- No worker is idle. -/
  | waiting
  /-- A claim for a worker comes next. -/
  | scanning (worker : WorkerId)
  /-- A claim is answered at a time. -/
  | claiming (worker : WorkerId) (answer : Except TaskError Claim) (due : Nat)
  /-- A task goes into the inbox of its worker as soon as there is room. -/
  | delivering (worker : WorkerId) (task : ClaimedTask)
  /-- A claim has failed; the next one comes at a time. -/
  | backingOff (worker : WorkerId) (due : Nat)
  /-- There was nothing to claim; the fallback timer may end the wait. -/
  | parked (worker : WorkerId) (due : Option Nat)
  | stopped

/-- The scanner and all that it can see. -/
structure World (σ η : Type) where
  now : Nat := 0
  source : σ
  registry : Registry η
  lease : Duration
  fallback : Option Duration
  backoff : Backoff Double
  /-- The idle workers, first come first. -/
  offers : List WorkerId := []
  capacity : Nat
  /-- More workers may be offered. -/
  isOpen : Bool := true
  wake : WakeChannel := {}
  shutdown : Bool := false
  inboxes : List Inbox := []
  phase : Phase := .waiting
  log : Log := {}

namespace World

variable {σ η : Type}

/-! ### Inboxes -/

/-- The inbox of a worker. -/
def inbox? (world : World σ η) (worker : WorkerId) : Option Inbox :=
  world.inboxes.find? fun inbox => inbox.worker == worker

/-- Puts something into the inbox of a worker, or takes it out. -/
def fill (world : World σ η) (worker : WorkerId) (content : Option ClaimedTask) : World σ η :=
  { world with inboxes := world.inboxes.map fun inbox =>
      if inbox.worker == worker then { inbox with content } else inbox }

/-- A worker has looked into its inbox. -/
def logTaken (world : World σ η) (worker : WorkerId) (task : Option ClaimedTask) : World σ η :=
  let entry : Taken := ⟨world.now, worker, task⟩
  { world with log := { world.log with taken := world.log.taken ++ [entry] } }

/-! ### What others do -/

/-- What others do. -/
inductive Event (η : Type) where
  /-- A worker is idle. Its inbox is made at its first offer. -/
  | offer (worker : WorkerId) (kind : InboxKind)
  /-- A worker looks into an inbox that it does not empty at once. -/
  | take (worker : WorkerId)
  | wake
  | dropWake
  | register (taskType : String) (handler : η)
  /-- No more workers will be offered. -/
  | close
  | shutdown

/-- An idle worker joins the others, as long as there is room. -/
def offer (world : World σ η) (worker : WorkerId) (kind : InboxKind) : World σ η :=
  let inboxes :=
    if (world.inbox? worker).isSome then world.inboxes
    else world.inboxes ++ [⟨worker, kind, none⟩]
  let offers :=
    if world.isOpen && decide (world.offers.length < world.capacity) then
      world.offers ++ [worker]
    else world.offers
  { world with inboxes, offers }

/-- What becomes of the world when something happens. -/
def happen (world : World σ η) : Event η → World σ η
  | .offer worker kind => world.offer worker kind
  | .take worker =>
    let content := (world.inbox? worker).bind Inbox.content
    (world.fill worker none).logTaken worker content
  | .wake => if world.wake.signals = 0 then world else { world with wake := world.wake.notify.2 }
  | .dropWake => { world with wake := world.wake.dropSignals }
  | .register taskType handler =>
    match world.registry.register taskType handler with
    | .ok registry => { world with registry }
    | .error _ => world
  | .close => { world with isOpen := false }
  | .shutdown => { world with shutdown := true }

/-! ### What the scanner does -/

/-- The scanner ends. -/
def stop (world : World σ η) : World σ η :=
  { world with phase := .stopped, log := { world.log with stoppedAt := some world.now } }

/-- The claim for a worker. A wake-up that was raised before is covered by it. -/
def claim (source : ClaimSource σ) (world : World σ η) (worker : WorkerId) : World σ η :=
  let types := world.registry.types
  let reply := source.claim world.source types worker world.lease
  let entry : ClaimCall := ⟨world.now, worker, types, world.lease⟩
  { world with
    source := reply.source
    wake := world.wake.take.2
    phase := .claiming worker reply.answer (world.now + reply.delay)
    log := { world.log with claims := world.log.claims ++ [entry] } }

/-- A claim was answered without an error: the failures before it no longer count. -/
def succeed (world : World σ η) (phase : Phase) : World σ η :=
  { world with phase, backoff := world.backoff.reset }

/-- A task that no handler can run is failed. -/
def failUnhandled (source : ClaimSource σ) (world : World σ η) (task : ClaimedTask) : World σ η :=
  let message := unhandledTypeMessage task.taskType
  let entry : FailCall := ⟨world.now, task.id, message⟩
  { world with
    source := source.failUnhandled world.source task message
    log := { world.log with failed := world.log.failed ++ [entry] } }

/-- What the answer to a claim leads to. -/
def react (source : ClaimSource σ) (world : World σ η) (worker : WorkerId) :
    Except TaskError Claim → World σ η
  | .ok (.claimed task) =>
    if world.registry.contains task.taskType then world.succeed (.delivering worker task)
    else (failUnhandled source world task).succeed (.scanning worker)
  | .ok .empty =>
    world.succeed (.parked worker (world.fallback.map fun d => world.now + d.timerMillis))
  | .ok .contended => world.succeed (.scanning worker)
  | .error _ =>
    let (delay, backoff) := world.backoff.next .double
    { world with phase := .backingOff worker (world.now + delay.timerMillis), backoff }

/-- A task goes into an inbox. There is no move while a held inbox is full, and a
closed one loses the task. -/
def deliver? (world : World σ η) (worker : WorkerId) (task : ClaimedTask) :
    Option (World σ η) :=
  match world.inbox? worker with
  | none => some { world with phase := .waiting }
  | some inbox =>
    match inbox.kind with
    | .closed => some { world with phase := .waiting }
    | .drained => some (({ world with phase := .waiting } : World σ η).logTaken worker (some task))
    | .held =>
      if inbox.content.isSome then none
      else some (({ world with phase := .waiting } : World σ η).fill worker (some task))

/-- What a scanner that waits goes on to when something that it waits for is there: an
idle worker, the end of a back-off, a wake-up or the end of the fallback timer. -/
def resume? (world : World σ η) : Option (World σ η) :=
  match world.phase with
  | .waiting =>
    match world.offers with
    | worker :: rest => some { world with offers := rest, phase := .scanning worker }
    | [] => none
  | .backingOff worker due =>
    if due ≤ world.now then some { world with phase := .scanning worker } else none
  | .parked worker due =>
    if world.wake.pending then
      some { world with wake := world.wake.take.2, phase := .scanning worker }
    else if due.any fun due => decide (due ≤ world.now) then
      some { world with phase := .scanning worker }
    else none
  | .scanning _ | .claiming _ _ _ | .delivering _ _ | .stopped => none

/-- The move of a scanner that waits. A shutdown ends it, and so it does when nothing that
it waits for can come any more. When a shutdown and something else are there together it
may take either: it overlooks the shutdown, or it does not. -/
def wait? (world : World σ η) (ended overlooks : Bool) : Option (World σ η) :=
  match world.resume? with
  | some next => some (if world.shutdown && !overlooks then world.stop else next)
  | none => if world.shutdown || ended then some world.stop else none

/-- The next move of the scanner at this time. A shutdown is seen only where the scanner
waits, and may be overlooked there for something else. -/
def move? (source : ClaimSource σ) (world : World σ η) (overlooks : Bool := false) :
    Option (World σ η) :=
  match world.phase with
  | .waiting => world.wait? (!world.isOpen) overlooks
  | .scanning worker => some (claim source world worker)
  | .claiming worker answer due =>
    if due ≤ world.now then some (react source world worker answer) else none
  | .delivering worker task => world.deliver? worker task
  | .backingOff _ _ | .parked _ _ => world.wait? false overlooks
  | .stopped => none

/-- The time of the timer that the scanner waits for. -/
def nextTimer? (world : World σ η) : Option Nat :=
  match world.phase with
  | .claiming _ _ due | .backingOff _ due => some due
  | .parked _ due => due
  | .waiting | .scanning _ | .delivering _ _ | .stopped => none

end World
end Scanner
end LeaseQueue
