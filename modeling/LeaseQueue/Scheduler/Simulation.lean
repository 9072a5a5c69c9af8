/-
The scanner in virtual time: time stands still while something can happen, and
jumps to the next event or timer when everything waits.

* `Simulation`: a world, the events still to come and the time at which to look;
* `Simulation.step?`: one event, one move of the scanner or one jump;
* `Simulation.run`: steps until nothing can happen before the end;
* `ScannerScript`: a simulation whose claims are answered by a script.

Of an event and a move at the same time the event comes first. Where the scanner may take
a shutdown or something else, the simulation says which.
-/
import LeaseQueue.Scheduler.Scanner

namespace LeaseQueue

open Scanner

/-- A world and what is still to happen in it. -/
structure Simulation (σ η : Type) where
  world : World σ η
  events : List (Nat × World.Event η)
  endsAt : Nat
  /-- For each move still to come, whether it overlooks a shutdown for something else that
  is there as well. Behind the end of the list none does. -/
  overlooks : List Bool := []

namespace Simulation

variable {σ η : Type}

/-- The time of the next event, the next timer or the end, whichever comes first. -/
def nextTime (sim : Simulation σ η) : Nat :=
  let event := sim.events.head?.map Prod.fst
  [event, sim.world.nextTimer?].foldl (fun first time => min first (time.getD first)) sim.endsAt

/-- Time jumps. -/
def jump (sim : Simulation σ η) : Simulation σ η :=
  { sim with world := { sim.world with now := sim.nextTime } }

/-- The event that is due, and the simulation behind it. -/
def event? (sim : Simulation σ η) : Option (Simulation σ η) :=
  match sim.events with
  | [] => none
  | (time, event) :: rest =>
    if time ≤ sim.world.now then some { sim with world := sim.world.happen event, events := rest }
    else none

/-- The next move overlooks a shutdown. -/
def overlooksNext (sim : Simulation σ η) : Bool := sim.overlooks.headD false

/-- The scanner has moved. -/
def moved (sim : Simulation σ η) (world : World σ η) : Simulation σ η :=
  { sim with world, overlooks := sim.overlooks.tail }

@[simp] theorem moved_world (sim : Simulation σ η) (world : World σ η) :
    (sim.moved world).world = world := rfl

/-- One step: the event that is due, else a move of the scanner, else a jump. At the
end only events happen. -/
def step? (source : ClaimSource σ) (sim : Simulation σ η) : Option (Simulation σ η) :=
  match sim.event? with
  | some next => some next
  | none =>
    if sim.endsAt ≤ sim.world.now then none
    else
      match sim.world.move? source sim.overlooksNext with
      | some world => some (sim.moved world)
      | none => some sim.jump

/-- A number of steps, or fewer when there are no more. -/
def run (source : ClaimSource σ) : (steps : Nat) → Simulation σ η → Simulation σ η
  | 0, sim => sim
  | steps + 1, sim =>
    match sim.step? source with
    | some next => run source steps next
    | none => sim

end Simulation

/-! ### Scripts -/

/-- The answer to a claim, and the milliseconds that it takes. The task that it gives
goes to the worker that asks. -/
structure ScriptedClaim where
  delay : Nat
  answer : Except TaskError Claim

/-- A claim of a worker. -/
def ScriptedClaim.answerTo (worker : WorkerId) (claim : ScriptedClaim) : Except TaskError Claim :=
  match claim.answer with
  | .ok (.claimed task) => .ok (.claimed { task with worker })
  | answer => answer

/-- The source that answers from a script, and has nothing to claim behind its end. -/
def scriptedSource : ClaimSource (List ScriptedClaim) where
  claim script _ worker _ :=
    match script with
    | [] => ⟨0, .ok .empty, []⟩
    | first :: rest => ⟨first.delay, first.answerTo worker, rest⟩
  failUnhandled script _ _ := script

/-- A script for a scanner. -/
structure ScannerScript where
  types : List String
  lease : Duration
  fallback : Option Duration
  backoff : BackoffPolicy Double
  claims : List ScriptedClaim
  events : List (Nat × World.Event Unit)
  endsAt : Nat
  overlooks : List Bool := []

namespace ScannerScript

/-- The number of idle workers that can be announced at a time. -/
def capacity : Nat := 16

/-- The registry of the types of a script. -/
def registry (script : ScannerScript) : Registry Unit :=
  (Registry.empty.registerAll (script.types.map fun taskType => (taskType, ()))).2

/-- The world in which a script begins. -/
def world (script : ScannerScript) : World (List ScriptedClaim) Unit where
  source := script.claims
  registry := script.registry
  lease := script.lease
  fallback := script.fallback
  backoff := .ofPolicy script.backoff
  capacity := capacity

/-- The beginning of a script. -/
def start (script : ScannerScript) : Simulation (List ScriptedClaim) Unit where
  world := script.world
  events := script.events
  endsAt := script.endsAt
  overlooks := script.overlooks

/-- A bound on the steps of a script: a claim is one of the script, or the answer to
an event, or a millisecond has passed since the one before. -/
def steps (script : ScannerScript) : Nat :=
  8 * (script.claims.length + script.events.length + script.endsAt + 4)

/-- What has happened at the end of a script. -/
def log (script : ScannerScript) : Log :=
  (script.start.run scriptedSource script.steps).world.log

end ScannerScript
end LeaseQueue
