/-
The journal of a scanner: what happens to the tasks and to the idle workers, in order.

* `Scanner.Entry`: an idle worker is offered, a claim is made or answered, a task is handed over
  or failed, a shutdown comes or is overlooked;
* `World.heard`, `World.doing`: what an event and a move of the scanner add to the journal;
* `World.Moved`: what the scanner can do, with what is written down about it
  (`World.moved_of_move?`);
* `Simulation.journal`: the journal of a simulation, step by step;
* `Simulation.Goes`: a step is an event, a move or a jump;
* `Simulation.run_keeps`: what all of them keep holds at any time.
-/
import LeaseQueue.Scheduler.Simulation
import Mathlib.Tactic.Common

namespace LeaseQueue

namespace Scanner

/-- What a journal says. -/
inductive Entry where
  /-- An idle worker joins the others. -/
  | offered (worker : WorkerId)
  /-- A type gets its handler. -/
  | registered (taskType : String)
  /-- The scanner is told to end. -/
  | shutdown
  /-- A claim is made, and will be answered. -/
  | asked (call : ClaimCall) (answer : Except TaskError Claim)
  /-- The answer to the claim of a worker arrives. If it is a task, its type may have a handler. -/
  | answered (worker : WorkerId) (answer : Except TaskError Claim) (known : Bool)
  /-- A task is put into the inbox of a worker. -/
  | sent (worker : WorkerId) (task : ClaimedTask)
  /-- A task is lost, because the inbox of the worker is closed. -/
  | dropped (worker : WorkerId) (task : ClaimedTask)
  /-- A task that was claimed for a worker is failed, because no handler can run it. -/
  | failed (worker : WorkerId) (task : ClaimedTask) (message : String)
  /-- The scanner goes on where it waits, although it could see a shutdown there. -/
  | overlooked

/-- What holds of every entry and those before it, if one more entry comes. -/
lemma Entry.forall_concat {P : List Entry → Entry → Prop} {entries : List Entry} {last : Entry}
    (h : ∀ before entry after, entries = before ++ entry :: after → P before entry)
    (hlast : P entries last) :
    ∀ before entry after, entries ++ [last] = before ++ entry :: after → P before entry := by
  intro before entry after hsplit
  rcases List.eq_nil_or_concat after with rfl | ⟨init, final, rfl⟩
  · obtain ⟨rfl, hentry⟩ := List.append_inj' hsplit rfl
    cases hentry
    exact hlast
  · rw [List.concat_eq_append, ← List.cons_append, ← List.append_assoc] at hsplit
    exact h before entry init (List.append_inj' hsplit rfl).1

namespace World

variable {σ η : Type} {source : ClaimSource σ} {world next : World σ η} {worker : WorkerId}
  {task : ClaimedTask} {answer : Except TaskError Claim} {ended overlooks : Bool}

/-! ### What is written down -/

/-- What an event adds to the journal. -/
def heard (world : World σ η) : Event η → List Entry
  | .offer worker _ =>
    if world.isOpen && decide (world.offers.length < world.capacity) then [.offered worker] else []
  | .register taskType _ =>
    if world.registry.contains taskType then [] else [.registered taskType]
  | .shutdown => [.shutdown]
  | .take _ | .wake | .dropWake | .close => []

/-- A claim for a worker. -/
def asking (source : ClaimSource σ) (world : World σ η) (worker : WorkerId) : Entry :=
  let types := world.registry.types
  .asked ⟨world.now, worker, types, world.lease⟩
    (source.claim world.source types worker world.lease).answer

/-- The answer is a task whose type has a handler. -/
def knows (world : World σ η) : Except TaskError Claim → Bool
  | .ok (.claimed task) => world.registry.contains task.taskType
  | _ => false

/-- The end of a task that arrives for a worker and that no handler can run. -/
def refused (world : World σ η) (worker : WorkerId) : Except TaskError Claim → List Entry
  | .ok (.claimed task) =>
    if world.registry.contains task.taskType then []
    else [.failed worker task (unhandledTypeMessage task.taskType)]
  | _ => []

/-- A task is handed to a worker. -/
def handing (world : World σ η) (worker : WorkerId) (task : ClaimedTask) : List Entry :=
  match world.inbox? worker with
  | none => []
  | some inbox => if inbox.kind = .closed then [.dropped worker task] else [.sent worker task]

/-- A shutdown is overlooked for something else that is there as well. -/
def overlooking (world : World σ η) (overlooks : Bool) : List Entry :=
  if overlooks && world.shutdown && world.resume?.isSome then [.overlooked] else []

/-- What the next move of the scanner adds to the journal. -/
def doing (source : ClaimSource σ) (world : World σ η) (overlooks : Bool := false) :
    List Entry :=
  match world.phase with
  | .scanning worker => [world.asking source worker]
  | .claiming worker answer _ =>
    .answered worker answer (world.knows answer) :: world.refused worker answer
  | .delivering worker task => world.handing worker task
  | .waiting | .backingOff _ _ | .parked _ _ => world.overlooking overlooks
  | .stopped => []

/-! ### What the scanner can do -/

/-- A task goes into the inbox of its worker, or into the hands of a worker that empties its
inbox at once, or it is lost. -/
inductive Delivered (world : World σ η) (worker : WorkerId) (task : ClaimedTask) :
    List Entry → World σ η → Prop where
  | astray (h : world.inbox? worker = none) :
      Delivered world worker task [] { world with phase := .waiting }
  | closed {inbox : Inbox} (h : world.inbox? worker = some inbox) (hkind : inbox.kind = .closed) :
      Delivered world worker task [.dropped worker task] { world with phase := .waiting }
  | drained {inbox : Inbox} (h : world.inbox? worker = some inbox) (hkind : inbox.kind = .drained) :
      Delivered world worker task [.sent worker task]
        (({ world with phase := .waiting } : World σ η).logTaken worker (some task))
  | held {inbox : Inbox} (h : world.inbox? worker = some inbox) (hkind : inbox.kind = .held)
      (hempty : inbox.content = none) :
      Delivered world worker task [.sent worker task]
        (({ world with phase := .waiting } : World σ η).fill worker (some task))

/-- The scanner waits with an idle worker: the last claim has failed, or has found nothing. -/
def Rests (phase : Phase) (worker : WorkerId) : Prop :=
  (∃ due, phase = .backingOff worker due) ∨ ∃ due, phase = .parked worker due

/-- The scanner goes on where it waits: there is no shutdown, or it has overlooked it. -/
inductive Unheeding (world : World σ η) : List Entry → Prop where
  | calm (h : world.shutdown = false) : Unheeding world []
  | overlooked (h : world.shutdown = true) : Unheeding world [.overlooked]

lemma eq_overlooked_of_mem {entry : Entry} (h : entry ∈ world.overlooking overlooks) :
    entry = .overlooked ∧ overlooks = true := by
  rw [overlooking] at h
  split at h
  · rename_i hall
    simp only [Bool.and_eq_true] at hall
    exact ⟨List.mem_singleton.mp h, hall.1.1⟩
  · cases h

lemma Unheeding.eq_overlooked {more : List Entry} (h : world.Unheeding more) :
    ∀ entry ∈ more, entry = .overlooked := by
  cases h <;> simp

/-- A shutdown that is overlooked says nothing of tasks and workers. -/
lemma Unheeding.filterMap_eq_nil {more : List Entry} (h : world.Unheeding more) {α : Type}
    {f : Entry → Option α} (hf : f .overlooked = none) : more.filterMap f = [] :=
  List.filterMap_eq_nil_iff.mpr fun entry hentry => h.eq_overlooked entry hentry ▸ hf

/-- A task whose type has a handler is handed over, another one is failed, and without a task
the scanner goes on with its worker. -/
inductive Reacted (source : ClaimSource σ) (world : World σ η) (worker : WorkerId) :
    Except TaskError Claim → List Entry → World σ η → Prop where
  | known {task : ClaimedTask} (h : world.registry.contains task.taskType = true) :
      Reacted source world worker (.ok (.claimed task)) []
        (world.succeed (.delivering worker task))
  | unknown {task : ClaimedTask} (h : world.registry.contains task.taskType = false) :
      Reacted source world worker (.ok (.claimed task))
        [.failed worker task (unhandledTypeMessage task.taskType)]
        ((world.failUnhandled source task).succeed (.scanning worker))
  | without {answer : Except TaskError Claim} (hanswer : ∀ task, answer ≠ .ok (.claimed task))
      {phase : Phase} (backoff : Backoff Double)
      (hphase : phase = .scanning worker ∧ answer = .ok .contended ∨ Rests phase worker) :
      Reacted source world worker answer [] { world with phase, backoff }

/-- The scanner takes an idle worker, makes a claim for it, takes up the answer, hands a task
over, goes on to the next claim behind a wait, or ends. -/
inductive Moved (source : ClaimSource σ) (world : World σ η) : List Entry → World σ η → Prop where
  | take {worker : WorkerId} {rest : List WorkerId} {more : List Entry}
      (hphase : world.phase = .waiting) (hunheeding : world.Unheeding more)
      (hoffers : world.offers = worker :: rest) :
      Moved source world more { world with offers := rest, phase := .scanning worker }
  | claim {worker : WorkerId} (hphase : world.phase = .scanning worker) :
      Moved source world [world.asking source worker] (world.claim source worker)
  | react {worker : WorkerId} {answer : Except TaskError Claim} {due : Nat} {more : List Entry}
      {next : World σ η} (hphase : world.phase = .claiming worker answer due)
      (hreact : world.Reacted source worker answer more next) :
      Moved source world (.answered worker answer (world.knows answer) :: more) next
  | deliver {worker : WorkerId} {task : ClaimedTask} {more : List Entry} {next : World σ η}
      (hphase : world.phase = .delivering worker task)
      (hdeliver : world.Delivered worker task more next) : Moved source world more next
  | resume {worker : WorkerId} {more : List Entry} (wake : WakeChannel)
      (hphase : Rests world.phase worker) (hunheeding : world.Unheeding more) :
      Moved source world more { world with wake, phase := .scanning worker }
  | stop (hphase : world.phase = .waiting ∨ ∃ worker, Rests world.phase worker) :
      Moved source world [] world.stop

lemma delivered_of_deliver? (h : world.deliver? worker task = some next) :
    world.Delivered worker task (world.handing worker task) next := by
  rw [deliver?] at h
  rw [handing]
  cases hinbox : world.inbox? worker with
  | none =>
      simp only [hinbox] at h
      cases h
      exact .astray hinbox
  | some inbox =>
      simp only [hinbox] at h
      dsimp only
      cases hkind : inbox.kind with
      | closed =>
          simp only [hkind] at h
          cases h
          exact .closed hinbox hkind
      | drained =>
          simp only [hkind] at h
          cases h
          exact .drained hinbox hkind
      | held =>
          simp only [hkind] at h
          split at h <;> cases h
          rename_i hcontent
          exact .held hinbox hkind (by simpa using hcontent)

lemma reacted_react (source : ClaimSource σ) (world : World σ η) (worker : WorkerId)
    (answer : Except TaskError Claim) :
    world.Reacted source worker answer (world.refused worker answer)
      (world.react source worker answer) := by
  rcases answer with e | task | _ | _
  · exact .without (by simp) _ (.inr (.inl ⟨_, rfl⟩))
  · rw [react, refused]
    split <;> rename_i h
    · exact .known h
    · exact .unknown (by simpa using h)
  · exact .without (by simp) _ (.inr (.inr ⟨_, rfl⟩))
  · exact .without (by simp) _ (.inl ⟨rfl, rfl⟩)

/-- A scanner that waits ends, at a shutdown or for good, or it goes on. -/
lemma wait?_cases (h : world.wait? ended overlooks = some next) :
    next = world.stop ∧ world.overlooking overlooks = [] ∧
        (world.shutdown = true ∨ ended = true) ∨
      world.resume? = some next ∧ world.Unheeding (world.overlooking overlooks) := by
  rw [wait?] at h
  rw [overlooking]
  cases hresume : world.resume? with
  | none =>
      simp only [hresume] at h
      split at h <;> cases h
      rename_i hends
      exact .inl ⟨rfl, by simp, by simpa using hends⟩
  | some later =>
      simp only [hresume, Option.some.injEq] at h
      cases hshutdown : world.shutdown <;> cases overlooks <;> simp [hshutdown] at h <;> subst h
      · exact .inr ⟨rfl, by simpa using .calm hshutdown⟩
      · exact .inr ⟨rfl, by simpa using .calm hshutdown⟩
      · exact .inl ⟨rfl, by simp, .inl rfl⟩
      · exact .inr ⟨rfl, by simpa using .overlooked hshutdown⟩

lemma overlooks_of_unheeding (h : world.Unheeding (world.overlooking overlooks)) :
    world.shutdown = false ∨ overlooks = true := by
  generalize hmore : world.overlooking overlooks = more at h
  cases h with
  | calm hshutdown => exact .inl hshutdown
  | overlooked =>
      have hmem : .overlooked ∈ world.overlooking overlooks := by
        rw [hmore]
        exact List.mem_singleton_self _
      exact .inr (eq_overlooked_of_mem hmem).2

/-- A scanner that rests without a shutdown goes on as soon as there is something to go on to. -/
lemma move?_of_calm (hrests : Rests world.phase worker) (hcalm : world.shutdown = false) :
    world.move? source overlooks = world.resume? ∧ world.doing source overlooks = [] := by
  have hwait : world.wait? false overlooks = world.resume? := by
    rw [wait?]
    cases world.resume? <;> simp [hcalm]
  have hnone : world.overlooking overlooks = [] := by simp [overlooking, hcalm]
  rcases hrests with ⟨due, hphase⟩ | ⟨due, hphase⟩ <;>
    exact ⟨by simp only [move?, hphase, hwait], by simp only [doing, hphase, hnone]⟩

/-- A scanner that goes on takes an idle worker, or claims for the one that it has. -/
lemma resume?_cases (h : world.resume? = some next) :
    (∃ worker rest, world.phase = .waiting ∧ world.offers = worker :: rest ∧
        next = { world with offers := rest, phase := .scanning worker }) ∨
      ∃ worker wake, Rests world.phase worker ∧ (wake.signals = world.wake.signals ∧
          wake.hasReceiver = world.wake.hasReceiver) ∧
        next = { world with wake, phase := .scanning worker } := by
  rw [resume?] at h
  cases hphase : world.phase with
  | waiting =>
      simp only [hphase] at h
      split at h <;> cases h
      exact .inl ⟨_, _, rfl, ‹_›, rfl⟩
  | backingOff worker due =>
      simp only [hphase] at h
      split at h <;> cases h
      exact .inr ⟨worker, world.wake, .inl ⟨due, rfl⟩, ⟨rfl, rfl⟩, rfl⟩
  | parked worker due =>
      simp only [hphase] at h
      split_ifs at h <;> cases h
      · exact .inr ⟨worker, world.wake.take.2, .inr ⟨due, rfl⟩, ⟨rfl, rfl⟩, rfl⟩
      · exact .inr ⟨worker, world.wake, .inr ⟨due, rfl⟩, ⟨rfl, rfl⟩, rfl⟩
  | scanning | claiming | delivering | stopped =>
      simp only [hphase] at h
      cases h

/-- A scanner that waits on has nothing to go on to, and sees no shutdown. -/
lemma resume?_of_wait? (h : world.wait? ended overlooks = none) :
    world.resume? = none ∧ world.shutdown = false := by
  rw [wait?] at h
  cases hresume : world.resume? with
  | none => exact ⟨rfl, by simp_all⟩
  | some later => simp [hresume] at h

lemma moved_of_wait? (hphase : world.phase = .waiting ∨ ∃ worker, Rests world.phase worker)
    (h : world.wait? ended overlooks = some next) :
    world.Moved source (world.overlooking overlooks) next := by
  rcases wait?_cases h with ⟨rfl, hnone, -⟩ | ⟨hresume, hunheeding⟩
  · rw [hnone]
    exact .stop hphase
  · rcases resume?_cases hresume with
      ⟨worker, rest, hwaiting, hoffers, rfl⟩ | ⟨worker, wake, hrests, -, rfl⟩
    · exact .take hwaiting hunheeding hoffers
    · exact .resume wake hrests hunheeding

theorem moved_of_move? (h : world.move? source overlooks = some next) :
    world.Moved source (world.doing source overlooks) next := by
  rw [move?] at h
  rw [doing]
  cases hphase : world.phase with
  | waiting =>
      simp only [hphase] at h
      exact moved_of_wait? (.inl hphase) h
  | scanning worker =>
      simp only [hphase] at h
      cases h
      exact .claim hphase
  | claiming worker answer due =>
      simp only [hphase] at h
      split at h <;> cases h
      exact .react hphase (world.reacted_react source worker answer)
  | delivering worker task =>
      simp only [hphase] at h
      exact .deliver hphase (delivered_of_deliver? h)
  | backingOff worker due =>
      simp only [hphase] at h
      exact moved_of_wait? (.inr ⟨worker, .inl ⟨due, hphase⟩⟩) h
  | parked worker due =>
      simp only [hphase] at h
      exact moved_of_wait? (.inr ⟨worker, .inr ⟨due, hphase⟩⟩) h
  | stopped =>
      simp only [hphase] at h
      cases h

end World
end Scanner

/-! ### Simulations -/

open Scanner

namespace Simulation

variable {σ η : Type} {source : ClaimSource σ} {sim next : Simulation σ η}

/-- The event that is due. -/
def due? (sim : Simulation σ η) : Option (World.Event η) :=
  match sim.events with
  | [] => none
  | (time, event) :: _ => if time ≤ sim.world.now then some event else none

/-- What the next step adds to the journal. -/
def entries (source : ClaimSource σ) (sim : Simulation σ η) : List Entry :=
  match sim.due? with
  | some event => sim.world.heard event
  | none =>
    if (sim.world.move? source sim.overlooksNext).isSome then
      sim.world.doing source sim.overlooksNext
    else []

/-- The journal of a number of steps, or of fewer when there are no more. -/
def journal (source : ClaimSource σ) : (steps : Nat) → Simulation σ η → List Entry
  | 0, _ => []
  | steps + 1, sim =>
    match sim.step? source with
    | some next => sim.entries source ++ journal source steps next
    | none => []

/-- The event that is due happens, or the scanner moves when no event is due, or time jumps when
it does not move either. -/
inductive Goes (source : ClaimSource σ) (sim : Simulation σ η) :
    List Entry → Simulation σ η → Prop where
  | event {event : World.Event η} {rest : List (Nat × World.Event η)}
      (hdue : sim.due? = some event) :
      Goes source sim (sim.world.heard event)
        { sim with world := sim.world.happen event, events := rest }
  | move {more : List Entry} {world : World σ η} (hdue : sim.due? = none)
      (hmove : sim.world.Moved source more world) : Goes source sim more (sim.moved world)
  | jump (hdue : sim.due? = none) (hmove : sim.world.move? source sim.overlooksNext = none) :
      Goes source sim [] sim.jump

lemma event?_cases (sim : Simulation σ η) :
    (sim.due? = none ∧ sim.event? = none) ∨
      ∃ event rest, sim.due? = some event ∧
        sim.event? = some { sim with world := sim.world.happen event, events := rest } := by
  cases hevents : sim.events with
  | nil => exact .inl ⟨by simp only [due?, hevents], by simp only [event?, hevents]⟩
  | cons first rest =>
      by_cases htime : first.1 ≤ sim.world.now
      · exact .inr ⟨first.2, rest, by simp only [due?, hevents, if_pos htime],
          by simp only [event?, hevents, if_pos htime]⟩
      · exact .inl ⟨by simp only [due?, hevents, if_neg htime],
          by simp only [event?, hevents, if_neg htime]⟩

theorem goes_of_step? (h : sim.step? source = some next) :
    Goes source sim (sim.entries source) next := by
  rw [step?] at h
  rw [entries]
  rcases sim.event?_cases with ⟨hdue, hevent⟩ | ⟨event, rest, hdue, hevent⟩
  · rw [hdue]
    simp only [hevent] at h
    split at h
    · cases h
    · cases hmove : sim.world.move? source sim.overlooksNext with
      | none =>
          simp only [hmove] at h
          cases h
          exact .jump hdue hmove
      | some world =>
          simp only [hmove] at h
          cases h
          exact .move hdue (World.moved_of_move? hmove)
  · rw [hdue]
    simp only [hevent] at h
    cases h
    exact .event hdue

/-- What every step keeps of the journal and the simulation holds at any time. -/
theorem run_keeps (Keeps : List Entry → Simulation σ η → Prop)
    (step : ∀ {before more : List Entry} {sim next : Simulation σ η}, Keeps before sim →
      Goes source sim more next → Keeps (before ++ more) next)
    {before : List Entry} (h : Keeps before sim) (n : Nat) :
    Keeps (before ++ sim.journal source n) (sim.run source n) := by
  induction n generalizing before sim with
  | zero => simpa only [journal, run, List.append_nil] using h
  | succ n ih =>
      rw [journal, run]
      cases hstep : sim.step? source with
      | none => simpa only [List.append_nil] using h
      | some next =>
          dsimp only
          rw [← List.append_assoc]
          exact ih (step h (goes_of_step? hstep))

end Simulation
end LeaseQueue
