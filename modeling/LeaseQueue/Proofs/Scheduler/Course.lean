/-
The course of a simulation: what its steps do to the time, and to what wakes a scanner up.

* `World.raises`, `World.Turn`: the events that raise a wake-up, and the moves that make a claim
  or take up the answer to one;
* `Simulation.Passes`: what a step does, and when it is taken; `passes_keep`: what all steps keep;
* `Simulation.run_add`, `Simulation.journal_add`: a run that goes on;
* `Simulation.wakeUps`: the times at which wake-ups are still to be raised;
* `Simulation.lt_nextTime`: a jump leads forward, but not beyond the next event or timer.
-/
import LeaseQueue.Proofs.Scheduler.Shutdown

namespace LeaseQueue

deriving instance DecidableEq for Scanner.ClaimCall, Scanner.Entry

namespace Scanner.World

variable {σ η : Type} {source : ClaimSource σ} {world next : World σ η} {overlooks : Bool}

/-! ### Events -/

/-- The event raises a wake-up. Without a signal there is nobody to raise one. -/
def raises (world : World σ η) : Event η → Bool
  | .wake => decide (world.wake.signals ≠ 0)
  | .offer .. | .take _ | .dropWake | .register .. | .close | .shutdown => false

/-- What lasts from the start of a scanner on. -/
structure Lasts (world next : World σ η) : Prop where
  fallback : next.fallback = world.fallback
  policy : next.backoff.policy = world.backoff.policy
  receiver : next.wake.hasReceiver = world.wake.hasReceiver

lemma Lasts.trans {first second third : World σ η} (h : first.Lasts second)
    (h' : second.Lasts third) : first.Lasts third :=
  ⟨h'.fallback.trans h.fallback, h'.policy.trans h.policy, h'.receiver.trans h.receiver⟩

/-- Events leave the time and the count of the failures alone. -/
lemma lasts_happen (world : World σ η) (event : Event η) :
    world.Lasts (world.happen event) ∧ (world.happen event).now = world.now ∧
      (world.happen event).backoff = world.backoff := by
  cases event with
  | offer | take | dropWake | close | shutdown => exact ⟨⟨rfl, rfl, rfl⟩, rfl, rfl⟩
  | wake =>
      rw [happen]
      split
      · exact ⟨⟨rfl, rfl, rfl⟩, rfl, rfl⟩
      · refine ⟨⟨rfl, rfl, ?_⟩, rfl, rfl⟩
        simp only [WakeChannel.notify]
        split <;> rfl
  | register taskType handler =>
      rw [happen]
      split <;> exact ⟨⟨rfl, rfl, rfl⟩, rfl, rfl⟩

/-- A wake-up is pending if one was, or if the event raises one. -/
lemma pending_happen (h : world.wake.hasReceiver = true) (event : Event η) :
    (world.happen event).wake.pending = (world.wake.pending || world.raises event) := by
  cases event with
  | offer | take | dropWake | close | shutdown => simp [happen, raises, logTaken, fill, offer,
      WakeChannel.dropSignals]
  | wake =>
      by_cases hs : world.wake.signals = 0
      · simp [happen, raises, hs]
      · simp [happen, raises, hs, WakeChannel.pending_notify h]
  | register taskType handler =>
      rw [happen]
      split <;> simp [raises]

/-- Only a shutdown shuts a scanner down. -/
lemma shutdown_happen_of_ne {event : Event η} (h : event ≠ .shutdown) :
    (world.happen event).shutdown = world.shutdown := by
  cases event with
  | offer | take | dropWake | close => rfl
  | wake =>
      rw [happen]
      split <;> rfl
  | register taskType handler =>
      rw [happen]
      split <;> rfl
  | shutdown => exact absurd rfl h

/-- Events neither make claims nor answer them. -/
lemma silent_heard (world : World σ η) (event : Event η) :
    ∀ entry ∈ world.heard event, entry.call? = none ∧ entry.answer? = none := by
  intro entry hentry
  cases event with
  | offer | register =>
      simp only [heard] at hentry
      split at hentry <;> simp_all [Entry.call?, Entry.answer?]
  | shutdown => simp_all [heard, Entry.call?, Entry.answer?]
  | take | wake | dropWake | close => cases hentry

/-! ### Moves -/

/-- A move that neither makes a claim nor takes up the answer to one. -/
structure MovesOn (world next : World σ η) : Prop where
  lasts : world.Lasts next
  now : next.now = world.now
  backoff : next.backoff = world.backoff
  signals : next.wake.signals = world.wake.signals
  source : next.source = world.source
  failed : next.log.failed = world.log.failed
  phase : ∀ worker answer due, next.phase ≠ .claiming worker answer due

/-- The scanner makes a claim, takes up the answer to one, or does something else. -/
inductive Turn (source : ClaimSource σ) (world : World σ η) : List Entry → World σ η → Prop where
  | claim {worker : WorkerId} (hphase : world.phase = .scanning worker) :
      Turn source world [world.asking source worker] (world.claim source worker)
  | react {worker : WorkerId} {answer : Except TaskError Claim} {due : Nat}
      (hphase : world.phase = .claiming worker answer due) (hdue : due ≤ world.now) :
      Turn source world
        (.answered worker answer (world.knows answer) :: world.refused worker answer)
        (world.react source worker answer)
  | other {more : List Entry} {next : World σ η} (on : world.MovesOn next)
      (silent : ∀ entry ∈ more, entry.call? = none ∧ entry.answer? = none) :
      Turn source world more next

lemma silent_handing (world : World σ η) (worker : WorkerId) (task : ClaimedTask) :
    ∀ entry ∈ world.handing worker task, entry.call? = none ∧ entry.answer? = none := by
  intro entry hentry
  rw [handing] at hentry
  split at hentry
  · cases hentry
  · split at hentry <;> rw [List.mem_singleton.mp hentry] <;> exact ⟨rfl, rfl⟩

lemma movesOn_deliver {worker : WorkerId} {task : ClaimedTask}
    (h : world.deliver? worker task = some next) : world.MovesOn next := by
  have hdelivered := delivered_of_deliver? h
  generalize world.handing worker task = more at hdelivered
  cases hdelivered with
  | astray | closed | drained | held =>
      exact ⟨⟨rfl, rfl, rfl⟩, rfl, rfl, rfl, rfl, rfl, fun _ _ _ h => (by cases h)⟩

/-- A scanner that waits makes no claim before its next move. -/
lemma turn_of_wait? {ended : Bool} (h : world.wait? ended overlooks = some next) :
    world.Turn source (world.overlooking overlooks) next := by
  have on : world.MovesOn next := by
    rcases wait?_cases h with ⟨rfl, -, -⟩ | ⟨hresume, -⟩
    · exact ⟨⟨rfl, rfl, rfl⟩, rfl, rfl, rfl, rfl, rfl, fun _ _ _ h => (by cases h)⟩
    · rcases resume?_cases hresume with ⟨_, _, -, -, rfl⟩ | ⟨_, wake, -, hwake, rfl⟩
      · exact ⟨⟨rfl, rfl, rfl⟩, rfl, rfl, rfl, rfl, rfl, fun _ _ _ h => (by cases h)⟩
      · exact ⟨⟨rfl, rfl, hwake.2⟩, rfl, rfl, hwake.1, rfl, rfl, fun _ _ _ h => (by cases h)⟩
  refine .other on fun entry hentry => ?_
  rw [(eq_overlooked_of_mem hentry).1]
  exact ⟨rfl, rfl⟩

theorem turn_of_move? (h : world.move? source overlooks = some next) :
    world.Turn source (world.doing source overlooks) next := by
  rw [move?] at h
  rw [doing]
  cases hphase : world.phase with
  | scanning worker =>
      simp only [hphase] at h
      cases h
      exact .claim hphase
  | claiming worker answer due =>
      simp only [hphase] at h
      split at h <;> cases h
      exact .react hphase ‹_›
  | delivering worker task =>
      simp only [hphase] at h
      exact .other (movesOn_deliver h) (world.silent_handing worker task)
  | waiting | backingOff | parked =>
      simp only [hphase] at h
      exact turn_of_wait? h
  | stopped =>
      simp only [hphase] at h
      cases h

/-- An answer that is taken up is no longer under way. -/
lemma phase_react (world : World σ η) {worker other : WorkerId}
    (answer : Except TaskError Claim) {later : Except TaskError Claim} {due : Nat} :
    (world.react source worker answer).phase ≠ .claiming other later due := by
  intro hphase
  rcases answer with e | task | _ | _
  · cases hphase
  · simp only [react] at hphase
    split at hphase <;> cases hphase
  · cases hphase
  · cases hphase

/-- A move takes no time, and drops no signal. -/
lemma lasts_of_move? (h : world.move? source overlooks = some next) :
    world.Lasts next ∧ next.now = world.now ∧ next.wake.signals = world.wake.signals := by
  have hturn := turn_of_move? h
  generalize world.doing source overlooks = more at hturn
  cases hturn with
  | claim => exact ⟨⟨rfl, rfl, rfl⟩, rfl, rfl⟩
  | @react worker answer =>
      rcases answer with e | task | _ | _
      · exact ⟨⟨rfl, rfl, rfl⟩, rfl, rfl⟩
      · rw [react]
        split <;> exact ⟨⟨rfl, rfl, rfl⟩, rfl, rfl⟩
      · exact ⟨⟨rfl, rfl, rfl⟩, rfl, rfl⟩
      · exact ⟨⟨rfl, rfl, rfl⟩, rfl, rfl⟩
  | other on => exact ⟨on.lasts, on.now, on.signals⟩

/-- A scanner that does not move waits for no timer that has run out. -/
lemma lt_timer_of_move? (h : world.move? source overlooks = none) :
    ∀ time ∈ world.nextTimer?, world.now < time := by
  intro time htime
  rw [move?] at h
  rw [nextTimer?] at htime
  cases hphase : world.phase with
  | claiming =>
      simp only [hphase, Option.mem_def, Option.some.injEq] at h htime
      subst htime
      split_ifs at h with hdue
      exact Nat.lt_of_not_le hdue
  | backingOff | parked =>
      simp only [hphase, Option.mem_def, Option.some.injEq] at h htime
      subst htime
      have hresume := (resume?_of_wait? h).1
      simp only [resume?, hphase] at hresume
      split_ifs at hresume
      simp_all
  | waiting | scanning | delivering | stopped =>
      simp only [hphase] at htime
      cases htime

end Scanner.World

/-! ### Simulations -/

open Scanner

namespace Simulation

variable {σ η : Type} {source : ClaimSource σ} {sim next : Simulation σ η}
  {more : List Entry} {worker : WorkerId} {time : Nat} {time? : Option Nat}

/-- The event that is due happens; or the scanner moves, or time jumps, when no event is due and
the end has not come. -/
inductive Passes (source : ClaimSource σ) (sim : Simulation σ η) :
    List Entry → Simulation σ η → Prop where
  | event {time : Nat} {event : World.Event η} {rest : List (Nat × World.Event η)}
      (hevents : sim.events = (time, event) :: rest) (hdue : time ≤ sim.world.now) :
      Passes source sim (sim.world.heard event)
        { sim with world := sim.world.happen event, events := rest }
  | move {world : World σ η} (hdue : sim.due? = none) (hend : sim.world.now < sim.endsAt)
      (hmove : sim.world.move? source sim.overlooksNext = some world) :
      Passes source sim (sim.world.doing source sim.overlooksNext) (sim.moved world)
  | jump (hdue : sim.due? = none) (hend : sim.world.now < sim.endsAt)
      (hmove : sim.world.move? source sim.overlooksNext = none) : Passes source sim [] sim.jump

/-- No event is due exactly if the next one comes later. -/
lemma due?_eq_none_iff : sim.due? = none ↔ ∀ first ∈ sim.events.head?, sim.world.now < first.1 := by
  cases hevents : sim.events with
  | nil => simp [due?, hevents]
  | cons first rest => simp [due?, hevents]

lemma event?_of_due {event : World.Event η} {rest : List (Nat × World.Event η)}
    (hevents : sim.events = (time, event) :: rest) (hdue : time ≤ sim.world.now) :
    sim.due? = some event ∧
      sim.event? = some { sim with world := sim.world.happen event, events := rest } :=
  ⟨by simp only [due?, hevents, if_pos hdue], by simp only [event?, hevents, if_pos hdue]⟩

lemma event?_of_not_due (hdue : sim.due? = none) : sim.event? = none := by
  rcases sim.event?_cases with ⟨-, hevent⟩ | ⟨event, rest, hsome, -⟩
  · exact hevent
  · rw [hdue] at hsome
    cases hsome

theorem passes_of_step? (h : sim.step? source = some next) :
    sim.Passes source (sim.entries source) next := by
  cases hdue : sim.due? with
  | none =>
      simp only [step?, event?_of_not_due hdue] at h
      simp only [entries, hdue]
      split_ifs at h with hend
      have hend : sim.world.now < sim.endsAt := Nat.lt_of_not_le hend
      cases hmove : sim.world.move? source sim.overlooksNext with
      | none =>
          simp only [hmove] at h
          cases h
          exact .jump hdue hend hmove
      | some world =>
          simp only [hmove] at h
          cases h
          exact .move hdue hend hmove
  | some event =>
      cases hevents : sim.events with
      | nil => simp [due?, hevents] at hdue
      | cons first rest =>
          by_cases htime : first.1 ≤ sim.world.now
          · obtain ⟨hdue', hevent⟩ := event?_of_due hevents htime
            simp only [step?, hevent] at h
            cases h
            simp only [entries, hdue']
            exact .event hevents htime
          · simp [due?, hevents, htime] at hdue

lemma Passes.lasts (h : sim.Passes source more next) : sim.world.Lasts next.world := by
  cases h with
  | event => exact (sim.world.lasts_happen _).1
  | move _ _ hmove => exact (World.lasts_of_move? hmove).1
  | jump => exact ⟨rfl, rfl, rfl⟩

/-- What every step keeps of the journal and the simulation holds at any time. -/
theorem passes_keep (Keeps : List Entry → Simulation σ η → Prop)
    (step : ∀ {before more : List Entry} {sim next : Simulation σ η}, Keeps before sim →
      sim.Passes source more next → Keeps (before ++ more) next)
    (before : List Entry) (h : Keeps before sim) (n : Nat) :
    Keeps (before ++ sim.journal source n) (sim.run source n) := by
  induction n generalizing before sim with
  | zero => simpa only [journal, run, List.append_nil] using h
  | succ n ih =>
      rw [journal, run]
      cases hstep : sim.step? source with
      | none => simpa only [List.append_nil] using h
      | some next =>
          dsimp only
          rw [← List.append_assoc]
          exact ih _ (step h (passes_of_step? hstep))

lemma lasts_run (source : ClaimSource σ) (n : Nat) : sim.world.Lasts (sim.run source n).world :=
  passes_keep (fun _ later => sim.world.Lasts later.world)
    (fun h hpasses => h.trans hpasses.lasts) [] ⟨rfl, rfl, rfl⟩ n

/-- There are no more steps only at the end. -/
lemma ended_of_step? (h : sim.step? source = none) : sim.endsAt ≤ sim.world.now := by
  rw [step?] at h
  split at h
  · cases h
  · split_ifs at h with hend
    · exact hend
    · split at h <;> cases h

lemma run_of_ended (h : sim.step? source = none) (n : Nat) :
    sim.run source n = sim ∧ sim.journal source n = [] := by
  cases n with
  | zero => exact ⟨rfl, rfl⟩
  | succ n => simp only [run, journal, h, and_self]

/-- A run goes on from where it is. -/
theorem run_add (m n : Nat) : sim.run source (m + n) = (sim.run source m).run source n := by
  induction m generalizing sim with
  | zero => rw [Nat.zero_add, run]
  | succ m ih =>
      rw [Nat.add_right_comm, run, run]
      cases hstep : sim.step? source with
      | none => exact (run_of_ended hstep n).1.symm
      | some next => exact ih

/-- And so does its journal. -/
theorem journal_add (m n : Nat) :
    sim.journal source (m + n) = sim.journal source m ++ (sim.run source m).journal source n := by
  induction m generalizing sim with
  | zero => rw [Nat.zero_add, journal, run, List.nil_append]
  | succ m ih =>
      rw [Nat.add_right_comm, journal, journal, run]
      cases hstep : sim.step? source with
      | none => exact (run_of_ended hstep n).2.symm
      | some next =>
          dsimp only
          rw [ih, List.append_assoc]

/-- What the next step adds to a journal is one step's doing. -/
lemma passes_of_journal {n : Nat} {entry : Entry}
    (h : sim.journal source (n + 1) = sim.journal source n ++ [entry]) :
    (sim.run source n).Passes source [entry] (sim.run source (n + 1)) := by
  have hone : (sim.run source n).journal source 1 = [entry] :=
    List.append_cancel_left ((journal_add n 1).symm.trans h)
  rw [run_add]
  simp only [journal, run] at hone ⊢
  cases hstep : (sim.run source n).step? source with
  | none =>
      rw [hstep] at hone
      cases hone
  | some next =>
      simp only [hstep, List.append_nil] at hone ⊢
      rw [← hone]
      exact passes_of_step? hstep

/-- When an answer arrives, the scanner takes it up. -/
lemma Passes.answered {answer : Except TaskError Claim} {known : Bool}
    (h : sim.Passes source more next) (hmem : .answered worker answer known ∈ more) :
    sim.due? = none ∧ (∃ due, sim.world.phase = .claiming worker answer due) ∧
      next = sim.moved (sim.world.react source worker answer) := by
  cases h with
  | event => cases (World.silent_heard _ _ _ hmem).2
  | jump => cases hmem
  | move hdue _ hmove =>
      have hturn := World.turn_of_move? hmove
      generalize sim.world.doing source sim.overlooksNext = more at hturn hmem
      cases hturn with
      | claim => cases List.mem_singleton.mp hmem
      | other _ silent => cases (silent _ hmem).2
      | @react worker' answer' due hphase =>
          rcases List.mem_cons.mp hmem with hsame | hmem
          · cases hsame
            exact ⟨hdue, ⟨due, hphase⟩, rfl⟩
          · exfalso
            rcases answer' with e | task | _ | _
            · cases hmem
            · simp only [World.refused] at hmem
              split at hmem <;> simp at hmem
            · cases hmem
            · cases hmem

/-- When a claim starts, the scanner makes it. -/
lemma Passes.asked {call : ClaimCall} {answer : Except TaskError Claim}
    (h : sim.Passes source more next) (hmem : .asked call answer ∈ more) :
    next.world = sim.world.claim source call.worker := by
  cases h with
  | event => cases (World.silent_heard _ _ _ hmem).1
  | jump => cases hmem
  | move _ _ hmove =>
      have hturn := World.turn_of_move? hmove
      generalize sim.world.doing source sim.overlooksNext = more at hturn hmem
      cases hturn with
      | claim =>
          cases List.mem_singleton.mp hmem
          rfl
      | other _ silent => cases (silent _ hmem).1
      | @react worker' answer' due hphase =>
          exfalso
          rcases answer' with e | task | _ | _ <;> simp [World.refused] at hmem

/-! ### Wake-ups that are still to come -/

/-- The times at which events raise wake-ups, from a time on. An event that comes late happens as
soon as those before it, and once the signals are dropped there are no more wake-ups. -/
def wakeTimes (now : Nat) : List (Nat × World.Event η) → List Nat
  | [] => []
  | (time, event) :: rest =>
    match event with
    | .wake => max now time :: wakeTimes (max now time) rest
    | .dropWake => []
    | .offer .. | .take _ | .register .. | .close | .shutdown => wakeTimes (max now time) rest

/-- The times at which wake-ups are still to be raised, in ascending order. -/
def wakeUps (sim : Simulation σ η) : List Nat :=
  if sim.world.wake.signals = 0 then [] else wakeTimes sim.world.now sim.events

lemma le_of_mem_wakeTimes {now wakeUp : Nat} {events : List (Nat × World.Event η)}
    (h : wakeUp ∈ wakeTimes now events) : now ≤ wakeUp := by
  induction events generalizing now with
  | nil => cases h
  | cons first rest ih =>
      have hrest (h : wakeUp ∈ wakeTimes (max now first.1) rest) : now ≤ wakeUp :=
        (le_max_left _ _).trans (ih h)
      cases hevent : first.2 with
      | wake =>
          simp only [wakeTimes, hevent, List.mem_cons] at h
          rcases h with rfl | h
          · exact le_max_left _ _
          · exact hrest h
      | dropWake => simp [wakeTimes, hevent] at h
      | offer | take | register | close | shutdown =>
          simp only [wakeTimes, hevent] at h
          exact hrest h

/-- Time may pass until the first event. -/
lemma wakeTimes_later {now later : Nat} {events : List (Nat × World.Event η)} (hle : now ≤ later)
    (hfirst : ∀ first ∈ events.head?, later ≤ first.1) :
    wakeTimes later events = wakeTimes now events := by
  cases events with
  | nil => rfl
  | cons first rest =>
      have hlater : later ≤ first.1 := hfirst first rfl
      simp only [wakeTimes, max_eq_right hlater, max_eq_right (hle.trans hlater)]

lemma le_of_mem_wakeUps (h : time ∈ sim.wakeUps) : sim.world.now ≤ time := by
  rw [wakeUps] at h
  split at h
  · cases h
  · exact le_of_mem_wakeTimes h

/-- When no event is due, the wake-ups that are still to come are yet to come. -/
lemma lt_of_mem_wakeUps (hdue : sim.due? = none) (h : time ∈ sim.wakeUps) :
    sim.world.now < time := by
  rw [wakeUps] at h
  split at h
  · cases h
  · rw [← wakeTimes_later (Nat.le_succ _) (due?_eq_none_iff.mp hdue)] at h
    exact le_of_mem_wakeTimes h

/-- An event that happens raises the wake-up that was to come, if it raises one. -/
lemma wakeUps_event {event : World.Event η} {rest : List (Nat × World.Event η)}
    (hevents : sim.events = (time, event) :: rest) (hdue : time ≤ sim.world.now) :
    sim.wakeUps = (if sim.world.raises event then [sim.world.now] else []) ++
      ({ sim with world := sim.world.happen event, events := rest } : Simulation σ η).wakeUps := by
  have hnow : max sim.world.now time = sim.world.now := max_eq_left hdue
  simp only [wakeUps, hevents]
  cases event with
  | wake =>
      by_cases hs : sim.world.wake.signals = 0
      · simp [World.raises, World.happen, hs]
      · have hsignals : sim.world.wake.notify.2.signals = sim.world.wake.signals := by
          rw [WakeChannel.notify]
          split <;> rfl
        simp [World.raises, World.happen, hs, hsignals, wakeTimes, hnow]
  | dropWake => simp [World.raises, World.happen, WakeChannel.dropSignals, wakeTimes]
  | register taskType handler =>
      have hwake : (sim.world.happen (.register taskType handler)).wake = sim.world.wake := by
        rw [World.happen]
        split <;> rfl
      have hstill := (sim.world.lasts_happen (.register taskType handler)).2.1
      simp only [hwake, hstill, wakeTimes, hnow, World.raises]
      rfl
  | offer | take | close | shutdown => simp only [wakeTimes, hnow]; rfl

/-- A move raises none. -/
lemma wakeUps_move {world : World σ η}
    (hmove : sim.world.move? source sim.overlooksNext = some world) :
    (sim.moved world).wakeUps = sim.wakeUps := by
  obtain ⟨-, hnow, hsignals⟩ := World.lasts_of_move? hmove
  simp only [wakeUps, moved, hnow, hsignals]

/-! ### Jumps -/

/-- A jump leads at most to the next event, the next timer and the end. -/
lemma nextTime_le (sim : Simulation σ η) :
    sim.nextTime ≤ sim.endsAt ∧ (∀ first ∈ sim.events.head?, sim.nextTime ≤ first.1) ∧
      ∀ time ∈ sim.world.nextTimer?, sim.nextTime ≤ time := by
  simp only [nextTime, List.foldl_cons, List.foldl_nil]
  cases sim.events.head? <;> cases sim.world.nextTimer? <;> simp

/-- And it leads forward. -/
lemma lt_nextTime (hdue : sim.due? = none) (hend : sim.world.now < sim.endsAt)
    (hmove : sim.world.move? source sim.overlooksNext = none) :
    sim.world.now < sim.nextTime := by
  have hevent := due?_eq_none_iff.mp hdue
  have htimer := World.lt_timer_of_move? hmove
  simp only [nextTime, List.foldl_cons, List.foldl_nil]
  cases hfirst : sim.events.head? <;> cases htime : sim.world.nextTimer? <;>
    simp_all

lemma wakeUps_jump (hdue : sim.due? = none) (hend : sim.world.now < sim.endsAt)
    (hmove : sim.world.move? source sim.overlooksNext = none) :
    sim.jump.wakeUps = sim.wakeUps := by
  have htimes := wakeTimes_later (lt_nextTime hdue hend hmove).le sim.nextTime_le.2.1
  simp only [wakeUps, jump, htimes]

/-! ### Simulations that are not shut down -/

/-- A simulation before its first step: no wake-up was raised, and no claim has failed. -/
structure Begins (sim : Simulation σ η) : Prop where
  fresh : sim.world.Fresh
  wake : sim.world.wake = {}
  shutdown : sim.world.shutdown = false
  failures : sim.world.backoff.failures = 0

/-- Nobody has shut the scanner down, and nobody will. -/
structure Calm (sim : Simulation σ η) : Prop where
  shutdown : sim.world.shutdown = false
  events : ∀ time, (time, .shutdown) ∉ sim.events

lemma Begins.calm (h : sim.Begins) (events : ∀ time, (time, .shutdown) ∉ sim.events) : sim.Calm :=
  ⟨h.shutdown, events⟩

namespace Calm

lemma event (h : sim.Calm) {event : World.Event η} {rest : List (Nat × World.Event η)}
    (hevents : sim.events = (time, event) :: rest) :
    ({ sim with world := sim.world.happen event, events := rest } : Simulation σ η).Calm where
  shutdown := by
    have hne : event ≠ .shutdown := by
      rintro rfl
      exact h.events time (by rw [hevents]; exact List.mem_cons_self)
    exact (World.shutdown_happen_of_ne hne).trans h.shutdown
  events later hmem := h.events later (by rw [hevents]; exact List.mem_cons_of_mem _ hmem)

lemma passes (h : sim.Calm) (hpasses : sim.Passes source more next) : next.Calm := by
  cases hpasses with
  | event hevents => exact h.event hevents
  | move _ _ hmove =>
      have hstill := (World.still_of_moved (World.moved_of_move? hmove)).2
      exact ⟨hstill.trans h.shutdown, h.events⟩
  | jump => exact ⟨h.shutdown, h.events⟩

/-- Then nobody ever does. -/
lemma run (h : sim.Calm) (source : ClaimSource σ) (n : Nat) : (sim.run source n).Calm :=
  passes_keep (fun _ sim => sim.Calm) (fun h hpasses => h.passes hpasses) [] h n

end Calm

end Simulation

/-- A script begins with a scanner that has not taken a step. -/
lemma ScannerScript.start_begins (script : ScannerScript) : script.start.Begins :=
  ⟨script.start_fresh, rfl, rfl, rfl⟩

end LeaseQueue
