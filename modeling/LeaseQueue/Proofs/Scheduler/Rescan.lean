/-
When a scanner that has found nothing claims again.

* `Simulation.Heeded`: the wake-ups that were raised so far, and whether one is pending while a
  claim is under way, which every step keeps;
* `Simulation.rescan?`: when the next claim is made behind one that has found nothing;
* `Simulation.credit`, `Simulation.expiries`: what allows a scanner to make claims, and the
  fallback timers that have run out; `credit_step`: no claim is made without such a cause;
* `Simulation.rescans_on_cause`: hence a scanner that has found nothing claims again at that time,
  for no other reason, and never more often than it has reasons to.
-/
import LeaseQueue.Proofs.Scheduler.Budget
import LeaseQueue.Proofs.Scheduler.NextClaim

namespace LeaseQueue

open Scanner

namespace Simulation

variable {σ η : Type} {source : ClaimSource σ} {start sim next : Simulation σ η}
  {entries more : List Entry} {worker : WorkerId} {time : Nat}

/-! ### Wake-ups while a claim is under way -/

/-- A claim is under way: it was the last one, and a wake-up is pending exactly if one was raised
since it started. -/
structure Hears (entries : List Entry) (raised : List Nat) (sim : Simulation σ η)
    (worker : WorkerId) (call : ClaimCall) : Prop where
  last : (entries.filterMap Entry.call?).getLast? = some call
  worker : call.worker = worker
  pending : sim.world.wake.pending = true ↔ ∃ wakeUp ∈ raised, call.time < wakeUp
  later : ∀ wakeUp ∈ sim.wakeUps, call.time < wakeUp

/-- The wake-ups of a simulation are those that were raised so far and those that are still to come,
and while a claim is under way those that were raised since it started are heeded. -/
def Heeded (start : Simulation σ η) (entries : List Entry) (sim : Simulation σ η) : Prop :=
  start.world.Lasts sim.world ∧ ∃ raised, start.wakeUps = raised ++ sim.wakeUps ∧
    (∀ wakeUp ∈ raised, wakeUp ≤ sim.world.now) ∧
    ∀ worker answer due, sim.world.phase = .claiming worker answer due →
      ∃ call, Hears entries raised sim worker call

/-- What makes no claim and raises nothing. -/
lemma Hears.aside {raised : List Nat} {call : ClaimCall} (h : Hears entries raised sim worker call)
    (silent : ∀ entry ∈ more, entry.call? = none)
    (pending : next.world.wake.pending = sim.world.wake.pending)
    (wakeUps : next.wakeUps = sim.wakeUps) : Hears (entries ++ more) raised next worker call where
  last := by
    rw [List.filterMap_append, List.filterMap_eq_nil_iff.mpr silent, List.append_nil]
    exact h.last
  worker := h.worker
  pending := by rw [pending, h.pending]
  later := by rw [wakeUps]; exact h.later

/-- What an event raises is heard. -/
lemma Hears.event {raised : List Nat} {call : ClaimCall} (h : Hears entries raised sim worker call)
    (receiver : sim.world.wake.hasReceiver = true) {event : World.Event η}
    {rest : List (Nat × World.Event η)} (hevents : sim.events = (time, event) :: rest)
    (hdue : time ≤ sim.world.now) :
    Hears (entries ++ sim.world.heard event)
      (raised ++ if sim.world.raises event then [sim.world.now] else [])
      { sim with world := sim.world.happen event, events := rest } worker call := by
  have silent := fun entry hentry => (sim.world.silent_heard event entry hentry).1
  have hpending := World.pending_happen receiver event
  have hwakeUps := wakeUps_event hevents hdue
  by_cases hraises : sim.world.raises event = true
  · rw [if_pos hraises, List.singleton_append] at hwakeUps
    have hnow : call.time < sim.world.now :=
      h.later _ (by rw [hwakeUps]; exact List.mem_cons_self)
    refine ⟨?_, h.worker, ?_, fun wakeUp hmem => ?_⟩
    · rw [List.filterMap_append, List.filterMap_eq_nil_iff.mpr silent, List.append_nil]
      exact h.last
    · rw [if_pos hraises]
      simp only [hpending, hraises, Bool.or_true, true_iff]
      exact ⟨_, List.mem_append_right _ (List.mem_singleton.mpr rfl), hnow⟩
    · exact h.later _ (by rw [hwakeUps]; exact List.mem_cons_of_mem _ hmem)
  · rw [if_neg hraises, List.nil_append] at hwakeUps
    rw [if_neg hraises, List.append_nil]
    refine h.aside silent ?_ hwakeUps.symm
    simp only [hpending, Bool.eq_false_of_not_eq_true hraises, Bool.or_false]

lemma Heeded.passes (h : Heeded start entries sim)
    (receiver : start.world.wake.hasReceiver = true) (hpasses : sim.Passes source more next) :
    Heeded start (entries ++ more) next := by
  obtain ⟨lasts, raised, hraised, hpast, hears⟩ := h
  cases hpasses with
  | @event _ event rest hevents hdue =>
      obtain ⟨hlasts, hnow, -⟩ := sim.world.lasts_happen event
      have hwakeUps := wakeUps_event hevents hdue
      refine ⟨lasts.trans hlasts, raised ++ if sim.world.raises event then [sim.world.now] else [],
        ?_, ?_, fun worker answer due hphase => ?_⟩
      · rw [hraised, hwakeUps, List.append_assoc]
      · intro wakeUp hmem
        rw [hnow]
        rcases List.mem_append.mp hmem with hmem | hmem
        · exact hpast wakeUp hmem
        · split at hmem
          · exact (List.mem_singleton.mp hmem).le
          · cases hmem
      · have hbefore := (sim.world.left_happen event).phase.symm.trans hphase
        obtain ⟨call, hcall⟩ := hears worker answer due hbefore
        exact ⟨call, hcall.event (lasts.receiver.trans receiver) hevents hdue⟩
  | @move world hdue hend hmove =>
      obtain ⟨hlasts, hnow, -⟩ := World.lasts_of_move? hmove
      have hwakeUps := wakeUps_move hmove
      refine ⟨lasts.trans hlasts, raised, hwakeUps ▸ hraised, fun wakeUp hmem => ?_,
        fun worker answer due hphase => ?_⟩
      · exact (hpast wakeUp hmem).trans hnow.ge
      · have hturn := World.turn_of_move? hmove
        generalize sim.world.doing source sim.overlooksNext = more at hturn
        cases hturn with
        | claim hscanning =>
            cases hphase
            refine ⟨⟨sim.world.now, worker, sim.world.registry.types, sim.world.lease⟩,
              ?_, rfl, ?_, fun wakeUp hmem => ?_⟩
            · rw [List.filterMap_append]
              exact List.getLast?_concat
            · refine iff_of_false Bool.false_ne_true ?_
              rintro ⟨wakeUp, hmem, hlt⟩
              exact absurd (hpast wakeUp hmem) (Nat.not_le_of_lt hlt)
            · exact lt_of_mem_wakeUps hdue (hwakeUps ▸ hmem)
        | react => exact (World.phase_react sim.world _ hphase).elim
        | other on => exact absurd hphase (on.phase worker answer due)
  | jump hdue hend hmove =>
      have hwakeUps := wakeUps_jump hdue hend hmove
      refine ⟨⟨lasts.fallback, lasts.policy, lasts.receiver⟩, raised, hwakeUps ▸ hraised,
        fun wakeUp hmem => ?_, fun worker answer due hphase => ?_⟩
      · exact (hpast wakeUp hmem).trans (lt_nextTime hdue hend hmove).le
      · obtain ⟨call, hcall⟩ := hears worker answer due hphase
        exact ⟨call, hcall.aside (List.forall_mem_nil _) rfl hwakeUps⟩

/-- The wake-ups of a simulation are heeded at any time. -/
lemma heeded (source : ClaimSource σ) (h : sim.Begins) (n : Nat) :
    Heeded sim (sim.journal source n) (sim.run source n) := by
  have receiver : sim.world.wake.hasReceiver = true := by rw [h.wake]
  refine passes_keep (Heeded sim) (fun h hpasses => h.passes receiver hpasses) [] ?_ n
  refine ⟨⟨rfl, rfl, rfl⟩, [], rfl, List.forall_mem_nil _, fun worker answer due hphase => ?_⟩
  rw [h.fresh.phase] at hphase
  cases hphase

/-! ### Behind a claim that has found nothing -/

/-- When the next claim is made behind one that started at a time and has found nothing at another:
at once if a wake-up was raised in between, else with the next wake-up or when the fallback timer
runs out, whichever comes first. -/
def rescan? (wakeUps : List Nat) (asked answered : Nat) (fallback : Option Duration) : Option Nat :=
  if ∃ wakeUp ∈ wakeUps, asked < wakeUp ∧ wakeUp ≤ answered then some answered
  else Option.merge min (wakeUps.find? (answered < ·))
    (fallback.map fun length => answered + length.timerMillis)

/-- The wake-ups that were raised so far tell whether one came in time, and those that are still to
come tell the next one. -/
lemma rescan?_append {raised ahead : List Nat} {asked answered : Nat} (fallback : Option Duration)
    (hpast : ∀ wakeUp ∈ raised, wakeUp ≤ answered) (hahead : ∀ wakeUp ∈ ahead, answered < wakeUp) :
    rescan? (raised ++ ahead) asked answered fallback =
      if ∃ wakeUp ∈ raised, asked < wakeUp then some answered
      else Option.merge min ahead.head?
        (fallback.map fun length => answered + length.timerMillis) := by
  have hheard : (∃ wakeUp ∈ raised ++ ahead, asked < wakeUp ∧ wakeUp ≤ answered) ↔
      ∃ wakeUp ∈ raised, asked < wakeUp := by
    constructor
    · rintro ⟨wakeUp, hmem, hlt, hle⟩
      rcases List.mem_append.mp hmem with hmem | hmem
      · exact ⟨wakeUp, hmem, hlt⟩
      · exact absurd (hahead wakeUp hmem) (Nat.not_lt_of_le hle)
    · rintro ⟨wakeUp, hmem, hlt⟩
      exact ⟨wakeUp, List.mem_append_left _ hmem, hlt, hpast wakeUp hmem⟩
  have hnext : (raised ++ ahead).find? (answered < ·) = ahead.head? := by
    have hnone : raised.find? (answered < ·) = none := by
      simpa [List.find?_eq_none] using hpast
    rw [List.find?_append, hnone, Option.none_or]
    cases ahead with
    | nil => rfl
    | cons first rest => simp [hahead first List.mem_cons_self]
  simp only [rescan?, hheard, hnext]

/-- Behind a claim that has found nothing the scanner rests until there is a reason for another. -/
lemma resting_of_empty (begins : sim.Begins) (calm : sim.Calm) {n : Nat} {known : Bool}
    (h : sim.journal source (n + 1) =
      sim.journal source n ++ [.answered worker (.ok .empty) known]) :
    ∃ call, ((sim.journal source n).filterMap Entry.call?).getLast? = some call ∧
      call.worker = worker ∧ (sim.run source (n + 1)).Resting worker
        (rescan? sim.wakeUps call.time (sim.run source n).world.now sim.world.fallback) := by
  obtain ⟨hdue, ⟨due, hphase⟩, hnext⟩ := (passes_of_journal h).answered List.mem_cons_self
  obtain ⟨lasts, raised, hraised, hpast, hears⟩ := heeded source begins n
  obtain ⟨call, hcall⟩ := hears worker _ due hphase
  have hrests : (sim.run source (n + 1)).Resting worker (sim.run source (n + 1)).resumesAt? := by
    refine begins.resting calm (.inr ⟨_, by rw [hnext]; rfl⟩) ?_
    rw [hnext]
    simp [World.nextTimer?, World.react, World.succeed]
  have hresumes : (sim.run source (n + 1)).resumesAt? =
      rescan? sim.wakeUps call.time (sim.run source n).world.now sim.world.fallback := by
    have hwakeUps : (sim.run source (n + 1)).wakeUps = (sim.run source n).wakeUps := by
      rw [hnext]
      rfl
    rw [hraised, rescan?_append _ hpast fun wakeUp => lt_of_mem_wakeUps hdue, resumesAt?, hwakeUps,
      ← lasts.fallback]
    simp only [← hcall.pending, hnext]
    rfl
  exact ⟨call, hcall.last, hcall.worker, hresumes ▸ hrests⟩

/-! ### Reasons for a claim -/

/-- A parked worker waits on while nobody raises a wake-up. -/
lemma parked_happen {world : World σ η} {due : Option Nat}
    (hphase : world.phase = .parked worker due) (hmove : world.move? source = none)
    {event : World.Event η} (hwake : event ≠ .wake) (hshutdown : event ≠ .shutdown) :
    (world.happen event).move? source = none := by
  have hphase' := (world.left_happen event).phase.trans hphase
  have hpending : (world.happen event).wake.pending = world.wake.pending := by
    cases event with
    | wake => exact absurd rfl hwake
    | register taskType handler =>
        rw [World.happen]
        split <;> rfl
    | offer | take | dropWake | close | shutdown => rfl
  have hcalm : world.shutdown = false := by
    simp only [World.move?, hphase] at hmove
    exact (World.resume?_of_wait? hmove).2
  have hcalm' := (World.shutdown_happen_of_ne hshutdown).trans hcalm
  rw [(World.move?_of_calm (.inr ⟨due, hphase⟩) hcalm).1] at hmove
  rw [(World.move?_of_calm (.inr ⟨due, hphase'⟩) hcalm').1]
  simp only [World.resume?, hphase] at hmove
  simp only [World.resume?, hphase', hpending, (world.lasts_happen event).2.1]
  split_ifs at hmove with hraised hpassed
  rw [if_neg hraised, if_neg hpassed]

/-- A scanner that has found nothing claims again when a wake-up was raised since that claim
started, with the next wake-up or when its fallback timer runs out, and for no other reason: a claim
covers the wake-ups before it, and a parked worker heeds neither other workers nor new types. And
there are never more claims than reasons for one, among which the fallback timers run out no faster
than they are long. -/
theorem rescans_on_cause (source : ClaimSource σ) {sim : Simulation σ η} (begins : sim.Begins)
    (n : Nat) :
    let entries := sim.journal source n
    let world := (sim.run source n).world
    (∀ worker known, (∀ time, (time, .shutdown) ∉ sim.events) →
      sim.journal source (n + 1) = entries ++ [.answered worker (.ok .empty) known] →
      ∃ call, (entries.filterMap Entry.call?).getLast? = some call ∧ call.worker = worker ∧
        (sim.run source (n + 1)).NextClaim source worker
          (rescan? sim.wakeUps call.time world.now sim.world.fallback)) ∧
    (∀ call answer, sim.journal source (n + 1) = entries ++ [.asked call answer] →
      (sim.run source (n + 1)).world.wake.pending = false) ∧
    (∀ worker due event, world.phase = .parked worker due → world.move? source = none →
      event ≠ .wake → event ≠ .shutdown → (world.happen event).move? source = none) ∧
    (entries.filterMap Entry.call?).length + (sim.run source n).wakeUps.length ≤
      entries.countP Entry.prompts + sim.wakeUps.length + sim.expiries source n ∧
    (∀ length ∈ sim.world.fallback,
      sim.world.now + sim.expiries source n * length.timerMillis ≤ world.now) ∧
    (sim.world.fallback = none → sim.expiries source n = 0) := by
  intro entries world
  have receiver : sim.world.wake.hasReceiver = true := by rw [begins.wake]
  have timed : sim.world.Timed := fun worker due hphase => by
    rw [begins.fresh.phase] at hphase
    cases hphase
  refine ⟨fun worker known calm hjournal => ?_, fun call answer hjournal => ?_,
    fun worker due event hphase hmove hwake hshutdown => ?_, ?_, fun length hlength => ?_,
    fun hnone => expiries_eq_zero source timed hnone n⟩
  · obtain ⟨call, hlast, hworker, hrests⟩ := resting_of_empty begins (begins.calm calm) hjournal
    exact ⟨call, hlast, hworker, hrests.nextClaim source⟩
  · rw [(passes_of_journal hjournal).asked List.mem_cons_self]
    rfl
  · exact parked_happen hphase hmove hwake hshutdown
  · have hcalls := calls_le source receiver n
    have hcredit : sim.world.credit = 0 := by
      simp [World.credit, World.owed, begins.fresh.phase, begins.fresh.offers, begins.wake]
    rw [credit, credit, hcredit] at hcalls
    dsimp only [entries]
    omega
  · have hexpiries := expiries_le source timed hlength n
    have hsince : sim.world.since length.timerMillis = sim.world.now := by
      rw [World.since, begins.fresh.phase]
    have hend := World.since_le false ((timed_run source timed n).parked
      ((lasts_run source n).fallback.trans hlength))
    dsimp only [world]
    omega

end Simulation

namespace ScannerScript

/-- A day on which a scanner finds nothing: wake-ups come while no worker is idle, while a claim is
under way and while a worker is parked, and then there is only the fallback timer. -/
def quietDay : ScannerScript where
  types := ["job"]
  lease := .ofSeconds 60
  fallback := some (.ofMillis 50)
  backoff := .standard
  claims := [⟨10, .ok .empty⟩, ⟨0, .ok .empty⟩]
  events := [(0, .wake), (1, .offer "worker" .drained), (5, .wake), (30, .offer "other" .held),
    (31, .dropWake), (40, .wake)]
  endsAt := 200

/-- The wake-up during the first claim makes the second one come at once, and behind that one, with
all signals gone, only the fallback timer leads to a third. -/
theorem quietDay_rescans :
    let sim := quietDay.start
    sim.Begins ∧ (∀ time, (time, .shutdown) ∉ sim.events) ∧
      quietDay.log.claims.map ClaimCall.time = [1, 11, 61, 111, 161] ∧
      sim.journal scriptedSource 9 =
        sim.journal scriptedSource 8 ++ [.answered "worker" (.ok .empty) false] ∧
      (sim.run scriptedSource 9).NextClaim scriptedSource "worker" (some 11) ∧
      sim.journal scriptedSource 12 =
        sim.journal scriptedSource 11 ++ [.answered "worker" (.ok .empty) false] ∧
      (sim.run scriptedSource 12).NextClaim scriptedSource "worker" (some 61) := by
  intro sim
  have begins : sim.Begins := quietDay.start_begins
  have calm : ∀ time, (time, .shutdown) ∉ sim.events := by
    simp [sim, start, quietDay]
  have first : sim.journal scriptedSource 9 =
      sim.journal scriptedSource 8 ++ [.answered "worker" (.ok .empty) false] := by decide +kernel
  have second : sim.journal scriptedSource 12 =
      sim.journal scriptedSource 11 ++ [.answered "worker" (.ok .empty) false] := by decide +kernel
  obtain ⟨call, hcall, -, hnext⟩ :=
    (Simulation.rescans_on_cause scriptedSource begins 8).1 "worker" false calm first
  obtain ⟨call', hcall', -, hnext'⟩ :=
    (Simulation.rescans_on_cause scriptedSource begins 11).1 "worker" false calm second
  have hlast : ((sim.journal scriptedSource 8).filterMap Entry.call?).getLast?.map
      ClaimCall.time = some 1 := by decide +kernel
  have hlast' : ((sim.journal scriptedSource 11).filterMap Entry.call?).getLast?.map
      ClaimCall.time = some 11 := by decide +kernel
  rw [hcall, Option.map_some, Option.some.injEq] at hlast
  rw [hcall', Option.map_some, Option.some.injEq] at hlast'
  have hnow : Simulation.rescan? sim.wakeUps 1 (sim.run scriptedSource 8).world.now
      sim.world.fallback = some 11 := by decide +kernel
  have hnow' : Simulation.rescan? sim.wakeUps 11 (sim.run scriptedSource 11).world.now
      sim.world.fallback = some 61 := by decide +kernel
  rw [hlast, hnow] at hnext
  rw [hlast', hnow'] at hnext'
  exact ⟨begins, calm, by decide +kernel, first, hnext, second, hnext'⟩

end ScannerScript
end LeaseQueue
