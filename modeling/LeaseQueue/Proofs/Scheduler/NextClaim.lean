/-
When a scanner that rests makes its next claim.

* `Simulation.NextClaim`: the next claim is made for a worker at a time, or there is none;
* `Simulation.Resting`: a scanner that rests until a time, which every step keeps until then;
* `Resting.nextClaim`: hence its next claim is made at that time.
-/
import LeaseQueue.Proofs.Scheduler.Course

namespace LeaseQueue

open Scanner

namespace Simulation

variable {σ η : Type} {source : ClaimSource σ} {sim next : Simulation σ η}
  {worker : WorkerId} {time : Nat} {time? : Option Nat}

/-! ### The next claim -/

/-- The next claim of a simulation is made for a worker at a time, if this comes before the end;
otherwise there is no other claim. -/
structure NextClaim (source : ClaimSource σ) (sim : Simulation σ η) (worker : WorkerId)
    (time? : Option Nat) : Prop where
  comes : ∀ time ∈ time?, time < sim.endsAt → ∃ n quiet call answer,
    sim.journal source n = quiet ++ [.asked call answer] ∧
      (∀ entry ∈ quiet, entry.call? = none) ∧ call.worker = worker ∧ call.time = time
  never : (∀ time ∈ time?, sim.endsAt ≤ time) → ∀ n, ∀ entry ∈ sim.journal source n,
    entry.call? = none

/-- When a scanner that rests goes on: behind a failed claim when its time has come, and parked at
once if a wake-up is pending, else with the next wake-up or when the fallback timer runs out. -/
def resumesAt? (sim : Simulation σ η) : Option Nat :=
  match sim.world.phase with
  | .backingOff _ due => some due
  | .parked _ due =>
    if sim.world.wake.pending then some sim.world.now else Option.merge min sim.wakeUps.head? due
  | .waiting | .scanning _ | .claiming .. | .delivering .. | .stopped => none

/-- A scanner rests with a worker until a time, and nobody shuts it down. -/
structure Resting (sim : Simulation σ η) (worker : WorkerId) (time? : Option Nat) : Prop where
  rests : World.Rests sim.world.phase worker
  resumes : sim.resumesAt? = time?
  timer : ∀ time ∈ sim.world.nextTimer?, sim.world.now ≤ time
  calm : sim.Calm
  receiver : sim.world.wake.hasReceiver = true

/-- The earlier of two times, one of which has come. -/
lemma merge_of_le {now : Nat} {due : Option Nat} (h : ∀ time ∈ due, now ≤ time) :
    Option.merge min (some now) due = some now := by
  cases due with
  | none => rfl
  | some time => simpa [Option.merge] using h time rfl

lemma merge_comm (a b : Option Nat) : Option.merge min a b = Option.merge min b a := by
  cases a <;> cases b <;> simp [Option.merge, min_comm]

/-- A scanner that nobody shuts down rests where it waits with a worker and no timer has run out. -/
lemma Begins.resting (begins : sim.Begins) (calm : sim.Calm) {n : Nat}
    (rests : World.Rests (sim.run source n).world.phase worker)
    (timer : ∀ time ∈ (sim.run source n).world.nextTimer?, (sim.run source n).world.now ≤ time) :
    (sim.run source n).Resting worker (sim.run source n).resumesAt? where
  rests := rests
  resumes := rfl
  timer := timer
  calm := calm.run source n
  receiver := (lasts_run source n).receiver.trans (by rw [begins.wake])

namespace Resting

lemma later (h : sim.Resting worker time?) : ∀ time ∈ time?, sim.world.now ≤ time := by
  intro time htime
  have htimer := h.timer
  rw [← h.resumes, resumesAt?] at htime
  rcases h.rests with ⟨due, hphase⟩ | ⟨due, hphase⟩
  · simp only [hphase, World.nextTimer?] at htimer htime
    exact htimer time htime
  · simp only [hphase, World.nextTimer?] at htimer htime
    split_ifs at htime
    · cases htime
      exact le_rfl
    · have hwake : ∀ wakeUp ∈ sim.wakeUps.head?, sim.world.now ≤ wakeUp := fun wakeUp hmem =>
        le_of_mem_wakeUps (List.mem_of_mem_head? hmem)
      cases hfirst : sim.wakeUps.head? <;> cases due <;> simp_all [Option.merge]
      omega

/-- While something else happens, the scanner rests on. -/
lemma event (h : sim.Resting worker time?) {event : World.Event η}
    {rest : List (Nat × World.Event η)} (hevents : sim.events = (time, event) :: rest)
    (hdue : time ≤ sim.world.now) :
    ({ sim with world := sim.world.happen event, events := rest } :
      Simulation σ η).Resting worker time? := by
  obtain ⟨hlasts, hnow, -⟩ := sim.world.lasts_happen event
  have hphase := (sim.world.left_happen event).phase
  have hpending := World.pending_happen h.receiver event
  have hwakeUps := wakeUps_event hevents hdue
  refine ⟨by simpa only [hphase] using h.rests, ?_, ?_, h.calm.event hevents,
    hlasts.receiver.trans h.receiver⟩
  · rw [← h.resumes, resumesAt?, resumesAt?]
    have htimer := h.timer
    rcases h.rests with ⟨due, hrests⟩ | ⟨due, hrests⟩
    · simp only [hphase, hrests]
    · simp only [hrests, World.nextTimer?] at htimer
      simp only [hphase, hrests, hpending, hnow]
      by_cases hraises : sim.world.raises event = true
      · rw [if_pos hraises] at hwakeUps
        simp only [hwakeUps, hraises, Bool.or_true, if_true, List.cons_append, List.head?_cons,
          merge_of_le htimer, ite_self]
      · rw [if_neg hraises, List.nil_append] at hwakeUps
        simp only [hwakeUps, Bool.eq_false_of_not_eq_true hraises, Bool.or_false]
  · simpa only [World.nextTimer?, hphase, hnow] using h.timer

/-- While time passes, the scanner rests on. -/
lemma jump (h : sim.Resting worker time?) (hdue : sim.due? = none)
    (hend : sim.world.now < sim.endsAt)
    (hmove : sim.world.move? source sim.overlooksNext = none) :
    sim.jump.Resting worker time? := by
  refine ⟨h.rests, ?_, sim.nextTime_le.2.2, ⟨h.calm.shutdown, h.calm.events⟩, h.receiver⟩
  have hphase : sim.jump.world.phase = sim.world.phase := rfl
  have hwake : sim.jump.world.wake = sim.world.wake := rfl
  rw [← h.resumes, resumesAt?, resumesAt?, wakeUps_jump hdue hend hmove, hphase, hwake]
  rcases h.rests with ⟨due, hrests⟩ | ⟨due, hrests⟩
  · simp only [hrests]
  · -- a pending wake-up would have made the scanner move
    rw [(World.move?_of_calm h.rests h.calm.shutdown).1] at hmove
    simp only [World.resume?, hrests] at hmove
    split_ifs at hmove with hpending
    simp only [hrests, if_neg hpending]

/-- The scanner moves at its time, and is about to make a claim. -/
lemma move (h : sim.Resting worker time?) {world : World σ η}
    (hmove : sim.world.move? source sim.overlooksNext = some world) :
    time? = some sim.world.now ∧ world.phase = .scanning worker ∧
      sim.world.doing source sim.overlooksNext = [] := by
  have htimer := h.timer
  have hcalm : sim.world.move? source sim.overlooksNext = sim.world.resume? ∧
      sim.world.doing source sim.overlooksNext = [] :=
    World.move?_of_calm h.rests h.calm.shutdown
  obtain ⟨hresume, hsilent⟩ := hcalm
  rw [hresume] at hmove
  refine and_assoc.mp ⟨?_, hsilent⟩
  rcases h.rests with ⟨due, hrests⟩ | ⟨due, hrests⟩
  · simp only [hrests, World.nextTimer?, Option.mem_def, Option.some.injEq] at htimer
    simp only [World.resume?, hrests] at hmove
    split_ifs at hmove with hpassed
    cases hmove
    refine ⟨?_, rfl⟩
    rw [← h.resumes, resumesAt?]
    simp only [hrests]
    rw [le_antisymm hpassed (htimer due rfl)]
  · simp only [hrests, World.nextTimer?] at htimer
    simp only [World.resume?, hrests] at hmove
    rw [← h.resumes, resumesAt?]
    simp only [hrests]
    split_ifs at hmove with hpending hpassed
    · cases hmove
      exact ⟨by rw [if_pos hpending], rfl⟩
    · cases hmove
      refine ⟨?_, rfl⟩
      obtain ⟨time, rfl, hle⟩ : ∃ time, due = some time ∧ time ≤ sim.world.now := by
        simpa [Option.any_eq_true] using hpassed
      rw [if_neg hpending, le_antisymm hle (htimer time rfl), merge_comm, merge_of_le]
      exact fun wakeUp hmem => le_of_mem_wakeUps (List.mem_of_mem_head? hmem)

/-- A step of a simulation whose scanner rests is silent. The scanner rests on and the end comes
nearer, or its time has come and it is about to make a claim. -/
lemma step (h : sim.Resting worker time?) (hstep : sim.step? source = some next) :
    (∀ entry ∈ sim.entries source, entry.call? = none) ∧ next.endsAt = sim.endsAt ∧
      (next.Resting worker time? ∧
          next.events.length + (next.endsAt - next.world.now) <
            sim.events.length + (sim.endsAt - sim.world.now) ∨
        time? = some sim.world.now ∧ sim.world.now < sim.endsAt ∧
          next.world.now = sim.world.now ∧ next.world.phase = .scanning worker ∧
          next.due? = none) := by
  have hpasses := passes_of_step? hstep
  generalize sim.entries source = entries at hpasses
  cases hpasses with
  | @event _ event rest hevents hdue =>
      refine ⟨fun entry hentry => (sim.world.silent_heard event entry hentry).1, rfl,
        .inl ⟨h.event hevents hdue, ?_⟩⟩
      simp only [hevents, List.length_cons, (sim.world.lasts_happen event).2.1]
      omega
  | move hdue hend hmove =>
      obtain ⟨htime, hphase, hsilent⟩ := h.move hmove
      have hnow := (World.lasts_of_move? hmove).2.1
      refine ⟨by simp [hsilent], rfl, .inr ⟨htime, hend, hnow, hphase, ?_⟩⟩
      exact due?_eq_none_iff.mpr (hnow ▸ due?_eq_none_iff.mp hdue)
  | jump hdue hend hmove =>
      refine ⟨List.forall_mem_nil _, rfl, .inl ⟨h.jump hdue hend hmove, ?_⟩⟩
      have hlt := lt_nextTime hdue hend hmove
      have hle := sim.nextTime_le.1
      simp only [Simulation.jump]
      omega

end Resting

/-- A scanner that is about to make a claim makes it, when no event is due. -/
lemma journal_scanning (source : ClaimSource σ) (hphase : sim.world.phase = .scanning worker)
    (hdue : sim.due? = none) (hend : sim.world.now < sim.endsAt) :
    ∃ call answer, sim.journal source 1 = [.asked call answer] ∧ call.worker = worker ∧
      call.time = sim.world.now := by
  have hmove : sim.world.move? source sim.overlooksNext =
      some (sim.world.claim source worker) := by
    simp only [World.move?, hphase]
  have hstep : sim.step? source = some (sim.moved (sim.world.claim source worker)) := by
    simp only [step?, event?_of_not_due hdue, if_neg (Nat.not_le_of_lt hend), hmove]
  have hjournal : sim.journal source 1 = [sim.world.asking source worker] := by
    simp only [journal, hstep, entries, hdue, hmove, World.doing, hphase, Option.isSome_some,
      if_true, List.append_nil]
  exact ⟨_, _, hjournal, rfl, rfl⟩

/-- The next claim of a scanner that rests is made when its time has come. -/
theorem Resting.nextClaim (source : ClaimSource σ) (h : sim.Resting worker time?) :
    sim.NextClaim source worker time? where
  comes time htime hend := by
    induction hn : sim.events.length + (sim.endsAt - sim.world.now) using Nat.strong_induction_on
      generalizing sim with
    | _ n ih =>
        cases hstep : sim.step? source with
        | none =>
            have hpast := (ended_of_step? hstep).trans (h.later time htime)
            exact absurd hpast (Nat.not_le_of_lt hend)
        | some next =>
            obtain ⟨silent, hends, ⟨hrests, hless⟩ | ⟨htime', hlt, hnow, hphase, hdue⟩⟩ :=
              h.step hstep
            · obtain ⟨m, quiet, call, answer, hjournal, hquiet, hcall⟩ :=
                ih _ (hn ▸ hless) hrests (hends ▸ hend) rfl
              refine ⟨m + 1, sim.entries source ++ quiet, call, answer, ?_, ?_, hcall⟩
              · simp only [journal, hstep, hjournal, List.append_assoc]
              · exact List.forall_mem_append.mpr ⟨silent, hquiet⟩
            · have hend' : next.world.now < next.endsAt := by rwa [hnow, hends]
              obtain ⟨call, answer, hjournal, hworker, hcall⟩ :=
                journal_scanning source hphase hdue hend'
              refine ⟨2, sim.entries source, call, answer, ?_, silent, hworker, ?_⟩
              · rw [journal, hstep]
                exact congrArg (sim.entries source ++ ·) hjournal
              · rw [hcall, hnow]
                exact Option.some.inj (htime'.symm.trans htime)
  never hend n := by
    induction n generalizing sim with
    | zero => exact List.forall_mem_nil _
    | succ n ih =>
        rw [journal]
        cases hstep : sim.step? source with
        | none => exact List.forall_mem_nil _
        | some next =>
            obtain ⟨silent, hends, ⟨hrests, -⟩ | ⟨htime, hlt, -⟩⟩ := h.step hstep
            · exact List.forall_mem_append.mpr ⟨silent, ih hrests (hends ▸ hend)⟩
            · exact absurd (hend _ htime) (Nat.not_le_of_lt hlt)

end Simulation
end LeaseQueue
