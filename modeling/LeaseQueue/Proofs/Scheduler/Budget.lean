/-
How many claims a scanner makes.

* `Entry.prompts`, `World.expired`: what gives a scanner leave for a claim, beside the wake-ups;
* `Simulation.credit`: the claims that a scanner still has leave for; `credit_passes`: a step makes
  no claim without it;
* `Simulation.calls_le`: hence there are no more claims than causes;
* `World.Timed`, `World.since`: when a fallback timer was set, which every step keeps;
* `Simulation.expiries_le`: fallback timers run out no faster than they are long.
-/
import LeaseQueue.Proofs.Scheduler.Course

namespace LeaseQueue

namespace Scanner

/-- An idle worker, a race that was lost, a claim that has failed, or a task that was failed because
no handler can run it: each gives leave for one claim. -/
def Entry.prompts : Entry → Bool
  | offered _ | answered _ (.ok .contended) _ | answered _ (.error _) _ | failed .. => true
  | registered _ | shutdown | asked .. | answered _ (.ok (.claimed _)) _
  | answered _ (.ok .empty) _ | sent .. | dropped .. | overlooked => false

namespace World

variable {σ η : Type} {source : ClaimSource σ} {world next : World σ η} {overlooks : Bool}

/-- A claim comes next, or behind a wait that nothing but a shutdown ends sooner. -/
def owed (world : World σ η) : Bool :=
  match world.phase with
  | .scanning _ | .backingOff .. => true
  | .waiting | .claiming .. | .delivering .. | .parked .. | .stopped => false

/-- The fallback timer of a parked worker has run out, and nothing else ends the wait: no wake-up,
and no shutdown that is not overlooked. -/
def expired (world : World σ η) (overlooks : Bool) : Bool :=
  match world.phase with
  | .parked _ due =>
    (!world.shutdown || overlooks) && !world.wake.pending &&
      due.any fun due => decide (due ≤ world.now)
  | .waiting | .scanning _ | .claiming .. | .delivering .. | .backingOff .. | .stopped => false

/-- The claims that a scanner has leave for: the one that is owed, one for each idle worker and one
for the wake-up that is pending. -/
def credit (world : World σ η) : Nat :=
  world.owed.toNat + world.offers.length + world.wake.pending.toNat

/-- The credit that an event gives is written down, or is that of a wake-up. -/
lemma credit_happen (receiver : world.wake.hasReceiver = true) (event : Event η) :
    (world.happen event).credit ≤
      world.credit + (world.heard event).countP Entry.prompts + (world.raises event).toNat := by
  have hpending := pending_happen receiver event
  have hphase := (world.left_happen event).phase
  have howed : (world.happen event).owed = world.owed := by rw [owed, owed, hphase]
  have hoffers : (world.happen event).offers.length ≤
      world.offers.length + (world.heard event).countP Entry.prompts := by
    cases event with
    | offer worker kind =>
        simp only [happen, offer, heard]
        split <;> simp [Entry.prompts]
    | take | dropWake | close | shutdown => simp [happen, heard, logTaken, fill, Entry.prompts]
    | wake =>
        rw [happen]
        split <;> simp
    | register taskType handler =>
        rw [happen]
        split <;> simp
  have hwake : (world.wake.pending || world.raises event).toNat ≤
      world.wake.pending.toNat + (world.raises event).toNat := by
    cases world.wake.pending <;> simp
  simp only [credit, howed, hpending]
  omega

/-- An answer gives leave for another claim only where it is written down. -/
lemma credit_react {worker : WorkerId} {answer : Except TaskError Claim} {due : Nat}
    (hphase : world.phase = .claiming worker answer due) :
    let more := .answered worker answer (world.knows answer) :: world.refused worker answer
    (more.filterMap Entry.call?).length + (world.react source worker answer).credit ≤
      world.credit + more.countP Entry.prompts := by
  simp only [List.filterMap_cons, Entry.call?, List.countP_cons]
  rcases answer with e | task | _ | _
  · simp [credit, owed, react, hphase, refused, Entry.prompts]
    omega
  · simp only [react, refused]
    split
    · simp [credit, owed, hphase, succeed]
    · simp [credit, owed, hphase, succeed, failUnhandled, List.filterMap_cons, Entry.call?,
        Entry.prompts]
      omega
  · simp [credit, owed, react, succeed, hphase, refused]
  · simp [credit, owed, react, succeed, hphase, refused, Entry.prompts]
    omega

/-- A task that is handed on gives no leave for a claim. -/
lemma credit_deliver {worker : WorkerId} {task : ClaimedTask}
    (h : world.deliver? worker task = some next) : next.credit ≤ world.credit := by
  have hdelivered := delivered_of_deliver? h
  generalize world.handing worker task = more at hdelivered
  cases hdelivered with
  | astray | closed | drained | held =>
      simp only [credit, owed, logTaken, fill, Bool.toNat_false]
      omega

/-- Where a scanner waits, only a fallback timer that runs out gives leave for a claim. -/
lemma credit_wait {ended : Bool} (h : world.wait? ended overlooks = some next) :
    next.credit ≤ world.credit + (world.expired overlooks).toNat := by
  rcases wait?_cases h with ⟨rfl, -, -⟩ | ⟨hresume, hunheeding⟩
  · simp only [credit, owed, stop, Bool.toNat_false]
    omega
  · rw [resume?] at hresume
    cases hphase : world.phase with
    | waiting =>
        simp only [hphase] at hresume
        split at hresume <;> cases hresume
        rename_i hoffers
        simp [credit, owed, hphase, hoffers]
        omega
    | backingOff worker due =>
        simp only [hphase] at hresume
        split at hresume <;> cases hresume
        simp [credit, owed, hphase]
    | parked worker due =>
        simp only [hphase] at hresume
        split_ifs at hresume with hpending hpassed <;> cases hresume
        · simp [credit, owed, hphase, hpending, WakeChannel.take]
          omega
        · have hgoes : (!world.shutdown || overlooks) = true := by
            rcases overlooks_of_unheeding hunheeding with hcalm | htrue
            · simp [hcalm]
            · simp [htrue]
          simp [credit, owed, expired, hphase, hpending, hgoes, hpassed]
          omega
    | scanning | claiming | delivering | stopped =>
        simp only [hphase] at hresume
        cases hresume

/-- A claim uses up the credit that a move does not leave. -/
lemma credit_move (h : world.move? source overlooks = some next) :
    ((world.doing source overlooks).filterMap Entry.call?).length + next.credit ≤
      world.credit + (world.doing source overlooks).countP Entry.prompts +
        (world.expired overlooks).toNat := by
  rw [move?] at h
  rw [doing]
  cases hphase : world.phase with
  | scanning worker =>
      simp only [hphase] at h
      cases h
      simp [credit, owed, claim, hphase, asking, Entry.call?, Entry.prompts, WakeChannel.take]
      omega
  | claiming worker answer due =>
      simp only [hphase] at h
      split at h <;> cases h
      exact (credit_react hphase).trans (Nat.le_add_right _ _)
  | delivering worker task =>
      simp only [hphase] at h
      have silent := fun entry hentry => (world.silent_handing worker task entry hentry).1
      have hcredit := credit_deliver h
      dsimp only
      rw [List.filterMap_eq_nil_iff.mpr silent, List.length_nil]
      omega
  | waiting | backingOff | parked =>
      simp only [hphase] at h
      have silent : (world.overlooking overlooks).filterMap Entry.call? = [] :=
        List.filterMap_eq_nil_iff.mpr fun entry hentry => by
          rw [(eq_overlooked_of_mem hentry).1]
          rfl
      have hcredit := credit_wait h
      dsimp only
      rw [silent, List.length_nil]
      omega
  | stopped =>
      simp only [hphase] at h
      cases h

/-! ### Fallback timers -/

/-- The fallback timer of a parked worker was set when the worker was parked. -/
def Timed (world : World σ η) : Prop :=
  ∀ worker due, world.phase = .parked worker due →
    ∃ since ≤ world.now, due = world.fallback.map fun length => since + length.timerMillis

/-- Since when the fallback timer runs, or from when on it can. -/
def since (length : Nat) (world : World σ η) : Nat :=
  match world.phase with
  | .parked _ (some due) => due - length
  | .parked _ none | .waiting | .scanning _ | .claiming .. | .delivering .. | .backingOff ..
  | .stopped => world.now

/-- Behind a move no worker is parked, or its timer has just been set. -/
lemma due_of_move? (h : world.move? source overlooks = some next) {worker : WorkerId}
    {due : Option Nat}
    (hnext : next.phase = .parked worker due) :
    due = world.fallback.map fun length => world.now + length.timerMillis := by
  have hmoved := moved_of_move? h
  generalize world.doing source overlooks = more at hmoved
  cases hmoved with
  | take | claim | resume | stop => cases hnext
  | @react _ answer _ _ _ hphase =>
      simp only [move?, hphase] at h
      split at h <;> cases h
      rcases answer with e | task | _ | _
      · cases hnext
      · simp only [react] at hnext
        split at hnext <;> cases hnext
      · cases hnext
        rfl
      · cases hnext
  | deliver _ hdeliver =>
      cases hdeliver with
      | astray | closed | drained | held => cases hnext

/-- Behind a move the fallback timer can run from now on. -/
lemma since_of_move? {length : Duration} (hlength : world.fallback = some length)
    (h : world.move? source overlooks = some next) : next.since length.timerMillis = world.now := by
  rw [since]
  cases hphase : next.phase with
  | parked worker due =>
      obtain rfl := due_of_move? h hphase
      simp [hlength]
  | waiting | scanning | claiming | delivering | backingOff | stopped =>
      exact (lasts_of_move? h).2.1

/-- Since then a timer has run for as long as it is, if it has run out. -/
lemma since_le (overlooks : Bool) {millis : Nat}
    (timed : ∀ worker due, world.phase = .parked worker due →
      ∃ since ≤ world.now, due = some (since + millis)) :
    (world.expired overlooks).toNat * millis + world.since millis ≤ world.now := by
  rw [since, expired]
  cases hphase : world.phase with
  | parked worker due =>
      obtain ⟨since, hle, rfl⟩ := timed worker due hphase
      simp only [Option.any_some, Nat.add_sub_cancel]
      by_cases hpassed : since + millis ≤ world.now
      · have hone := Bool.toNat_le ((!world.shutdown || overlooks) && !world.wake.pending && true)
        have honce := Nat.mul_le_mul_right millis hone
        rw [decide_eq_true hpassed]
        omega
      · rw [decide_eq_false hpassed, Bool.and_false, Bool.toNat_false]
        omega
  | waiting | scanning | claiming | delivering | backingOff | stopped => simp

lemma Timed.parked {length : Duration} (timed : world.Timed)
    (hlength : world.fallback = some length) (worker : WorkerId) (due : Option Nat)
    (hphase : world.phase = .parked worker due) :
    ∃ since ≤ world.now, due = some (since + length.timerMillis) := by
  obtain ⟨since, hle, hdue⟩ := timed worker due hphase
  exact ⟨since, hle, by rw [hdue, hlength, Option.map_some]⟩

/-- A timer that has run out makes the scanner move. -/
lemma expired_of_move? (h : world.move? source overlooks = none) :
    world.expired overlooks = false := by
  rw [expired]
  rw [move?] at h
  cases hphase : world.phase with
  | parked worker due =>
      simp only [hphase] at h
      have hresume := (resume?_of_wait? h).1
      simp only [resume?, hphase] at hresume
      split_ifs at hresume with hpending hpassed
      simp [hpassed]
  | waiting | scanning | claiming | delivering | backingOff | stopped => rfl

/-- Without a fallback timer none runs out. -/
lemma expired_eq_false (timed : world.Timed) (h : world.fallback = none) :
    world.expired overlooks = false := by
  rw [expired]
  cases hphase : world.phase with
  | parked worker due =>
      obtain ⟨since, -, rfl⟩ := timed worker due hphase
      simp [h]
  | waiting | scanning | claiming | delivering | backingOff | stopped => rfl

end World
end Scanner

open Scanner

namespace Simulation

variable {σ η : Type} {source : ClaimSource σ} {sim next : Simulation σ η} {more : List Entry}

/-- The fallback timers that run out in a number of steps. -/
def expiries (source : ClaimSource σ) : (steps : Nat) → Simulation σ η → Nat
  | 0, _ => 0
  | steps + 1, sim =>
    match sim.step? source with
    | some next =>
      (sim.due?.isNone && sim.world.expired sim.overlooksNext).toNat + expiries source steps next
    | none => 0

/-- The claims that a scanner has leave for, if all wake-ups come that are still to come. -/
def credit (sim : Simulation σ η) : Nat := sim.world.credit + sim.wakeUps.length

/-- A step makes no claim without leave, and gets no leave without a cause. -/
lemma credit_passes (receiver : sim.world.wake.hasReceiver = true)
    (h : sim.Passes source more next) :
    (more.filterMap Entry.call?).length + next.credit ≤
      sim.credit + more.countP Entry.prompts +
        (sim.due?.isNone && sim.world.expired sim.overlooksNext).toNat := by
  cases h with
  | @event _ event rest hevents hdue =>
      have silent := fun entry hentry => (sim.world.silent_heard event entry hentry).1
      have hcredit := World.credit_happen receiver event
      have hwakeUps : sim.wakeUps.length = (sim.world.raises event).toNat +
          ({ sim with world := sim.world.happen event, events := rest } :
            Simulation σ η).wakeUps.length := by
        rw [wakeUps_event hevents hdue, List.length_append]
        split <;> simp_all
      rw [List.filterMap_eq_nil_iff.mpr silent, List.length_nil, credit, credit, hwakeUps]
      dsimp only
      omega
  | move hdue hend hmove =>
      have hcredit := World.credit_move hmove
      have hwakeUps := wakeUps_move hmove
      rw [credit, credit, hwakeUps, hdue, Option.isNone_none, Bool.true_and, moved_world]
      omega
  | jump hdue hend hmove =>
      have hwakeUps := wakeUps_jump hdue hend hmove
      have hsame : sim.jump.world.credit = sim.world.credit := rfl
      rw [credit, credit, hwakeUps, hsame]
      exact Nat.zero_add _ ▸ (Nat.le_add_right _ _).trans (Nat.le_add_right _ _)

/-- There are no more claims than causes. -/
theorem calls_le (source : ClaimSource σ) (receiver : sim.world.wake.hasReceiver = true) (n : Nat) :
    ((sim.journal source n).filterMap Entry.call?).length + (sim.run source n).credit ≤
      sim.credit + (sim.journal source n).countP Entry.prompts + sim.expiries source n := by
  induction n generalizing sim with
  | zero => simp [journal, run, expiries]
  | succ n ih =>
      rw [journal, run, expiries]
      cases hstep : sim.step? source with
      | none => simp
      | some next =>
          have hpasses := passes_of_step? hstep
          have hfirst := credit_passes receiver hpasses
          have hrest := @ih next (hpasses.lasts.receiver.trans receiver)
          simp only [List.filterMap_append, List.length_append, List.countP_append]
          omega

/-! ### Fallback timers that run out -/

/-- Every step leaves the fallback timer as it was set. -/
lemma timed_passes (timed : sim.world.Timed) (h : sim.Passes source more next) :
    next.world.Timed := by
  intro worker due hnext
  have hfallback := h.lasts.fallback
  cases h with
  | event =>
      obtain ⟨-, hnow, -⟩ := sim.world.lasts_happen _
      rw [(sim.world.left_happen _).phase] at hnext
      rw [hfallback, hnow]
      exact timed worker due hnext
  | move _ _ hmove =>
      rw [hfallback]
      exact ⟨_, (World.lasts_of_move? hmove).2.1.ge, World.due_of_move? hmove hnext⟩
  | jump hdue hend hmove =>
      obtain ⟨since, hle, hsince⟩ := timed worker due hnext
      exact ⟨since, hle.trans (lt_nextTime hdue hend hmove).le, hsince⟩

lemma timed_run (source : ClaimSource σ) (timed : sim.world.Timed) (n : Nat) :
    (sim.run source n).world.Timed :=
  passes_keep (fun _ sim => sim.world.Timed) (fun h hpasses => timed_passes h hpasses) [] timed n

/-- From one fallback timer that runs out to the next one, time passes. -/
lemma since_passes {length : Duration} (timed : sim.world.Timed)
    (hlength : sim.world.fallback = some length) (h : sim.Passes source more next) :
    (sim.due?.isNone && sim.world.expired sim.overlooksNext).toNat * length.timerMillis +
        sim.world.since length.timerMillis ≤ next.world.since length.timerMillis := by
  cases h with
  | @event _ event _ hevents hdue =>
      have hsame : (sim.world.happen event).since length.timerMillis =
          sim.world.since length.timerMillis := by
        rw [World.since, World.since, (sim.world.left_happen event).phase,
          (sim.world.lasts_happen event).2.1]
      rw [(event?_of_due hevents hdue).1]
      simp [hsame]
  | move hdue _ hmove =>
      rw [hdue, moved_world, World.since_of_move? hlength hmove]
      exact World.since_le _ (timed.parked hlength)
  | jump hdue hend hmove =>
      have hlt := lt_nextTime hdue hend hmove
      rw [World.expired_of_move? hmove, Bool.and_false, Bool.toNat_false, Nat.zero_mul,
        Nat.zero_add, World.since, World.since]
      dsimp only [Simulation.jump]
      split <;> omega

/-- Fallback timers run out no faster than they are long. -/
theorem expiries_le (source : ClaimSource σ) {length : Duration} (timed : sim.world.Timed)
    (hlength : sim.world.fallback = some length) (n : Nat) :
    sim.expiries source n * length.timerMillis + sim.world.since length.timerMillis ≤
      (sim.run source n).world.since length.timerMillis := by
  induction n generalizing sim with
  | zero => simp [run, expiries]
  | succ n ih =>
      rw [run, expiries]
      cases hstep : sim.step? source with
      | none => simp
      | some next =>
          have hpasses := passes_of_step? hstep
          have hfirst := since_passes timed hlength hpasses
          have hrest := ih (timed_passes timed hpasses) (hpasses.lasts.fallback.trans hlength)
          dsimp only
          rw [Nat.add_mul]
          omega

lemma expiries_eq_zero (source : ClaimSource σ) (timed : sim.world.Timed)
    (h : sim.world.fallback = none) (n : Nat) : sim.expiries source n = 0 := by
  induction n generalizing sim with
  | zero => rfl
  | succ n ih =>
      rw [expiries]
      cases hstep : sim.step? source with
      | none => rfl
      | some next =>
          have hpasses := passes_of_step? hstep
          have hrest := ih (timed_passes timed hpasses) (hpasses.lasts.fallback.trans h)
          simp only [World.expired_eq_false timed h, Bool.and_false, Bool.toNat_false, hrest]

end Simulation
end LeaseQueue
