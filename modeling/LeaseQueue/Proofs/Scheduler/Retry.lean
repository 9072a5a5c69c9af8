/-
How long a scanner waits behind a claim that has failed.

* `failures`: the claims that failed in a row, as a journal has them;
* `Simulation.Counted`: a scanner counts them, which every step keeps;
* `Simulation.retries_after_delay`: hence the next claim is made when the delay for this number of
  failures is over, and not before.
-/
import LeaseQueue.Proofs.Scheduler.Delays
import LeaseQueue.Proofs.Scheduler.NextClaim

namespace LeaseQueue

namespace Scanner

/-! ### Failures in a row -/

/-- The claims that failed in a row, up to the last one that was answered. -/
def failures (entries : List Entry) : Nat :=
  ((entries.filterMap Entry.answer?).reverse.takeWhile fun answer => !answer.2.isOk).length

variable {entries more : List Entry}

/-- Without another answer their number stays. -/
lemma failures_append (silent : ∀ entry ∈ more, entry.answer? = none) :
    failures (entries ++ more) = failures entries := by
  rw [failures, List.filterMap_append, List.filterMap_eq_nil_iff.mpr silent, List.append_nil,
    failures]

lemma failures_error (entries : List Entry) (worker : WorkerId) (e : TaskError) (known : Bool) :
    failures (entries ++ [.answered worker (.error e) known]) = failures entries + 1 := by
  simp [failures, Entry.answer?, List.filterMap_append, Except.isOk, Except.toBool]

/-- Any other answer ends the row. -/
lemma failures_ok {worker : WorkerId} {claim : Claim} {known : Bool}
    (silent : ∀ entry ∈ more, entry.answer? = none) :
    failures (entries ++ .answered worker (.ok claim) known :: more) = 0 := by
  simp [failures, Entry.answer?, List.filterMap_append, List.filterMap_eq_nil_iff.mpr silent,
    Except.isOk, Except.toBool]

/-- There is no row of failures behind another answer. -/
lemma failures_eq_zero
    (h : ∀ answer ∈ (entries.filterMap Entry.answer?).getLast?, answer.2.isOk = true) :
    failures entries = 0 := by
  rw [failures]
  cases hanswers : (entries.filterMap Entry.answer?).reverse with
  | nil => rfl
  | cons last rest =>
      have hlast : (entries.filterMap Entry.answer?).getLast? = some last := by
        rw [List.getLast?_eq_head?_reverse, hanswers, List.head?_cons]
      simp [h last hlast]

end Scanner

open Scanner

namespace Simulation

variable {σ η : Type} {source : ClaimSource σ} {sim next : Simulation σ η}
  {entries more : List Entry}

/-- A scanner counts the claims that failed in a row, as far as it can count. -/
def Counted (entries : List Entry) (sim : Simulation σ η) : Prop :=
  sim.world.backoff.failures = min (failures entries) Text.maxNat32

lemma Counted.passes (h : Counted entries sim) (hpasses : sim.Passes source more next) :
    Counted (entries ++ more) next := by
  rw [Counted] at h ⊢
  cases hpasses with
  | event =>
      rw [failures_append fun entry hentry => (sim.world.silent_heard _ entry hentry).2,
        (sim.world.lasts_happen _).2.2, h]
  | jump =>
      rw [List.append_nil]
      exact h
  | @move world hdue hend hmove =>
      rw [moved_world]
      have hturn := World.turn_of_move? hmove
      generalize sim.world.doing source sim.overlooksNext = more at hturn
      cases hturn with
      | claim =>
          rw [failures_append (by simp [World.asking, Entry.answer?])]
          exact h
      | other on silent =>
          rw [failures_append fun entry hentry => (silent entry hentry).2]
          exact (congrArg Backoff.failures on.backoff).trans h
      | @react worker answer =>
          rcases answer with e | claim
          · have silent : sim.world.refused worker (.error e) = [] := rfl
            rw [silent, failures_error]
            simp only [World.react, Backoff.failures_next, h]
            omega
          · have silent : ∀ entry ∈ sim.world.refused worker (.ok claim),
                entry.answer? = none := by
              rcases claim with task | _ | _ <;> simp [World.refused, Entry.answer?]
            rw [failures_ok silent]
            rcases claim with task | _ | _
            · simp only [World.react]
              split <;> rfl
            · rfl
            · rfl

/-- A scanner counts at any time. -/
lemma counted (source : ClaimSource σ) (h : sim.Begins) (n : Nat) :
    Counted (sim.journal source n) (sim.run source n) :=
  passes_keep Counted (fun h hpasses => h.passes hpasses) [] (h.failures.trans (by decide)) n

/-- Behind a claim that has failed the scanner rests until the delay for this number of failures is
over. -/
lemma resting_of_error (begins : sim.Begins) (calm : sim.Calm) {n : Nat} {worker : WorkerId}
    {e : TaskError} {known : Bool}
    (h : sim.journal source (n + 1) =
      sim.journal source n ++ [.answered worker (.error e) known]) :
    (sim.run source (n + 1)).Resting worker (some ((sim.run source n).world.now +
      (sim.world.backoff.policy.delay .double
        (failures (sim.journal source (n + 1)))).timerMillis)) := by
  obtain ⟨-, -, hnext⟩ := (passes_of_journal h).answered List.mem_cons_self
  have hrests : (sim.run source (n + 1)).Resting worker (sim.run source (n + 1)).resumesAt? := by
    refine begins.resting calm (.inl ⟨_, by rw [hnext]; rfl⟩) ?_
    rw [hnext]
    simp [World.nextTimer?, World.react]
  have hresumes : (sim.run source (n + 1)).resumesAt? = some ((sim.run source n).world.now +
      ((sim.run source n).world.backoff.next .double).1.timerMillis) := by
    rw [hnext]
    rfl
  have hcounted := counted source begins n
  have hdelay : ((sim.run source n).world.backoff.next .double).1 =
      sim.world.backoff.policy.delay .double (failures (sim.journal source (n + 1))) := by
    have hcount : min ((sim.run source n).world.backoff.failures + 1) Text.maxNat32 =
        min (failures (sim.journal source n) + 1) Text.maxNat32 := by
      rw [Counted] at hcounted
      omega
    rw [h, failures_error, ← BackoffPolicy.delay_min, ← (lasts_run source n).policy, Backoff.next]
    simp only [hcount]
  rw [← hdelay, ← hresumes]
  exact hrests

/-- Behind a claim that has failed the next one is made for the same worker, exactly when the delay
for the claims that failed in a row is over, whatever happens in the meantime. A claim that fails
behind any other answer, or as the first one, begins a new row. -/
theorem retries_after_delay (source : ClaimSource σ) {sim : Simulation σ η} (begins : sim.Begins)
    (n : Nat) :
    let entries := sim.journal source (n + 1)
    let world := (sim.run source n).world
    let policy := sim.world.backoff.policy
    ∀ worker e known, (∀ time, (time, .shutdown) ∉ sim.events) →
      entries = sim.journal source n ++ [.answered worker (.error e) known] →
      (sim.run source (n + 1)).NextClaim source worker
        (some (world.now + (policy.delay .double (failures entries)).timerMillis)) ∧
      ((∀ answer ∈ ((sim.journal source n).filterMap Entry.answer?).getLast?,
        answer.2.isOk = true) → failures entries = 1) := by
  intro entries world policy worker e known calm hjournal
  refine ⟨(resting_of_error begins (begins.calm calm) hjournal).nextClaim source, fun hlast => ?_⟩
  rw [hjournal, failures_error, failures_eq_zero hlast]

end Simulation

namespace ScannerScript

/-- A claim was cut off. -/
def canceled : TaskError := .refused SqlState.queryCanceled

/-- A day on which the source of tasks cannot be reached at first, and once more later on. Neither
wake-ups nor other workers help. -/
def stormyDay : ScannerScript where
  types := ["job"]
  lease := .ofSeconds 60
  fallback := some (.ofMillis 50)
  backoff := .standard
  claims := [⟨5, .error canceled⟩, ⟨0, .error canceled⟩, ⟨0, .ok .contended⟩,
    ⟨0, .error canceled⟩]
  events := [(0, .offer "worker" .drained), (20, .wake), (30, .offer "other" .held), (200, .wake)]
  endsAt := 440

/-- The second failure in a row makes the scanner wait for twice as long as the first, and behind a
race that was lost it begins anew. -/
theorem stormyDay_retries :
    let sim := stormyDay.start
    sim.Begins ∧ (∀ time, (time, .shutdown) ∉ sim.events) ∧
      stormyDay.log.claims.map ClaimCall.time = [0, 105, 305, 305, 405] ∧
      sim.journal scriptedSource 13 =
        sim.journal scriptedSource 12 ++ [.answered "worker" (.error canceled) false] ∧
      (sim.run scriptedSource 13).NextClaim scriptedSource "worker" (some 305) ∧
      sim.journal scriptedSource 21 =
        sim.journal scriptedSource 20 ++ [.answered "worker" (.error canceled) false] ∧
      (sim.run scriptedSource 21).NextClaim scriptedSource "worker" (some 405) := by
  intro sim
  have begins : sim.Begins := stormyDay.start_begins
  have calm : ∀ time, (time, .shutdown) ∉ sim.events := by
    simp [sim, start, stormyDay]
  have second : sim.journal scriptedSource 13 =
      sim.journal scriptedSource 12 ++ [.answered "worker" (.error canceled) false] := by
    decide +kernel
  have anew : sim.journal scriptedSource 21 =
      sim.journal scriptedSource 20 ++ [.answered "worker" (.error canceled) false] := by
    decide +kernel
  obtain ⟨hsecond, -⟩ := Simulation.retries_after_delay scriptedSource begins 12
    "worker" canceled false calm second
  obtain ⟨hanew, -⟩ := Simulation.retries_after_delay scriptedSource begins 20
    "worker" canceled false calm anew
  have htime : (sim.run scriptedSource 12).world.now + (sim.world.backoff.policy.delay .double
      (failures (sim.journal scriptedSource 13))).timerMillis = 305 := by decide +kernel
  have htime' : (sim.run scriptedSource 20).world.now + (sim.world.backoff.policy.delay .double
      (failures (sim.journal scriptedSource 21))).timerMillis = 405 := by decide +kernel
  rw [htime] at hsecond
  rw [htime'] at hanew
  exact ⟨begins, calm, by decide +kernel, second, hsecond, anew, hanew⟩

end ScannerScript
end LeaseQueue
