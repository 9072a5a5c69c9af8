/-
What a scanner still does behind a shutdown.

* `Entry.Retries`: what sends a scanner straight on to its next claim;
* `World.move?_of_shutdown`: where a scanner waits, it ends behind a shutdown or overlooks it;
* `Simulation.Heeds`: behind a shutdown a claim follows only what sends the scanner straight on,
  which every step keeps;
* `Simulation.true_of_overlooked`: a shutdown is overlooked only by choice;
* `Simulation.asked_after_shutdown`: hence it does at any time.

A scanner looks for a shutdown where it waits: for an idle worker, for a wake-up, or behind a
claim that has failed. It takes what is there, in no order: a shutdown is overlooked when an idle
worker, a wake-up or the end of a timer is taken first. A race that is lost and a task that no
handler can run are followed by the next claim without any look.
-/
import LeaseQueue.Proofs.Scheduler.Account
import Mathlib.Data.List.Induction

namespace LeaseQueue

namespace Scanner

/-- A race for a task was lost, a task was failed that no handler can run, or a shutdown was
overlooked: the next claim comes at once. -/
def Entry.Retries : Entry → Prop
  | answered _ answer _ => answer = .ok .contended
  | failed _ _ _ | overlooked => True
  | _ => False

namespace World

variable {σ η : Type} {source : ClaimSource σ} {world next : World σ η} {entries more : List Entry}

/-- Where a scanner waits, it ends behind a shutdown, or overlooks it for something else. -/
lemma move?_of_shutdown (hshutdown : world.shutdown = true)
    (hphase : world.phase = .waiting ∨ ∃ worker, Rests world.phase worker) (overlooks : Bool) :
    world.move? source overlooks =
      some (if overlooks then world.resume?.getD world.stop else world.stop) := by
  have hwait (ended : Bool) : world.wait? ended overlooks =
      some (if overlooks then world.resume?.getD world.stop else world.stop) := by
    rw [wait?]
    cases world.resume? <;> cases overlooks <;> simp [hshutdown]
  rcases hphase with hphase | ⟨worker, ⟨due, hphase⟩ | ⟨due, hphase⟩⟩ <;>
    simp only [move?, hphase, hwait]

/-- A move takes no time, and leaves the shutdown alone. -/
lemma still_of_moved (h : world.Moved source more next) :
    next.now = world.now ∧ next.shutdown = world.shutdown := by
  cases h with
  | take | claim | resume | stop => exact ⟨rfl, rfl⟩
  | react _ hreact =>
      cases hreact with
      | known | unknown | without => exact ⟨rfl, rfl⟩
  | deliver _ hdeliver =>
      cases hdeliver with
      | astray | closed | drained | held => exact ⟨rfl, rfl⟩

/-- A shutdown that was written down has happened, and others do not take it back. -/
lemma shutdown_happen (event : Event η)
    (h : world.shutdown = true ∨ .shutdown ∈ world.heard event) :
    (world.happen event).shutdown = true := by
  cases event with
  | offer =>
      simp only [heard] at h
      split at h <;> simpa [happen, offer] using h
  | register =>
      simp only [heard] at h
      simp only [happen]
      split <;> split at h <;> simpa using h
  | wake =>
      simp only [happen]
      split <;> simpa [heard] using h
  | take | dropWake | close => simpa [happen, heard, logTaken, fill] using h
  | shutdown => rfl

/-- Others do not overlook a shutdown. -/
lemma overlooked_notMem_heard (world : World σ η) (event : Event η) :
    .overlooked ∉ world.heard event := by
  cases event with
  | offer | register =>
      rw [heard]
      split <;> simp
  | take | wake | dropWake | close | shutdown => simp [heard]

/-- A scanner overlooks a shutdown only if it was chosen to. -/
lemma overlooks_of_mem_doing {overlooks : Bool} (h : .overlooked ∈ world.doing source overlooks) :
    overlooks = true := by
  rw [doing] at h
  cases hphase : world.phase with
  | scanning worker => simp [hphase, asking] at h
  | claiming worker answer due =>
      rw [hphase] at h
      rcases answer with e | task | _ | _ <;> simp [refused] at h
  | delivering worker task =>
      simp only [hphase, handing] at h
      split at h
      · cases h
      · split at h <;> simp at h
  | waiting | backingOff | parked =>
      rw [hphase] at h
      exact (eq_overlooked_of_mem h).2
  | stopped => simp [hphase] at h

end World
end Scanner

open Scanner

namespace Simulation

variable {σ η : Type} {source : ClaimSource σ} {sim next : Simulation σ η}
  {entries more : List Entry}

/-- The last thing that was written down sends the scanner straight on. -/
def Retrying (entries : List Entry) : Prop := ∃ last, entries.getLast? = some last ∧ last.Retries

lemma retrying_concat (entries : List Entry) {last : Entry} (h : last.Retries) :
    Retrying (entries ++ [last]) := ⟨last, List.getLast?_concat, h⟩

/-- A scanner is about to make a claim only when no event is due, and behind a shutdown only when
it is sent straight on. -/
structure Heeds (entries : List Entry) (sim : Simulation σ η) : Prop where
  told : .shutdown ∈ entries → sim.world.shutdown = true
  scanning : ∀ worker, sim.world.phase = .scanning worker →
    sim.due? = none ∧ (sim.world.shutdown = true → Retrying entries)
  asked : ∀ before entry after, entries = before ++ entry :: after →
    ∀ call answer, entry = .asked call answer → .shutdown ∈ before → Retrying before

/-- What makes no claim. -/
lemma Heeds.asked_append (h : Heeds entries sim)
    (silent : ∀ entry ∈ more, ∀ call answer, entry ≠ .asked call answer) :
    ∀ before entry after, entries ++ more = before ++ entry :: after →
      ∀ call answer, entry = .asked call answer → .shutdown ∈ before → Retrying before := by
  induction more using List.reverseRecOn with
  | nil => simpa using h.asked
  | append_singleton more last ih =>
      rw [← List.append_assoc]
      have hmore := ih fun entry hentry => silent entry (List.mem_append_left _ hentry)
      refine Entry.forall_concat hmore fun call answer hlast => ?_
      exact absurd hlast (silent last (by simp) call answer)

namespace Heeds

lemma event (h : Heeds entries sim) {event : World.Event η} (rest : List (Nat × World.Event η))
    (hdue : sim.due? = some event) :
    Heeds (entries ++ sim.world.heard event)
      { sim with world := sim.world.happen event, events := rest } where
  told htold := World.shutdown_happen event ((List.mem_append.mp htold).imp_left h.told)
  scanning worker hphase := by
    have hbefore : sim.world.phase = .scanning worker :=
      (sim.world.left_happen event).phase.symm.trans hphase
    rw [(h.scanning worker hbefore).1] at hdue
    cases hdue
  asked := by
    refine h.asked_append fun entry hentry call answer => ?_
    cases event with
    | offer | register =>
        simp only [World.heard] at hentry
        split at hentry <;> simp_all
    | shutdown => simp_all [World.heard]
    | take | wake | dropWake | close => cases hentry

lemma move (h : Heeds entries sim) {world : World σ η} (hdue : sim.due? = none)
    (hmoved : sim.world.Moved source more world) : Heeds (entries ++ more) (sim.moved world) := by
  obtain ⟨hnow, hshutdown⟩ := World.still_of_moved hmoved
  have hdue' : (sim.moved world).due? = none := by
    rw [due?] at hdue ⊢
    simpa only [Simulation.moved, hnow] using hdue
  have told (silent : .shutdown ∉ more) (htold : .shutdown ∈ entries ++ more) :
      world.shutdown = true := by
    rw [hshutdown]
    exact h.told ((List.mem_append.mp htold).resolve_right silent)
  have unheeding (hunheeding : sim.world.Unheeding more) : Heeds (entries ++ more)
      (sim.moved world) := by
    cases hunheeding with
    | calm hcalm =>
        refine ⟨told (by simp), fun _ _ => ⟨hdue', fun htrue => ?_⟩, h.asked_append (by simp)⟩
        exact absurd (hcalm.symm.trans (hshutdown.symm.trans htrue)) Bool.false_ne_true
    | overlooked =>
        exact ⟨told (by simp), fun _ _ => ⟨hdue', fun _ => retrying_concat entries trivial⟩,
          h.asked_append (by simp)⟩
  cases hmoved with
  | take _ hunheeding | resume _ _ hunheeding => exact unheeding hunheeding
  | stop => exact ⟨told (by simp), fun _ hscan => (by cases hscan), h.asked_append (by simp)⟩
  | claim hphase =>
      refine ⟨told (by simp [World.asking]), fun _ hscan => (by cases hscan),
        Entry.forall_concat h.asked ?_⟩
      exact fun call answer _ htold => (h.scanning _ hphase).2 (h.told htold)
  | react hphase hreact =>
      cases hreact with
      | known => exact ⟨told (by simp), fun _ hscan => (by cases hscan), h.asked_append (by simp)⟩
      | unknown =>
          refine ⟨told (by simp), fun _ _ => ⟨hdue', fun _ => ?_⟩, h.asked_append (by simp)⟩
          rw [List.append_cons]
          exact retrying_concat _ trivial
      | without hanswer backoff hnext =>
          refine ⟨told (by simp), fun worker hscan => ⟨hdue', fun _ => ?_⟩,
            h.asked_append (by simp)⟩
          rcases hnext with ⟨-, hcontended⟩ | ⟨due, rfl⟩ | ⟨due, rfl⟩
          · exact retrying_concat entries hcontended
          · cases hscan
          · cases hscan
  | deliver hphase hdeliver =>
      cases hdeliver with
      | astray | closed | drained | held =>
          exact ⟨told (by simp), fun _ hscan => (by cases hscan), h.asked_append (by simp)⟩

lemma jump (h : Heeds entries sim) (hmove : sim.world.move? source sim.overlooksNext = none) :
    Heeds (entries ++ []) sim.jump where
  told htold := h.told (by simpa using htold)
  scanning worker hphase := by
    have hbefore : sim.world.phase = .scanning worker := hphase
    simp only [World.move?, hbefore] at hmove
    cases hmove
  asked := by simpa using h.asked

end Heeds

/-- The next step overlooks a shutdown only if it was chosen to. -/
lemma overlooksNext_of_overlooked (h : .overlooked ∈ sim.entries source) :
    sim.overlooksNext = true := by
  rw [entries] at h
  split at h
  · exact absurd h (World.overlooked_notMem_heard _ _)
  · split at h
    · exact World.overlooks_of_mem_doing h
    · cases h

/-- A step leaves the choices to come alone, or uses one up. -/
lemma overlooks_of_step? (h : sim.step? source = some next) :
    next.overlooks = sim.overlooks ∨ next.overlooks = sim.overlooks.tail := by
  have hgoes := goes_of_step? h
  generalize sim.entries source = more at hgoes
  cases hgoes with
  | event | jump => exact .inl rfl
  | move => exact .inr rfl

/-- A shutdown is overlooked only by choice. -/
lemma true_of_overlooked (n : Nat) (h : .overlooked ∈ sim.journal source n) :
    true ∈ sim.overlooks := by
  induction n generalizing sim with
  | zero => cases h
  | succ n ih =>
      rw [journal] at h
      cases hstep : sim.step? source with
      | none =>
          simp only [hstep] at h
          cases h
      | some next =>
          simp only [hstep, List.mem_append] at h
          rcases h with hnow | hlater
          · have hnext := overlooksNext_of_overlooked hnow
            rw [overlooksNext] at hnext
            cases hoverlooks : sim.overlooks with
            | nil => simp [hoverlooks] at hnext
            | cons first rest =>
                rw [hoverlooks, List.headD_cons] at hnext
                exact hnext ▸ List.mem_cons_self
          · rcases overlooks_of_step? hstep with hsame | htail
            · exact hsame ▸ ih hlater
            · exact List.mem_of_mem_tail (htail ▸ ih hlater)

/-- Behind a shutdown a scanner makes a claim only straight behind a race for a task that was lost,
a task that no handler can run, or a wait where it overlooks the shutdown for something else that
it waits for. Where it waits, it ends unless it does so; and it overlooks a shutdown only by
choice. -/
theorem asked_after_shutdown (source : ClaimSource σ) {sim : Simulation σ η}
    (fresh : sim.world.Fresh) (n : Nat) :
    let entries := sim.journal source n
    let world := (sim.run source n).world
    (∀ before call answer after, entries = before ++ .asked call answer :: after →
      .shutdown ∈ before → Retrying before) ∧
    (world.shutdown = true → (world.phase = .waiting ∨ ∃ worker, World.Rests world.phase worker) →
      ∀ overlooks, world.move? source overlooks =
        some (if overlooks then world.resume?.getD world.stop else world.stop)) ∧
    (.overlooked ∈ entries → true ∈ sim.overlooks) := by
  intro entries world
  have start : Heeds [] sim :=
    ⟨by simp, fun worker hphase => by simp [fresh.phase] at hphase, by simp⟩
  have heeds : Heeds (sim.journal source n) (sim.run source n) := by
    refine run_keeps Heeds (fun h hgoes => ?_) start n
    cases hgoes with
    | event hdue => exact h.event _ hdue
    | move hdue hmoved => exact h.move hdue hmoved
    | jump _ hmove => exact h.jump hmove
  exact ⟨fun before call answer after hsplit => heeds.asked before _ after hsplit call answer rfl,
    World.move?_of_shutdown, true_of_overlooked n⟩

end Simulation

namespace ScannerScript

/-- A race is lost while the scanner is told to end. -/
def lostRace : ScannerScript where
  types := ["job"]
  lease := .ofSeconds 60
  fallback := none
  backoff := .standard
  claims := [⟨10, .ok .contended⟩, ⟨0, .ok (.claimed ⟨1, "job", .null, ""⟩)⟩]
  events := [(0, .offer "worker" .drained), (5, .shutdown)]
  endsAt := 100

/-- The claim that it makes behind the shutdown follows the lost race. -/
theorem lostRace_retries :
    let entries := lostRace.start.journal scriptedSource 40
    lostRace.start.world.Fresh ∧
      (entries.filterMap Entry.call?).map ClaimCall.time = [0, 10] ∧
      ∀ before call answer after, entries = before ++ .asked call answer :: after →
        .shutdown ∈ before → Simulation.Retrying before :=
  ⟨lostRace.start_fresh, by decide +kernel,
    (Simulation.asked_after_shutdown scriptedSource lostRace.start_fresh 40).1⟩

/-- So a scanner can make a claim behind a shutdown, and hand over the task that it gets, before
it ends. -/
theorem claim_after_shutdown :
    lostRace.log.claims.map ClaimCall.time = [0, 10] ∧
      lostRace.log.taken.map (fun taken => (taken.time, taken.task.map ClaimedTask.id)) =
        [(10, some 1)] ∧
      lostRace.log.stoppedAt = some 10 := by
  decide +kernel

end ScannerScript
end LeaseQueue
