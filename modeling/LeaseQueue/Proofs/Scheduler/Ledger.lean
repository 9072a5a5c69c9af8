/-
The ledger of a scanner: what its journal tells of the idle workers and of the tasks.

* `Entry.offer?`, `Entry.use?`: the idle workers that come and go;
* `Entry.question?`, `Entry.answer?`: claims and their answers;
* `Entry.duty?`, `Entry.handling?`: what is to be done with tasks, and what is done;
* `World.Slots`: the idle workers are used up in the order of their offers;
* `World.Tasks`: all tasks that arrive are handled, in order;
* `Slots.happen`, `Slots.moved`, `Tasks.happen`, `Tasks.moved`: events and moves keep both.
-/
import LeaseQueue.Proofs.Scheduler.Journal

namespace LeaseQueue

namespace Scanner

/-! ### What a journal tells -/

/-- What is done with a task: it is handed to a worker, or failed with a message. -/
inductive Handling where
  | handedOver (worker : WorkerId) (task : ClaimedTask)
  | failed (worker : WorkerId) (task : ClaimedTask) (message : String)

namespace Entry

/-- The worker that is offered. -/
def offer? : Entry → Option WorkerId
  | offered worker => some worker
  | _ => none

/-- The worker that is no longer idle. -/
def use? : Entry → Option WorkerId
  | sent worker _ | dropped worker _ => some worker
  | _ => none

/-- The worker for which a claim is made, and the answer that it will get. -/
def question? : Entry → Option (WorkerId × Except TaskError Claim)
  | asked call answer => some (call.worker, answer)
  | _ => none

/-- The answer that arrives. -/
def answer? : Entry → Option (WorkerId × Except TaskError Claim)
  | answered worker answer _ => some (worker, answer)
  | _ => none

/-- What is to be done with the task that arrives. -/
def duty? : Entry → Option Handling
  | answered worker (.ok (.claimed task)) known =>
    if known then some (.handedOver worker task)
    else some (.failed worker task (unhandledTypeMessage task.taskType))
  | _ => none

/-- What is done with a task. -/
def handling? : Entry → Option Handling
  | sent worker task | dropped worker task => some (.handedOver worker task)
  | failed worker task message => some (.failed worker task message)
  | _ => none

/-- An answer that is no task asks for nothing. -/
lemma duty?_of_ne {answer : Except TaskError Claim} (h : ∀ task, answer ≠ .ok (.claimed task))
    (worker : WorkerId) (known : Bool) :
    (answered worker answer known).duty? = none := by
  rcases answer with e | task | _ | _
  · rfl
  · exact absurd rfl (h task)
  · rfl
  · rfl

end Entry

namespace Phase

/-- The idle worker that the scanner holds. -/
def worker? : Phase → Option WorkerId
  | scanning worker | claiming worker _ _ | delivering worker _ | backingOff worker _
  | parked worker _ => some worker
  | waiting | stopped => none

/-- The answer that is still to arrive. -/
def inFlight : Phase → List (WorkerId × Except TaskError Claim)
  | claiming worker answer _ => [(worker, answer)]
  | _ => []

/-- The task that is still to be handed over. -/
def inHand : Phase → List Handling
  | delivering worker task => [.handedOver worker task]
  | _ => []

end Phase

namespace World

variable {σ η : Type} {source : ClaimSource σ} {start world next : World σ η}
  {entries : List Entry}

/-- An event leaves the scanner itself alone. -/
structure Left (world next : World σ η) : Prop where
  phase : next.phase = world.phase
  source : next.source = world.source
  lease : next.lease = world.lease
  claims : next.log.claims = world.log.claims
  failed : next.log.failed = world.log.failed

lemma left_happen (world : World σ η) (event : Event η) : world.Left (world.happen event) := by
  cases event with
  | offer | take | dropWake | close | shutdown => exact ⟨rfl, rfl, rfl, rfl, rfl⟩
  | wake =>
      rw [happen]
      split <;> exact ⟨rfl, rfl, rfl, rfl, rfl⟩
  | register taskType handler =>
      rw [happen]
      split <;> exact ⟨rfl, rfl, rfl, rfl, rfl⟩

/-- Only an offer changes the queue of the idle workers. -/
lemma heard_offers (world : World σ η) (event : Event η) :
    (world.heard event).filterMap Entry.use? = [] ∧
      (world.happen event).offers =
        world.offers ++ (world.heard event).filterMap Entry.offer? := by
  cases event with
  | offer worker kind =>
      simp only [heard, happen, offer]
      split <;> simp [Entry.use?, Entry.offer?]
  | register taskType handler =>
      simp only [heard, happen, Registry.register]
      split <;> simp [Entry.use?, Entry.offer?]
  | wake =>
      simp only [heard, happen]
      split <;> simp
  | take | dropWake | close | shutdown =>
      simp [heard, happen, logTaken, fill, Entry.use?, Entry.offer?]

/-! ### Idle workers -/

/-- The idle workers are used up in the order in which they were offered. The scanner holds the
first of the others, and the rest wait for it. -/
def Slots (entries : List Entry) (world : World σ η) : Prop :=
  ∃ rest, entries.filterMap Entry.use? ++ rest = entries.filterMap Entry.offer? ∧
    (world.phase ≠ .stopped → rest = world.phase.worker?.toList ++ world.offers)

namespace Slots

/-- The worker that the scanner holds. -/
lemma held (h : Slots entries world) {worker : WorkerId} (hw : world.phase.worker? = some worker) :
    (entries.filterMap Entry.offer?)[(entries.filterMap Entry.use?).length]? = some worker := by
  obtain ⟨rest, hrest, hstays⟩ := h
  have hne : world.phase ≠ .stopped := by
    intro hstopped
    rw [hstopped] at hw
    cases hw
  rw [← hrest, hstays hne, hw]
  simp

lemma mem (h : Slots entries world) {worker : WorkerId} (hw : world.phase.worker? = some worker) :
    worker ∈ entries.filterMap Entry.offer? := List.mem_of_getElem? (h.held hw)

lemma happen (h : Slots entries world) (event : Event η) :
    Slots (entries ++ world.heard event) (world.happen event) := by
  obtain ⟨rest, hrest, hstays⟩ := h
  obtain ⟨hused, hoffers⟩ := world.heard_offers event
  refine ⟨rest ++ (world.heard event).filterMap Entry.offer?, ?_, fun hne => ?_⟩
  · rw [List.filterMap_append, List.filterMap_append, hused, ← hrest]
    simp
  · rw [(world.left_happen event).phase] at hne ⊢
    rw [hstays hne, hoffers, List.append_assoc]

/-- A move that hands nothing over goes on with the same worker, or takes the next one. -/
lemma aside (h : Slots entries world) {more : List Entry} (hused : more.filterMap Entry.use? = [])
    (hoffered : more.filterMap Entry.offer? = []) (hne : world.phase ≠ .stopped)
    (hnext : next.phase ≠ .stopped →
      next.phase.worker?.toList ++ next.offers = world.phase.worker?.toList ++ world.offers) :
    Slots (entries ++ more) next := by
  obtain ⟨rest, hrest, hstays⟩ := h
  refine ⟨rest, ?_, fun hstays' => ?_⟩
  · rw [List.filterMap_append, hused, List.filterMap_append, hoffered, List.append_nil,
      List.append_nil, hrest]
  · rw [hstays hne, hnext hstays']

/-- A worker that gets a task, or whose inbox is closed, is used up. -/
lemma used (h : Slots entries world) {worker : WorkerId} {entry : Entry}
    (hused : entry.use? = some worker) (hoffered : entry.offer? = none)
    (hw : world.phase.worker? = some worker) (hnext : next.phase.worker? = none)
    (hoffers : next.offers = world.offers) : Slots (entries ++ [entry]) next := by
  have hne : world.phase ≠ .stopped := by
    intro hstopped
    rw [hstopped] at hw
    cases hw
  obtain ⟨rest, hrest, hstays⟩ := h
  refine ⟨world.offers, ?_, fun _ => ?_⟩
  · rw [List.filterMap_append, List.filterMap_append, ← hrest, hstays hne, hw]
    simp [hused, hoffered]
  · rw [hnext, hoffers]
    rfl

lemma moved (h : Slots entries world)
    (reached : ∀ worker task, world.phase = .delivering worker task → world.inbox? worker ≠ none)
    {more : List Entry} (hmoved : world.Moved source more next) : Slots (entries ++ more) next := by
  cases hmoved with
  | take hphase hunheeding hoffers =>
      refine h.aside (hunheeding.filterMap_eq_nil rfl) (hunheeding.filterMap_eq_nil rfl) ?_
        fun _ => ?_ <;> simp [hphase, hoffers, Phase.worker?]
  | claim hphase =>
      refine h.aside rfl rfl ?_ fun _ => ?_ <;> simp [hphase, claim, Phase.worker?]
  | react hphase hreact =>
      cases hreact with
      | known hknown | unknown hknown =>
          refine h.aside rfl rfl ?_ fun _ => ?_ <;>
            simp [hphase, succeed, failUnhandled, Phase.worker?]
      | without hanswer backoff hnext =>
          refine h.aside rfl rfl ?_ fun _ => ?_
          · simp [hphase]
          · rcases hnext with ⟨rfl, -⟩ | ⟨due, rfl⟩ | ⟨due, rfl⟩ <;> rw [hphase] <;> rfl
  | @deliver worker task _ _ hphase hdeliver =>
      have hw : world.phase.worker? = some worker := by rw [hphase]; rfl
      cases hdeliver with
      | astray hnone => exact absurd hnone (reached _ _ hphase)
      | closed | drained | held => exact h.used rfl rfl hw rfl rfl
  | resume wake hphase hunheeding =>
      rcases hphase with ⟨due, hphase⟩ | ⟨due, hphase⟩ <;>
        refine h.aside (hunheeding.filterMap_eq_nil rfl) (hunheeding.filterMap_eq_nil rfl) ?_
          fun _ => ?_ <;> simp [hphase, Phase.worker?]
  | stop hphase =>
      rcases hphase with hphase | ⟨worker, ⟨due, hphase⟩ | ⟨due, hphase⟩⟩ <;>
        refine h.aside rfl rfl ?_ fun hne => ?_ <;> simp_all [stop]

end Slots

/-! ### Tasks -/

/-- Every answer that a claim is given arrives, in order, and what it asks for is done, in order:
at any time at most one answer is on its way, and at most one task is to be handed over. -/
structure Tasks (entries : List Entry) (world : World σ η) : Prop where
  arrive : entries.filterMap Entry.answer? ++ world.phase.inFlight =
    entries.filterMap Entry.question?
  done : entries.filterMap Entry.handling? ++ world.phase.inHand = entries.filterMap Entry.duty?

namespace Tasks

lemma aside (h : Tasks entries world) {more : List Entry}
    (silent : ∀ entry ∈ more, entry.answer? = none ∧ entry.question? = none ∧
      entry.handling? = none ∧ entry.duty? = none)
    (hflight : next.phase.inFlight = world.phase.inFlight)
    (hhand : next.phase.inHand = world.phase.inHand) : Tasks (entries ++ more) next := by
  have hanswer : more.filterMap Entry.answer? = [] :=
    List.filterMap_eq_nil_iff.mpr fun entry hentry => (silent entry hentry).1
  have hquestion : more.filterMap Entry.question? = [] :=
    List.filterMap_eq_nil_iff.mpr fun entry hentry => (silent entry hentry).2.1
  have hhandling : more.filterMap Entry.handling? = [] :=
    List.filterMap_eq_nil_iff.mpr fun entry hentry => (silent entry hentry).2.2.1
  have hduty : more.filterMap Entry.duty? = [] :=
    List.filterMap_eq_nil_iff.mpr fun entry hentry => (silent entry hentry).2.2.2
  constructor
  · rw [List.filterMap_append, List.filterMap_append, hanswer, hquestion, hflight]
    simpa using h.arrive
  · rw [List.filterMap_append, List.filterMap_append, hhandling, hduty, hhand]
    simpa using h.done

lemma happen (h : Tasks entries world) (event : Event η) :
    Tasks (entries ++ world.heard event) (world.happen event) := by
  have hphase := (world.left_happen event).phase
  refine h.aside (fun entry hentry => ?_) (by rw [hphase]) (by rw [hphase])
  cases event with
  | offer | register =>
      simp only [heard] at hentry
      split at hentry <;>
        simp_all [Entry.answer?, Entry.question?, Entry.handling?, Entry.duty?]
  | shutdown =>
      simp only [heard] at hentry
      simp_all [Entry.answer?, Entry.question?, Entry.handling?, Entry.duty?]
  | take | wake | dropWake | close => cases hentry

lemma moved (h : Tasks entries world)
    (reached : ∀ worker task, world.phase = .delivering worker task → world.inbox? worker ≠ none)
    {more : List Entry} (hmoved : world.Moved source more next) : Tasks (entries ++ more) next := by
  have overlooked {more : List Entry} (hunheeding : world.Unheeding more) :
      ∀ entry ∈ more, entry.answer? = none ∧ entry.question? = none ∧ entry.handling? = none ∧
        entry.duty? = none := by
    intro entry hentry
    rw [hunheeding.eq_overlooked entry hentry]
    exact ⟨rfl, rfl, rfl, rfl⟩
  cases hmoved with
  | take hphase hunheeding =>
      refine h.aside (overlooked hunheeding) ?_ ?_ <;>
        simp [hphase, Phase.inFlight, Phase.inHand]
  | resume wake hphase hunheeding =>
      rcases hphase with ⟨due, hphase⟩ | ⟨due, hphase⟩ <;>
        refine h.aside (overlooked hunheeding) ?_ ?_ <;>
          simp [hphase, Phase.inFlight, Phase.inHand]
  | stop hphase =>
      rcases hphase with hphase | ⟨worker, ⟨due, hphase⟩ | ⟨due, hphase⟩⟩ <;>
        refine h.aside ?_ ?_ ?_ <;> simp [hphase, stop, Phase.inFlight, Phase.inHand]
  | claim hphase =>
      obtain ⟨harrive, hdone⟩ := h
      rw [hphase] at harrive hdone
      constructor
      · simp [← harrive, List.filterMap_cons, asking, claim, Entry.answer?, Entry.question?,
          Phase.inFlight]
      · simp [← hdone, List.filterMap_cons, asking, claim, Entry.handling?, Entry.duty?,
          Phase.inHand]
  | react hphase hreact =>
      obtain ⟨harrive, hdone⟩ := h
      rw [hphase] at harrive hdone
      cases hreact with
      | known hknown =>
          constructor
          · simp [← harrive, List.filterMap_cons, succeed, Entry.answer?, Entry.question?,
              Phase.inFlight]
          · simp [← hdone, List.filterMap_cons, succeed, knows, hknown, Entry.handling?,
              Entry.duty?, Phase.inHand]
      | unknown hknown =>
          constructor
          · simp [← harrive, List.filterMap_cons, succeed, Entry.answer?, Entry.question?,
              Phase.inFlight]
          · simp [← hdone, List.filterMap_cons, succeed, knows, hknown, Entry.handling?,
              Entry.duty?, Phase.inHand]
      | without hanswer backoff hnext =>
          have hduty := Entry.duty?_of_ne hanswer
          rcases hnext with ⟨rfl, -⟩ | ⟨due, rfl⟩ | ⟨due, rfl⟩ <;> constructor <;>
            simp [← harrive, ← hdone, List.filterMap_cons, hduty, Entry.answer?, Entry.question?,
              Entry.handling?, Phase.inFlight, Phase.inHand]
  | deliver hphase hdeliver =>
      obtain ⟨harrive, hdone⟩ := h
      rw [hphase] at harrive hdone
      cases hdeliver with
      | astray hnone => exact absurd hnone (reached _ _ hphase)
      | closed | drained | held =>
          constructor
          · simp [← harrive, List.filterMap_cons, logTaken, fill, Entry.answer?, Entry.question?,
              Phase.inFlight]
          · simp [← hdone, List.filterMap_cons, logTaken, fill, Entry.handling?, Entry.duty?,
              Phase.inHand]

end Tasks

end World
end Scanner
end LeaseQueue
