/-
A scanner neither loses nor mixes up its tasks and its idle workers.

* `Entry.Fits`: what a claim and an answer say fits what was written before;
* `World.Kept`: the journal tells the registry, the source of claims and the log;
* `World.Fresh`: a scanner before its first move;
* `World.Account`: the whole account of a scanner, which every step keeps;
* `Simulation.account`, `Simulation.tasks_and_slots`: hence it holds at any time.
-/
import LeaseQueue.Proofs.Scheduler.Inboxes
import LeaseQueue.Proofs.Scheduler.TypeOrder

namespace LeaseQueue

namespace Scanner

/-- A type that had a handler at the start, or has got one since. -/
def World.Registered {σ η : Type} (start : World σ η) (entries : List Entry)
    (taskType : String) : Prop :=
  taskType ∈ start.registry.types ∨ .registered taskType ∈ entries

namespace Entry

/-- A claim, as the log has it. -/
def call? : Entry → Option ClaimCall
  | asked call _ => some call
  | _ => none

/-- A failed task, as the log has it. -/
def failure? : Entry → Option (TaskId × String)
  | failed _ task message => some (task.id, message)
  | _ => none

variable {σ η : Type} (source : ClaimSource σ)

/-- What an entry does to the source of claims. -/
def through (state : σ) : Entry → σ
  | asked call _ => (source.claim state call.types call.worker call.lease).source
  | failed _ task message => source.failUnhandled state task message
  | _ => state

/-- A claim is made for the first idle worker that is not used up, and for the types that have a
handler, in the order of their bytes; the source answers it. A task that arrives is known if its
type has a handler. -/
def Fits (start : World σ η) (before : List Entry) : Entry → Prop
  | asked call answer =>
    (before.filterMap offer?)[(before.filterMap use?).length]? = some call.worker ∧
      (∀ taskType, taskType ∈ call.types ↔ start.Registered before taskType) ∧
      call.types.Pairwise (fun first second => Text.bytes first < Text.bytes second) ∧
      call.lease = start.lease ∧
      answer = (source.claim (before.foldl (through source) start.source) call.types
        call.worker call.lease).answer
  | answered _ answer known =>
    ∀ task, answer = .ok (.claimed task) → (known = true ↔ start.Registered before task.taskType)
  | _ => True

end Entry

namespace World

variable {σ η : Type} {source : ClaimSource σ} {start world next : World σ η}
  {entries more : List Entry}

/-! ### What the journal tells of the scanner -/

/-- The journal tells the types that have a handler, the source of claims and the log. -/
structure Kept (source : ClaimSource σ) (start : World σ η) (entries : List Entry)
    (world : World σ η) : Prop where
  types : ∀ taskType, taskType ∈ world.registry.types ↔ start.Registered entries taskType
  ascending : world.registry.Ascending
  source : world.source = entries.foldl (Entry.through source) start.source
  lease : world.lease = start.lease
  claims : world.log.claims = entries.filterMap Entry.call?
  failed : world.log.failed.map (fun failure => (failure.id, failure.message)) =
    entries.filterMap Entry.failure?

namespace Kept

lemma change (h : Kept source start entries world)
    (types : ∀ taskType, taskType ∈ next.registry.types ↔
      taskType ∈ world.registry.types ∨ .registered taskType ∈ more)
    (ascending : next.registry.Ascending)
    (hsource : next.source = more.foldl (Entry.through source) world.source)
    (lease : next.lease = world.lease)
    (claims : next.log.claims = world.log.claims ++ more.filterMap Entry.call?)
    (failed : next.log.failed.map (fun failure => (failure.id, failure.message)) =
      world.log.failed.map (fun failure => (failure.id, failure.message)) ++
        more.filterMap Entry.failure?) :
    Kept source start (entries ++ more) next where
  types taskType := by
    rw [types, h.types, Registered, Registered, List.mem_append, or_assoc]
  ascending := ascending
  source := by rw [hsource, List.foldl_append, h.source]
  lease := lease.trans h.lease
  claims := by rw [claims, h.claims, List.filterMap_append]
  failed := by rw [failed, h.failed, List.filterMap_append]

lemma register (h : Kept source start entries world) (taskType : String) (handler : η) :
    Kept source start (entries ++ world.heard (.register taskType handler))
      (world.happen (.register taskType handler)) := by
  rw [heard, World.happen]
  by_cases hmem : taskType ∈ world.registry.types
  · rw [if_pos (Registry.contains_iff.mpr hmem), Registry.register_of_mem hmem]
    simpa using h
  · rw [if_neg (Registry.contains_iff.not.mpr hmem), Registry.register_of_not_mem hmem]
    refine h.change (fun other => ?_) (Registry.ascending_place hmem h.ascending) rfl rfl
      (List.append_nil _).symm (List.append_nil _).symm
    simp only [Registry.mem_types_place, List.mem_singleton, Entry.registered.injEq]
    exact or_comm

/-- Most of what happens leaves the registry alone. -/
lemma still (h : Kept source start entries world) (registry : next.registry = world.registry)
    (silent : ∀ taskType, .registered taskType ∉ more)
    (hsource : next.source = more.foldl (Entry.through source) world.source)
    (lease : next.lease = world.lease)
    (claims : next.log.claims = world.log.claims ++ more.filterMap Entry.call?)
    (failed : next.log.failed.map (fun failure => (failure.id, failure.message)) =
      world.log.failed.map (fun failure => (failure.id, failure.message)) ++
        more.filterMap Entry.failure?) :
    Kept source start (entries ++ more) next :=
  h.change (fun taskType => by rw [registry]; exact (or_iff_left (silent taskType)).symm)
    (registry ▸ h.ascending) hsource lease claims failed

lemma happen (h : Kept source start entries world) (event : Event η) :
    Kept source start (entries ++ world.heard event) (world.happen event) := by
  have hnil {xs : List ClaimCall} : xs = xs ++ [] := (List.append_nil xs).symm
  cases event with
  | register taskType handler => exact h.register taskType handler
  | offer worker kind =>
      rw [heard, World.happen]
      split <;> exact h.still rfl (by simp) rfl rfl hnil (List.append_nil _).symm
  | wake =>
      rw [heard, World.happen]
      split <;> exact h.still rfl (by simp) rfl rfl hnil (List.append_nil _).symm
  | take | dropWake | close | shutdown =>
      exact h.still rfl (by simp [heard]) rfl rfl hnil (List.append_nil _).symm

lemma moved (h : Kept source start entries world) (hmoved : world.Moved source more next) :
    Kept source start (entries ++ more) next := by
  have hnil {xs : List ClaimCall} : xs = xs ++ [] := (List.append_nil xs).symm
  cases hmoved with
  | stop => exact h.still rfl (by simp) rfl rfl hnil (List.append_nil _).symm
  | take _ hunheeding | resume _ _ hunheeding =>
      cases hunheeding <;> exact h.still rfl (by simp) rfl rfl hnil (List.append_nil _).symm
  | claim hphase =>
      exact h.still rfl (by simp [asking]) rfl rfl rfl (List.append_nil _).symm
  | react hphase hreact =>
      cases hreact with
      | known | without =>
          exact h.still rfl (by simp) rfl rfl hnil (List.append_nil _).symm
      | unknown =>
          exact h.still rfl (by simp) rfl rfl hnil List.map_append
  | deliver hphase hdeliver =>
      cases hdeliver with
      | astray | closed | drained | held =>
          exact h.still rfl (by simp) rfl rfl hnil (List.append_nil _).symm

end Kept

/-! ### The account -/

/-- A scanner before its first move. -/
structure Fresh (world : World σ η) : Prop where
  phase : world.phase = .waiting
  offers : world.offers = []
  inboxes : world.inboxes = []
  log : world.log = {}
  ascending : world.registry.Ascending

/-- What a journal that began at a fresh scanner tells of it. -/
structure Account (source : ClaimSource σ) (start : World σ η) (entries : List Entry)
    (world : World σ η) : Prop where
  slots : Slots entries world
  tasks : Tasks entries world
  mail : Mail entries world
  kept : Kept source start entries world
  fits : ∀ before entry after, entries = before ++ entry :: after →
    entry.Fits source start before

namespace Account

lemma fresh (h : start.Fresh) : Account source start [] start where
  slots := ⟨[], rfl, fun _ => by rw [h.phase, h.offers]; rfl⟩
  tasks := ⟨by rw [h.phase]; rfl, by rw [h.phase]; rfl⟩
  mail := by
    have hinbox (worker : WorkerId) : start.inbox? worker = none := by
      rw [inbox?, h.inboxes]
      rfl
    refine ⟨by simp, fun worker inbox hsome => ?_, fun worker => ?_, by simp⟩
    · rw [hinbox] at hsome
      cases hsome
    · rw [takenBy, h.log, letter, hinbox]
      rfl
  kept := ⟨by simp [Registered], h.ascending, rfl, rfl, by rw [h.log]; rfl, by rw [h.log]; rfl⟩
  fits := by simp

/-- The worker to whom a task is handed over has an inbox. -/
lemma reached (h : Account source start entries world) (worker : WorkerId) (task : ClaimedTask)
    (hphase : world.phase = .delivering worker task) : world.inbox? worker ≠ none :=
  h.mail.reached worker (h.slots.mem (by rw [hphase]; rfl))

lemma happen (h : Account source start entries world) (event : Event η) :
    Account source start (entries ++ world.heard event) (world.happen event) where
  slots := h.slots.happen event
  tasks := h.tasks.happen event
  mail := h.mail.happen event
  kept := h.kept.happen event
  fits := by
    have hone : world.heard event = [] ∨
        ∃ entry, world.heard event = [entry] ∧ entry.Fits source start entries := by
      cases event with
      | offer =>
          rw [heard]
          split
          · exact .inr ⟨_, rfl, trivial⟩
          · exact .inl rfl
      | register =>
          rw [heard]
          split
          · exact .inl rfl
          · exact .inr ⟨_, rfl, trivial⟩
      | shutdown => exact .inr ⟨_, rfl, trivial⟩
      | take | wake | dropWake | close => exact .inl rfl
    rcases hone with hnone | ⟨entry, hentry, hfits⟩
    · simpa [hnone] using h.fits
    · rw [hentry]
      exact Entry.forall_concat h.fits hfits

/-- A claim fits what was written before. -/
lemma asking (h : Account source start entries world) {worker : WorkerId}
    (hphase : world.phase = .scanning worker) :
    (world.asking source worker).Fits source start entries := by
  refine ⟨h.slots.held (by rw [hphase]; rfl), h.kept.types, ?_, h.kept.lease, ?_⟩
  · exact h.kept.ascending.imp Text.bytes_lt_iff.mpr
  · rw [← h.kept.source]

/-- So does an answer. -/
lemma answered (h : Account source start entries world) (worker : WorkerId)
    (answer : Except TaskError Claim) :
    (Entry.answered worker answer (world.knows answer)).Fits source start entries := by
  rintro task rfl
  rw [knows, Registry.contains_iff, h.kept.types]

lemma moved (h : Account source start entries world) (hmoved : world.Moved source more next) :
    Account source start (entries ++ more) next where
  slots := h.slots.moved h.reached hmoved
  tasks := h.tasks.moved h.reached hmoved
  mail := h.mail.moved hmoved
  kept := h.kept.moved hmoved
  fits := by
    cases hmoved with
    | stop => simpa using h.fits
    | take _ hunheeding | resume _ _ hunheeding =>
        cases hunheeding with
        | calm => simpa using h.fits
        | overlooked => exact Entry.forall_concat h.fits trivial
    | claim hphase => exact Entry.forall_concat h.fits (h.asking hphase)
    | @react worker answer _ _ _ hphase hreact =>
        have hanswered := Entry.forall_concat h.fits (h.answered worker answer)
        cases hreact with
        | known | without => exact hanswered
        | @unknown task =>
            have hfailed (before : List Entry) : (Entry.failed worker task
              (unhandledTypeMessage task.taskType)).Fits source start before := trivial
            simpa using Entry.forall_concat hanswered (hfailed _)
    | deliver hphase hdeliver =>
        cases hdeliver with
        | astray => simpa using h.fits
        | closed | drained | held => exact Entry.forall_concat h.fits trivial

/-- Time does not matter. -/
lemma jump (h : Account source start entries world) (now : Nat) :
    Account source start (entries ++ []) { world with now } := by
  rw [List.append_nil]
  exact ⟨h.slots, { h.tasks with }, { h.mail with }, { h.kept with }, h.fits⟩

end Account

/-- A task waits only for a held inbox that is full. -/
lemma full_of_move? {worker : WorkerId} {task : ClaimedTask} (hmove : world.move? source = none)
    (hphase : world.phase = .delivering worker task) (hinbox : world.inbox? worker ≠ none) :
    (world.inbox? worker).map Inbox.kind = some .held ∧ world.letter worker ≠ none := by
  obtain ⟨inbox, hsome⟩ := Option.ne_none_iff_exists'.mp hinbox
  simp only [move?, hphase, deliver?, hsome] at hmove
  split at hmove
  · cases hmove
  · cases hmove
  · rename_i hkind
    split at hmove
    · rename_i hfull
      rw [letter, hsome, Option.map_some, hkind]
      exact ⟨rfl, Option.isSome_iff_ne_none.mp hfull⟩
    · cases hmove

end World
end Scanner

/-! ### Simulations -/

namespace Simulation

open Scanner

variable {σ η : Type}

/-- The account of a scanner holds at any time. -/
lemma account (source : ClaimSource σ) {sim : Simulation σ η} (fresh : sim.world.Fresh) (n : Nat) :
    World.Account source sim.world (sim.journal source n) (sim.run source n).world := by
  refine run_keeps (fun entries next => World.Account source sim.world entries next.world)
    (fun h hgoes => ?_) (World.Account.fresh fresh) n
  cases hgoes with
  | event => exact h.happen _
  | move _ hmoved => exact h.moved hmoved
  | jump => exact h.jump _

/-- A scanner neither loses nor mixes up its tasks and its idle workers. At any time:

* the idle workers are used up in the order of their offers, each by a task that is handed to it;
  of the others the scanner holds the first, and the rest wait, until it has stopped;
* every claim is made for the first worker that is not used up, for the types that have a handler
  at that time, in strictly ascending order of their bytes, and the source answers it;
* every answer arrives, in order, but for the one that is on its way, and when a task arrives it
  is known whether its type has a handler;
* hence every task is handled, in order: it is handed to the worker for which it was claimed or,
  if its type has no handler, failed with the message for this type; at most the last one is still
  to be handed over;
* what is sent to a worker is what it takes and what is in its inbox, in order; a task is lost
  only to a closed inbox, and waits only for a full one;
* the log has all claims and all failed tasks. -/
theorem tasks_and_slots (source : ClaimSource σ) {sim : Simulation σ η} (fresh : sim.world.Fresh)
    (n : Nat) :
    let entries := sim.journal source n
    let world := (sim.run source n).world
    (∃ rest, entries.filterMap Entry.use? ++ rest = entries.filterMap Entry.offer? ∧
      (world.phase ≠ .stopped → rest = world.phase.worker?.toList ++ world.offers)) ∧
    (∀ before call answer after, entries = before ++ .asked call answer :: after →
      (before.filterMap Entry.offer?)[(before.filterMap Entry.use?).length]? = some call.worker ∧
      (∀ taskType, taskType ∈ call.types ↔ sim.world.Registered before taskType) ∧
      call.types.Pairwise (fun first second => Text.bytes first < Text.bytes second) ∧
      answer = (source.claim (before.foldl (Entry.through source) sim.world.source) call.types
        call.worker call.lease).answer) ∧
    entries.filterMap Entry.answer? ++ world.phase.inFlight =
      entries.filterMap Entry.question? ∧
    (∀ before worker task known after,
      entries = before ++ .answered worker (.ok (.claimed task)) known :: after →
      (known = true ↔ sim.world.Registered before task.taskType)) ∧
    entries.filterMap Entry.handling? ++ world.phase.inHand = entries.filterMap Entry.duty? ∧
    (∀ worker, world.takenBy worker ++ (world.letter worker).toList =
      entries.filterMap (Entry.letter? worker)) ∧
    (∀ worker task, .dropped worker task ∈ entries →
      (world.inbox? worker).map Inbox.kind = some .closed) ∧
    (∀ worker task, world.phase = .delivering worker task → world.move? source = none →
      (world.inbox? worker).map Inbox.kind = some .held ∧ world.letter worker ≠ none) ∧
    world.log.claims = entries.filterMap Entry.call? ∧
    world.log.failed.map (fun failure => (failure.id, failure.message)) =
      entries.filterMap Entry.failure? := by
  intro entries world
  have account : World.Account source sim.world entries world := sim.account source fresh n
  refine ⟨account.slots, fun before call answer after hsplit => ?_, account.tasks.arrive,
    fun before worker task known after hsplit => ?_, account.tasks.done, account.mail.letters,
    account.mail.closed, fun worker task hphase hmove => ?_, account.kept.claims,
    account.kept.failed⟩
  · obtain ⟨hworker, htypes, hbytes, -, hanswer⟩ := account.fits before _ after hsplit
    exact ⟨hworker, htypes, hbytes, hanswer⟩
  · exact account.fits before _ after hsplit task rfl
  · exact World.full_of_move? hmove hphase (account.reached worker task hphase)

end Simulation

namespace ScannerScript

open Scanner

/-- A script begins with a fresh scanner. -/
lemma start_fresh (script : ScannerScript) : script.start.world.Fresh where
  phase := rfl
  offers := rfl
  inboxes := rfl
  log := rfl
  ascending := Registry.ascending_registerAll Registry.ascending_empty _

/-- Letters are handled from the start, and parcels later on; the second worker is gone. -/
def errands : ScannerScript where
  types := ["letter"]
  lease := .ofSeconds 60
  fallback := none
  backoff := .standard
  claims := [⟨0, .ok .contended⟩, ⟨0, .ok (.claimed ⟨1, "parcel", .null, ""⟩)⟩,
    ⟨10, .ok (.claimed ⟨2, "parcel", .null, ""⟩)⟩, ⟨0, .ok (.claimed ⟨3, "letter", .null, ""⟩)⟩]
  events := [(1, .offer "first" .drained), (1, .offer "second" .closed), (5, .register "parcel" ()),
    (20, .offer "third" .held)]
  endsAt := 30

/-- The first parcel is failed, the second one goes to the first worker, the letter is lost with
the second worker, and the third one stays idle. -/
theorem errands_handled :
    let entries := errands.start.journal scriptedSource 40
    let world := (errands.start.run scriptedSource 40).world
    errands.start.world.Fresh ∧ world.log.failed.map FailCall.id = [1] ∧
      (world.takenBy "first").map ClaimedTask.id = [2] ∧
      entries.filterMap Entry.use? = ["first", "second"] ∧
      (∃ rest, entries.filterMap Entry.use? ++ rest = entries.filterMap Entry.offer? ∧
        (world.phase ≠ .stopped → rest = world.phase.worker?.toList ++ world.offers)) ∧
      entries.filterMap Entry.handling? ++ world.phase.inHand = entries.filterMap Entry.duty? := by
  intro entries world
  obtain ⟨slots, -, -, -, tasks, -⟩ :=
    Simulation.tasks_and_slots scriptedSource errands.start_fresh 40
  exact ⟨errands.start_fresh, by decide +kernel, by decide +kernel, by decide +kernel, slots, tasks⟩

end ScannerScript
end LeaseQueue
