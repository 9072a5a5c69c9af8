/-
The slots of idle workers that are not used up, and the inboxes that they lead to.

* `slots`, `World.load`: what there is for a worker: its slots, and the task in its inbox;
* `World.Booked`: a journal that is right about both, which events and moves keep;
* `Booked.count_offer`, `Booked.load_step`: what becomes of the offers of a worker;
* `World.Bound`, `World.why_stopped`: what a move leaves alone, and when a scanner stops;
* `World.Still`: what happens beside the slots and the inboxes;
* `World.shutInbox`: the end of an inbox.
-/
import LeaseQueue.Proofs.Scheduler.Inboxes

namespace LeaseQueue

/-! ### What the journal tells of the slots -/

namespace Scanner

/-- The task that is lost for a worker, because its inbox is closed. -/
def Entry.lost? (worker : WorkerId) : Entry → Option ClaimedTask
  | .dropped other task => if other = worker then some task else none
  | _ => none

/-- A slot that is used up brings a task to its worker, or the task is lost. -/
lemma Entry.count_use (entries : List Entry) (worker : WorkerId) :
    (entries.filterMap Entry.use?).count worker =
      (entries.filterMap (Entry.letter? worker)).length +
        (entries.filterMap (Entry.lost? worker)).length := by
  induction entries with
  | nil => rfl
  | cons entry rest ih =>
      cases entry with
      | sent other task | dropped other task =>
          obtain rfl | h := eq_or_ne other worker
          · simp only [List.filterMap_cons, use?, letter?, lost?, if_true, List.count_cons_self,
              List.length_cons, ih]
            omega
          · simpa only [List.filterMap_cons, use?, letter?, lost?, if_neg h,
              List.count_cons_of_ne h] using ih
      | offered | registered | shutdown | asked | answered | failed | overlooked =>
          simpa only [List.filterMap_cons, use?, letter?, lost?] using ih

lemma Entry.lost_eq_nil {entries : List Entry} {worker : WorkerId}
    (h : ∀ task, .dropped worker task ∉ entries) :
    entries.filterMap (Entry.lost? worker) = [] := by
  refine List.filterMap_eq_nil_iff.mpr fun entry hentry => ?_
  cases entry with
  | dropped other task =>
      refine if_neg fun hname => h task ?_
      rwa [← hname]
  | _ => rfl

/-- The slots that were offered and are not used up, in the order of their offers. -/
def slots (entries : List Entry) : List WorkerId :=
  (entries.filterMap Entry.offer?).drop (entries.filterMap Entry.use?).length

namespace World

variable {σ η : Type} {source : ClaimSource σ} {world next : World σ η}
  {entries more : List Entry} {overlooks : Bool}

lemma Slots.append_slots (h : Slots entries world) :
    entries.filterMap Entry.use? ++ slots entries = entries.filterMap Entry.offer? := by
  obtain ⟨rest, hrest, -⟩ := h
  rw [slots, ← hrest, List.drop_left]

/-- The scanner holds the first of the slots, and the others are in its queue. -/
lemma Slots.slots_eq (h : Slots entries world) (hne : world.phase ≠ .stopped) :
    slots entries = world.phase.worker?.toList ++ world.offers := by
  obtain ⟨rest, hrest, hstays⟩ := h
  rw [slots, ← hrest, List.drop_left, hstays hne]

/-- What there is for a worker: its slots that are not used up, and the task in its inbox. -/
def load (entries : List Entry) (world : World σ η) (worker : WorkerId) : Nat :=
  (slots entries).count worker + (world.letter worker).toList.length

/-- The journal is right about the slots and the inboxes. -/
structure Booked (world : World σ η) (entries : List Entry) : Prop where
  slots : Slots entries world
  mail : Mail entries world

namespace Booked

lemma happen (h : world.Booked entries) (event : Event η) :
    (world.happen event).Booked (entries ++ world.heard event) :=
  ⟨h.slots.happen event, h.mail.happen event⟩

/-- The scanner hands tasks only to workers that were offered. -/
lemma reached (h : world.Booked entries) (worker : WorkerId) (task : ClaimedTask)
    (hphase : world.phase = .delivering worker task) : world.inbox? worker ≠ none :=
  h.mail.reached worker (h.slots.mem (by rw [hphase]; rfl))

lemma moved (h : world.Booked entries) (hmoved : world.Moved source more next) :
    next.Booked (entries ++ more) :=
  ⟨h.slots.moved h.reached hmoved, h.mail.moved hmoved⟩

/-- What changes neither the scanner nor the inboxes. -/
lemma same (h : world.Booked entries) (phase : next.phase = world.phase)
    (offers : next.offers = world.offers) (inboxes : next.inboxes = world.inboxes)
    (taken : next.log.taken = world.log.taken) : next.Booked entries := by
  have hmail := h.mail.aside (List.forall_mem_nil _) inboxes taken
  rw [List.append_nil] at hmail
  obtain ⟨rest, hrest, hstays⟩ := h.slots
  exact ⟨⟨rest, hrest, by rw [phase, offers]; exact hstays⟩, hmail⟩

/-- Every offer is still there, or has brought a task to the worker, or the task was lost. -/
lemma count_offer (h : world.Booked entries) (worker : WorkerId) :
    (entries.filterMap Entry.offer?).count worker =
      (entries.filterMap (Entry.lost? worker)).length + (world.takenBy worker).length +
        world.load entries worker := by
  rw [← h.slots.append_slots, List.count_append, Entry.count_use, ← h.mail.letters,
    List.length_append, load]
  omega

/-- What there is for a worker behind a step. -/
lemma load_step (h : world.Booked entries) (h' : next.Booked (entries ++ more))
    (worker : WorkerId) :
    next.load (entries ++ more) worker + (next.takenBy worker).length +
        (more.filterMap (Entry.lost? worker)).length =
      world.load entries worker + (world.takenBy worker).length +
        (more.filterMap Entry.offer?).count worker := by
  have hbefore := h.count_offer worker
  have hbehind := h'.count_offer worker
  rw [List.filterMap_append, List.count_append, List.filterMap_append, List.length_append]
    at hbehind
  omega

lemma load_same (h : world.Booked entries) (h' : next.Booked (entries ++ more))
    (taken : next.log.taken = world.log.taken) (hoffered : more.filterMap Entry.offer? = [])
    {worker : WorkerId} (hlost : more.filterMap (Entry.lost? worker) = []) :
    next.load (entries ++ more) worker = world.load entries worker := by
  have hstep := h.load_step h' worker
  rw [hlost, hoffered, takenBy, takenBy, taken, List.count_nil, List.length_nil] at hstep
  omega

end Booked

/-! ### What a move of the scanner leaves alone -/

/-- The inboxes by their kinds. -/
def locks (world : World σ η) : List (WorkerId × InboxKind) :=
  world.inboxes.map fun inbox => (inbox.worker, inbox.kind)

lemma mem_locks {worker : WorkerId} {inbox : Inbox} (h : world.inbox? worker = some inbox) :
    (worker, inbox.kind) ∈ world.locks :=
  List.mem_map.mpr ⟨inbox, List.mem_of_find?_eq_some h, by rw [inbox?_worker h]⟩

lemma locks_fill (world : World σ η) (worker : WorkerId) (content : Option ClaimedTask) :
    (world.fill worker content).locks = world.locks := by
  rw [locks, fill, List.map_map]
  refine List.map_congr_left fun inbox _ => ?_
  simp only [Function.comp_apply]
  split <;> rfl

lemma locks_offer (world : World σ η) (worker : WorkerId) (kind : InboxKind) :
    (world.offer worker kind).locks = world.locks ∨
      (world.offer worker kind).locks = world.locks ++ [(worker, kind)] := by
  have hlocks : (world.offer worker kind).locks =
      (if (world.inbox? worker).isSome then world.inboxes
        else world.inboxes ++ [⟨worker, kind, none⟩]).map
          fun inbox => (inbox.worker, inbox.kind) := rfl
  rw [hlocks]
  split
  · exact .inl rfl
  · exact .inr List.map_append

/-- What a move leaves alone where no worker empties its inbox at once. -/
structure Bound (world : World σ η) (more : List Entry) (next : World σ η) : Prop where
  isOpen : next.isOpen = world.isOpen
  capacity : next.capacity = world.capacity
  locks : next.locks = world.locks
  taken : next.log.taken = world.log.taken
  offered : more.filterMap Entry.offer? = []

lemma bound_of_moved (held : ∀ lock ∈ world.locks, lock.2 ≠ .drained)
    (h : world.Moved source more next) : world.Bound more next := by
  cases h with
  | claim | stop => exact ⟨rfl, rfl, rfl, rfl, rfl⟩
  | take _ hunheeding | resume _ _ hunheeding =>
      exact ⟨rfl, rfl, rfl, rfl, hunheeding.filterMap_eq_nil rfl⟩
  | react _ hreact =>
      cases hreact with
      | known | unknown | without => exact ⟨rfl, rfl, rfl, rfl, rfl⟩
  | deliver _ hdeliver =>
      cases hdeliver with
      | astray | closed => exact ⟨rfl, rfl, rfl, rfl, rfl⟩
      | drained hinbox hkind => exact absurd hkind (held _ (mem_locks hinbox))
      | held => exact ⟨rfl, rfl, locks_fill _ _ _, rfl, rfl⟩

/-- The move by which a scanner stops. -/
lemma stop_of_moved (h : world.Moved source more next) (hstopped : next.phase = .stopped) :
    more = [] ∧ next.offers = world.offers ∧
      (world.phase = .waiting ∨ ∃ worker, Rests world.phase worker) := by
  cases h with
  | take | claim | resume => cases hstopped
  | stop hphase => exact ⟨rfl, rfl, hphase⟩
  | react _ hreact =>
      cases hreact with
      | known | unknown => cases hstopped
      | without hanswer backoff hphase =>
          rcases hphase with ⟨rfl, -⟩ | ⟨due, rfl⟩ | ⟨due, rfl⟩ <;> cases hstopped
  | deliver _ hdeliver =>
      cases hdeliver with
      | astray | closed | drained | held => cases hstopped

/-- A scanner stops for a shutdown, or when no more workers will be offered. -/
lemma why_stopped (h : world.move? source overlooks = some next)
    (hstopped : next.phase = .stopped) :
    world.shutdown = true ∨ world.isOpen = false := by
  have why {ended : Bool} (hwait : world.wait? ended overlooks = some next) :
      world.shutdown = true ∨ ended = true := by
    rcases wait?_cases hwait with ⟨-, -, hends⟩ | ⟨hresume, -⟩
    · exact hends
    · rcases resume?_cases hresume with ⟨_, _, -, -, rfl⟩ | ⟨_, _, -, -, rfl⟩ <;> cases hstopped
  obtain ⟨-, -, hphase⟩ := stop_of_moved (moved_of_move? h) hstopped
  rw [move?] at h
  rcases hphase with hphase | ⟨worker, ⟨due, hphase⟩ | ⟨due, hphase⟩⟩ <;> simp only [hphase] at h
  · exact (why h).imp_right fun hended => by simpa using hended
  · exact (why h).imp_right fun hfalse => absurd hfalse Bool.false_ne_true
  · exact (why h).imp_right fun hfalse => absurd hfalse Bool.false_ne_true

/-! ### What happens beside the slots -/

/-- Neither the slots nor the kinds of the inboxes have changed. Perhaps there was a shutdown. -/
structure Still (world next : World σ η) : Prop where
  phase : next.phase = world.phase
  offers : next.offers = world.offers
  locks : next.locks = world.locks
  capacity : next.capacity = world.capacity
  isOpen : next.isOpen = world.isOpen
  shutdown : world.shutdown = true → next.shutdown = true

/-- What others do, apart from the workers. -/
def Event.Aside : Event η → Prop
  | .offer _ _ | .take _ | .close => False
  | .wake | .dropWake | .register _ _ | .shutdown => True

variable {event : Event η}

lemma still_aside (world : World σ η) (h : event.Aside) :
    world.Still (world.happen event) ∧ (world.happen event).log = world.log := by
  cases event with
  | offer | take | close => exact h.elim
  | dropWake => exact ⟨⟨rfl, rfl, rfl, rfl, rfl, id⟩, rfl⟩
  | shutdown => exact ⟨⟨rfl, rfl, rfl, rfl, rfl, fun _ => rfl⟩, rfl⟩
  | wake =>
      rw [happen]
      split <;> exact ⟨⟨rfl, rfl, rfl, rfl, rfl, id⟩, rfl⟩
  | register taskType handler =>
      rw [happen]
      split <;> exact ⟨⟨rfl, rfl, rfl, rfl, rfl, id⟩, rfl⟩

lemma heard_aside (world : World σ η) (h : event.Aside) :
    (world.heard event).filterMap Entry.offer? = [] := by
  have hoffers := (world.heard_offers event).2
  rwa [(world.still_aside h).1.offers, List.self_eq_append_right] at hoffers

lemma still_take (world : World σ η) (worker : WorkerId) :
    world.Still (world.happen (.take worker)) :=
  ⟨rfl, rfl, locks_fill world worker none, rfl, rfl, id⟩

lemma lost_heard (world : World σ η) (event : Event η) (worker : WorkerId) :
    (world.heard event).filterMap (Entry.lost? worker) = [] := by
  cases event with
  | offer | register =>
      rw [heard]
      split <;> rfl
  | take | wake | dropWake | close | shutdown => rfl

/-- The inbox of a worker that has gone is closed. -/
def shutInbox (world : World σ η) (worker : WorkerId) : World σ η :=
  { world with inboxes := world.inboxes.map fun inbox =>
      if inbox.worker == worker then { inbox with kind := .closed } else inbox }

lemma inbox?_shutInbox (world : World σ η) (worker other : WorkerId) :
    (world.shutInbox worker).inbox? other =
      (world.inbox? other).map fun inbox =>
        if inbox.worker == worker then { inbox with kind := .closed } else inbox := by
  rw [shutInbox, inbox?, inbox?, List.find?_map]
  congr 1
  refine congrArg (fun p => List.find? p world.inboxes) (funext fun inbox => ?_)
  simp only [Function.comp_apply]
  split <;> rfl

lemma letter_shutInbox (world : World σ η) (worker other : WorkerId) :
    (world.shutInbox worker).letter other = world.letter other := by
  rw [letter, inbox?_shutInbox, Option.bind_map, letter]
  refine congrArg _ (funext fun inbox => ?_)
  simp only [Function.comp_apply]
  split <;> rfl

/-- An inbox is empty when it is closed. -/
lemma Booked.shut (h : world.Booked entries) {worker : WorkerId}
    (hempty : world.letter worker = none) : (world.shutInbox worker).Booked entries := by
  obtain ⟨rest, hrest, hstays⟩ := h.slots
  refine ⟨⟨rest, hrest, hstays⟩, ?_⟩
  refine ⟨fun name hname hnone => ?_, fun name inbox hinbox hfull => ?_, fun name => ?_,
    fun name task hdropped => ?_⟩
  · rw [inbox?_shutInbox, Option.map_eq_none_iff] at hnone
    exact h.mail.reached name hname hnone
  · rw [inbox?_shutInbox] at hinbox
    obtain ⟨old, hold, rfl⟩ := Option.map_eq_some_iff.mp hinbox
    split at hfull <;> rename_i hname
    · have hsame : name = worker := (inbox?_worker hold).symm.trans (by simpa using hname)
      rw [hsame] at hold
      rw [letter, hold, Option.bind_some] at hempty
      exact absurd hempty hfull
    · rw [if_neg hname]
      exact h.mail.full name old hold hfull
  · rw [letter_shutInbox]
    exact h.mail.letters name
  · obtain ⟨inbox, hinbox, hkind⟩ := Option.map_eq_some_iff.mp (h.mail.closed name task hdropped)
    rw [inbox?_shutInbox, hinbox, Option.map_some, Option.map_some]
    split
    · rfl
    · rw [hkind]

end World
end Scanner
end LeaseQueue
