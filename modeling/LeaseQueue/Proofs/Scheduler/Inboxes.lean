/-
The inboxes of the workers: what is sent to a worker comes to it, in order.

* `World.inbox?_offer`, `World.inbox?_fill`: what becomes of inboxes;
* `World.takenBy`, `World.letter`: what a worker has taken, and what is in its inbox;
* `World.Mail`: both are what was sent to the worker;
* `Mail.happen`, `Mail.moved`: events and moves keep that.
-/
import LeaseQueue.Proofs.Scheduler.Ledger

namespace LeaseQueue

namespace Scanner

/-- The task that is put into the inbox of a worker. -/
def Entry.letter? (worker : WorkerId) : Entry → Option ClaimedTask
  | .sent other task => if other = worker then some task else none
  | _ => none

namespace World

variable {σ η : Type} {source : ClaimSource σ} {world next : World σ η} {entries : List Entry}

lemma inbox?_worker {worker : WorkerId} {inbox : Inbox} (h : world.inbox? worker = some inbox) :
    inbox.worker = worker := by
  simpa using List.find?_some h

/-- An offer makes the inbox of a worker that has none. -/
lemma inbox?_offer (world : World σ η) (worker other : WorkerId) (kind : InboxKind) :
    (world.offer worker kind).inbox? other =
      (world.inbox? other).or (if worker = other then some ⟨worker, kind, none⟩ else none) := by
  have hoffer : (world.offer worker kind).inbox? other =
      (if (world.inbox? worker).isSome then world.inboxes
        else world.inboxes ++ [⟨worker, kind, none⟩]).find?
          fun inbox => inbox.worker == other := rfl
  rw [hoffer]
  split
  · rename_i hsome
    by_cases hother : worker = other
    · subst hother
      obtain ⟨inbox, hinbox⟩ := Option.isSome_iff_exists.mp hsome
      rw [hinbox]
      exact hinbox
    · rw [if_neg hother, Option.or_none]
      rfl
  · rw [List.find?_append]
    by_cases hother : worker = other
    · simp [inbox?, hother]
    · simp [inbox?, hother]

lemma inbox?_fill (world : World σ η) (worker other : WorkerId) (content : Option ClaimedTask) :
    (world.fill worker content).inbox? other =
      (world.inbox? other).map fun inbox =>
        if other = worker then { inbox with content } else inbox := by
  have hfill : (world.fill worker content).inbox? other =
      (world.inboxes.map fun inbox =>
        if inbox.worker == worker then { inbox with content } else inbox).find?
          fun inbox => inbox.worker == other := rfl
  rw [hfill, List.find?_map]
  have hsame : ((fun inbox : Inbox => inbox.worker == other) ∘ fun inbox =>
      if inbox.worker == worker then { inbox with content } else inbox) =
        fun inbox => inbox.worker == other := by
    funext inbox
    simp only [Function.comp_apply]
    split <;> rfl
  rw [hsame]
  cases hinbox : world.inbox? other with
  | none =>
      rw [inbox?] at hinbox
      rw [hinbox]
      rfl
  | some inbox =>
      have hworker := inbox?_worker hinbox
      rw [inbox?] at hinbox
      rw [hinbox]
      simp [hworker]

/-- The tasks that a worker has taken. -/
def takenBy (world : World σ η) (worker : WorkerId) : List ClaimedTask :=
  world.log.taken.filterMap fun taken => if taken.worker = worker then taken.task else none

/-- The task in the inbox of a worker. -/
def letter (world : World σ η) (worker : WorkerId) : Option ClaimedTask :=
  (world.inbox? worker).bind Inbox.content

lemma letter_offer (world : World σ η) (worker other : WorkerId) (kind : InboxKind) :
    (world.offer worker kind).letter other = world.letter other := by
  rw [letter, letter, inbox?_offer]
  cases world.inbox? other with
  | none =>
      rw [Option.none_or]
      split <;> rfl
  | some inbox => rfl

lemma letter_fill (world : World σ η) (worker other : WorkerId) (content : Option ClaimedTask) :
    (world.fill worker content).letter other =
      if other = worker then (world.inbox? other).bind fun _ => content
      else world.letter other := by
  rw [letter, letter, inbox?_fill]
  cases world.inbox? other with
  | none => simp
  | some inbox => by_cases h : other = worker <;> simp [h]

lemma takenBy_logTaken (world : World σ η) (worker other : WorkerId) (task : Option ClaimedTask) :
    (world.logTaken worker task).takenBy other =
      world.takenBy other ++ if worker = other then task.toList else [] := by
  have hlog : (world.logTaken worker task).takenBy other =
      (world.log.taken ++ [(⟨world.now, worker, task⟩ : Taken)]).filterMap fun taken =>
        if taken.worker = other then taken.task else none := rfl
  rw [hlog, List.filterMap_append, takenBy]
  by_cases h : worker = other
  · cases task <;> simp [h]
  · simp [h]

/-- What a worker has taken and what is in its inbox is what was sent to it, in order. -/
structure Mail (entries : List Entry) (world : World σ η) : Prop where
  reached : ∀ worker ∈ entries.filterMap Entry.offer?, world.inbox? worker ≠ none
  full : ∀ worker inbox, world.inbox? worker = some inbox → inbox.content ≠ none →
    inbox.kind = .held
  letters : ∀ worker, world.takenBy worker ++ (world.letter worker).toList =
    entries.filterMap (Entry.letter? worker)
  closed : ∀ worker task, .dropped worker task ∈ entries →
    (world.inbox? worker).map Inbox.kind = some .closed

namespace Mail

/-- What may happen to the inboxes: their kinds stay, and the tasks that are sent come last. -/
lemma change (h : Mail entries world) {more : List Entry}
    (reached : ∀ worker ∈ more.filterMap Entry.offer?, next.inbox? worker ≠ none)
    (kinds : ∀ worker inbox, world.inbox? worker = some inbox →
      (next.inbox? worker).map Inbox.kind = some inbox.kind)
    (full : ∀ worker inbox, next.inbox? worker = some inbox → inbox.content ≠ none →
      inbox.kind = .held)
    (letters : ∀ worker, next.takenBy worker ++ (next.letter worker).toList =
      world.takenBy worker ++ (world.letter worker).toList ++
        more.filterMap (Entry.letter? worker))
    (closed : ∀ worker task, .dropped worker task ∈ more →
      (world.inbox? worker).map Inbox.kind = some .closed) :
    Mail (entries ++ more) next := by
  have kept (worker : WorkerId) {kind : InboxKind}
      (hkind : (world.inbox? worker).map Inbox.kind = some kind) :
      (next.inbox? worker).map Inbox.kind = some kind := by
    obtain ⟨inbox, hinbox, rfl⟩ := Option.map_eq_some_iff.mp hkind
    exact kinds worker inbox hinbox
  refine ⟨fun worker hworker hnone => ?_, full, fun worker => ?_, fun worker task hdropped => ?_⟩
  · rw [List.filterMap_append] at hworker
    rcases List.mem_append.mp hworker with hold | hnew
    · obtain ⟨inbox, hinbox⟩ := Option.ne_none_iff_exists'.mp (h.reached worker hold)
      have hkind := kinds worker inbox hinbox
      rw [hnone] at hkind
      cases hkind
    · exact reached worker hnew hnone
  · rw [letters, h.letters, List.filterMap_append]
  · rcases List.mem_append.mp hdropped with hold | hnew
    · exact kept worker (h.closed worker task hold)
    · exact kept worker (closed worker task hnew)

/-- What leaves the inboxes alone. -/
lemma aside (h : Mail entries world) {more : List Entry}
    (silent : ∀ entry ∈ more, entry.offer? = none ∧ (∀ worker, entry.letter? worker = none) ∧
      ∀ worker task, entry ≠ .dropped worker task)
    (hinboxes : next.inboxes = world.inboxes) (htaken : next.log.taken = world.log.taken) :
    Mail (entries ++ more) next := by
  have hinbox (worker : WorkerId) : next.inbox? worker = world.inbox? worker := by
    rw [inbox?, hinboxes]
    rfl
  have hoffers : more.filterMap Entry.offer? = [] :=
    List.filterMap_eq_nil_iff.mpr fun entry hentry => (silent entry hentry).1
  have hsent (worker : WorkerId) : more.filterMap (Entry.letter? worker) = [] :=
    List.filterMap_eq_nil_iff.mpr fun entry hentry => (silent entry hentry).2.1 worker
  refine h.change (by simp [hoffers]) (fun worker inbox hsome => ?_)
    (fun worker inbox hsome => h.full worker inbox (hinbox worker ▸ hsome)) (fun worker => ?_)
    fun worker task hdropped => absurd rfl ((silent _ hdropped).2.2 worker task)
  · rw [hinbox, hsome]
    rfl
  · rw [hsent, List.append_nil, takenBy, htaken, letter, hinbox]
    rfl

lemma offer (h : Mail entries world) (worker : WorkerId) (kind : InboxKind) :
    Mail (entries ++ world.heard (.offer worker kind)) (world.offer worker kind) := by
  have hheard : ∀ entry ∈ world.heard (.offer worker kind), entry = .offered worker := by
    intro entry hentry
    simp only [heard] at hentry
    split at hentry
    · exact List.mem_singleton.mp hentry
    · cases hentry
  refine h.change (fun other hother => ?_) (fun other inbox hsome => ?_)
    (fun other inbox hsome hfull => ?_) (fun other => ?_) fun other task hdropped => ?_
  · obtain ⟨entry, hentry, hoffer⟩ := List.mem_filterMap.mp hother
    rw [hheard entry hentry] at hoffer
    cases hoffer
    simp [inbox?_offer]
  · rw [inbox?_offer, hsome]
    rfl
  · rw [inbox?_offer] at hsome
    cases hold : world.inbox? other with
    | some old =>
        rw [hold, Option.some_or] at hsome
        exact h.full other inbox (hold.trans hsome) hfull
    | none =>
        rw [hold, Option.none_or] at hsome
        split at hsome <;> cases hsome
        exact absurd rfl hfull
  · have hsent : (world.heard (.offer worker kind)).filterMap (Entry.letter? other) = [] := by
      refine List.filterMap_eq_nil_iff.mpr fun entry hentry => ?_
      rw [hheard entry hentry]
      rfl
    rw [hsent, List.append_nil, letter_offer]
    rfl
  · cases hheard _ hdropped

/-- A worker looks into its inbox. -/
lemma take (h : Mail entries world) (worker : WorkerId) :
    Mail (entries ++ []) ((world.fill worker none).logTaken worker (world.letter worker)) := by
  have hinbox (other : WorkerId) :
      ((world.fill worker none).logTaken worker (world.letter worker)).inbox? other =
        (world.inbox? other).map fun inbox =>
          if other = worker then { inbox with content := none } else inbox :=
    inbox?_fill world worker other none
  refine h.change (by simp) (fun other inbox hsome => ?_) (fun other inbox hsome hfull => ?_)
    (fun other => ?_) (by simp)
  · rw [hinbox, hsome, Option.map_some, Option.map_some]
    split <;> rfl
  · rw [hinbox] at hsome
    obtain ⟨old, hold, rfl⟩ := Option.map_eq_some_iff.mp hsome
    split at hfull
    · exact absurd rfl hfull
    · rename_i hne
      rw [if_neg hne]
      exact h.full other old hold hfull
  · have hletter : ((world.fill worker none).logTaken worker (world.letter worker)).letter other =
        (world.fill worker none).letter other := rfl
    have htaken : (world.fill worker none).takenBy other = world.takenBy other := rfl
    rw [takenBy_logTaken, hletter, htaken, letter_fill]
    by_cases hother : worker = other
    · subst hother
      cases world.inbox? worker <;> simp
    · simp [hother, Ne.symm hother]

lemma happen (h : Mail entries world) (event : Event η) :
    Mail (entries ++ world.heard event) (world.happen event) := by
  cases event with
  | offer worker kind => exact h.offer worker kind
  | take worker => exact h.take worker
  | register taskType handler =>
      simp only [heard, World.happen, Registry.register]
      split <;> exact h.aside (by simp [Entry.offer?, Entry.letter?]) rfl rfl
  | wake =>
      simp only [heard, World.happen]
      split <;> exact h.aside (by simp) rfl rfl
  | dropWake | close | shutdown =>
      exact h.aside (by simp [heard, Entry.offer?, Entry.letter?]) rfl rfl

/-- Only a held inbox has a task in it. -/
lemma letter_eq_none (h : Mail entries world) {worker : WorkerId} {inbox : Inbox}
    (hsome : world.inbox? worker = some inbox) (hkind : inbox.kind ≠ .held) :
    world.letter worker = none := by
  by_contra hne
  rw [letter, hsome, Option.bind_some] at hne
  exact hkind (h.full worker inbox hsome hne)

lemma delivered (h : Mail entries world) {worker : WorkerId} {task : ClaimedTask}
    {more : List Entry} (hdeliver : world.Delivered worker task more next) :
    Mail (entries ++ more) next := by
  have hsent (other : WorkerId) : [Entry.sent worker task].filterMap (Entry.letter? other) =
      if worker = other then [task] else [] := by
    by_cases hother : worker = other <;> simp [Entry.letter?, hother]
  cases hdeliver with
  | astray => exact h.aside (by simp) rfl rfl
  | closed hsome hkind =>
      refine h.change (by simp [Entry.offer?]) (fun other inbox hother => ?_) h.full
        (fun other => (List.append_nil _).symm) fun other lost hlost => ?_
      · exact congrArg (Option.map Inbox.kind) hother
      · cases List.mem_singleton.mp hlost
        rw [hsome, Option.map_some, hkind]
  | drained hsome hkind =>
      have hempty := h.letter_eq_none hsome (by simp [hkind])
      refine h.change (by simp [Entry.offer?]) (fun other inbox hother => ?_) h.full
        (fun other => ?_) (by simp)
      · exact congrArg (Option.map Inbox.kind) hother
      · have hletter : (({ world with phase := .waiting } : World σ η).logTaken worker
            (some task)).letter other = world.letter other := rfl
        have htaken : ({ world with phase := .waiting } : World σ η).takenBy other =
          world.takenBy other := rfl
        rw [takenBy_logTaken, hletter, htaken, hsent]
        by_cases hother : worker = other
        · subst hother
          simp [hempty]
        · simp [hother]
  | @held held hsome hkind hempty =>
      have hinbox (other : WorkerId) :
          (({ world with phase := .waiting } : World σ η).fill worker (some task)).inbox? other =
            (world.inbox? other).map fun inbox =>
              if other = worker then { inbox with content := some task } else inbox :=
        inbox?_fill _ worker other (some task)
      refine h.change (by simp [Entry.offer?]) (fun other inbox hother => ?_)
        (fun other inbox hother hfull => ?_) (fun other => ?_) (by simp)
      · rw [hinbox, hother, Option.map_some, Option.map_some]
        split <;> rfl
      · rw [hinbox] at hother
        obtain ⟨old, hold, rfl⟩ := Option.map_eq_some_iff.mp hother
        split at hfull <;> rename_i hworker
        · subst hworker
          cases hold.symm.trans hsome
          rw [if_pos rfl]
          exact hkind
        · rw [if_neg hworker]
          exact h.full other old hold hfull
      · have hletter : (({ world with phase := .waiting } : World σ η).fill worker
            (some task)).letter other =
              if other = worker then (world.inbox? other).bind fun _ => some task
              else world.letter other := letter_fill _ worker other (some task)
        have htaken : (({ world with phase := .waiting } : World σ η).fill worker
          (some task)).takenBy other = world.takenBy other := rfl
        rw [hletter, htaken, hsent]
        by_cases hother : worker = other
        · subst hother
          simp [letter, hsome, hempty]
        · simp [hother, Ne.symm hother]

lemma moved (h : Mail entries world) {more : List Entry} (hmoved : world.Moved source more next) :
    Mail (entries ++ more) next := by
  cases hmoved with
  | claim | stop => exact h.aside (by simp [asking, Entry.offer?, Entry.letter?]) rfl rfl
  | take _ hunheeding | resume _ _ hunheeding =>
      refine h.aside (fun entry hentry => ?_) rfl rfl
      rw [hunheeding.eq_overlooked entry hentry]
      simp [Entry.offer?, Entry.letter?]
  | react hphase hreact =>
      cases hreact with
      | known | unknown | without =>
          exact h.aside (by simp [Entry.offer?, Entry.letter?]) rfl rfl
  | deliver hphase hdeliver => exact h.delivered hdeliver

end Mail

end World
end Scanner
end LeaseQueue
