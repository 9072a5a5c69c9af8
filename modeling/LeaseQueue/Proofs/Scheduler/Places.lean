/-
Each worker of a shift is in one place at a time.

* `Shift.Place`, `Shift.places`: where a worker may be, and where it is;
* `Shift.Orderly`: what this means for the queue, the inboxes, the tasks and the counts;
* `Shift.orderly_of_steps`: every shift is orderly at any time;
* `World.Equipped`: no task is handed over for which there is no handler;
* `Live.Reached`: the moments of a shift at which nothing is being run, from one of which to the
  next the scheduler goes (`Reached.step`, `Reached.rest`);
* `Reached.in_order`: what a shift tells of the scheduler;
* `Shift.errand_orderly`: one of two workers runs a task.
-/
import LeaseQueue.Proofs.Scheduler.Posts
import LeaseQueue.Proofs.Scheduler.Shutdown
import LeaseQueue.Proofs.Store.Call
import Mathlib.Data.Option.Basic

namespace LeaseQueue

open Scanner Relation

namespace Shift

/-! ### Places -/

/-- Where a worker may be. -/
inductive Place where
  /-- Its slot is in the queue of the scanner, or the scanner has taken it. -/
  | available
  /-- A task is in its inbox. -/
  | assigned (task : ClaimedTask)
  | running (task : ClaimedTask)
  /-- It is about to offer its slot. -/
  | offering

/-- All places where a worker is. -/
def places (shift : Shift) (worker : PoolWorker) : List Place :=
  List.replicate ((slots shift.journal).count worker.id) .available ++
    (shift.world.letter worker.id).toList.map .assigned ++
    (tasksOf shift.running worker.id).map .running ++
    if worker.phase = .offering ∧ (tasksOf shift.running worker.id).isEmpty then [.offering] else []

/-- A shift in order. -/
structure Orderly (size : Nat) (shift : Shift) : Prop where
  /-- A worker is in exactly one place until it goes. -/
  present : ∀ worker ∈ shift.live.workers, worker.phase ≠ .gone →
    ∃ place, shift.places worker = [place]
  /-- It goes for a shutdown. It runs nothing then, and leaves a slot or a task at most. -/
  gone : ∀ worker ∈ shift.live.workers, worker.phase = .gone →
    shift.world.shutdown = true ∧ tasksOf shift.running worker.id = [] ∧
      (shift.places worker).length + (tasksOf shift.left worker.id).length ≤ 1
  /-- The slots are those in the queue, behind the one that the scanner holds, or that it held
  when it stopped. -/
  available : ∃ held : Option WorkerId,
    slots shift.journal = held.toList ++ shift.world.offers ∧
      (shift.world.phase ≠ .stopped → held = shift.world.phase.worker?)
  stopped : shift.world.phase = .stopped → shift.world.shutdown = true
  staff : shift.live.workers.length = size
  bounded : shift.world.offers.length ≤ size
  /-- A slot never waits for room in the queue. -/
  room : ∀ worker ∈ shift.live.workers, worker.phase = .offering →
    tasksOf shift.running worker.id = [] →
      shift.world.isOpen = true ∧ shift.world.offers.length < shift.world.capacity
  /-- A task never waits for room in the inbox. -/
  handed : ∀ worker task, shift.world.phase = .delivering worker task →
    (shift.world.deliver? worker task).isSome = true
  /-- Nobody runs two tasks at once. -/
  single : ∀ worker, (tasksOf shift.running worker).length ≤ 1
  /-- The tasks that were sent to a worker: it has run the first ones, and runs the next one, or
  has thrown it away, or it is still in the inbox. -/
  executed : ∀ worker, shift.journal.filterMap (Entry.letter? worker) =
    tasksOf shift.ended worker ++ tasksOf shift.running worker ++ tasksOf shift.left worker ++
      (shift.world.letter worker).toList
  /-- A worker that has not gone has thrown nothing away, and can run what is in its inbox. -/
  kept : ∀ worker ∈ shift.live.workers, worker.phase ≠ .gone →
    tasksOf shift.left worker.id = [] ∧ ∀ task, shift.world.letter worker.id = some task →
      ∃ next, shift.Step next ∧ tasksOf next.running worker.id = [task]
  /-- No task is lost for it. -/
  reached : ∀ worker ∈ shift.live.workers, ∀ task, .dropped worker.id task ∈ shift.journal →
    worker.phase = .gone
  total : shift.live.stats.totalRuns = shift.ended.length
  runs : shift.live.runs.map RunRecord.task = shift.ended.map Prod.snd

lemma length_places (shift : Shift) (worker : PoolWorker) :
    (shift.places worker).length = shift.world.load shift.journal worker.id +
      (tasksOf shift.running worker.id).length +
        if worker.phase = .offering ∧ (tasksOf shift.running worker.id).isEmpty then 1 else 0 := by
  rw [places, List.length_append, List.length_append, List.length_append, List.length_replicate,
    List.length_map, List.length_map, World.load]
  split <;> rfl

namespace Sound

variable {shift : Shift} {worker : PoolWorker}

/-- A worker that has not gone is in one place. -/
lemma one_place (h : shift.Sound) (hmem : worker ∈ shift.live.workers)
    (hne : worker.phase ≠ .gone) : (shift.places worker).length = 1 := by
  have hpost := h.posts worker hmem
  rw [AtPost] at hpost
  rw [length_places]
  cases hphase : worker.phase with
  | gone => exact absurd hphase hne
  | waiting =>
      rw [hphase] at hpost
      obtain ⟨hload, hidle, -⟩ := hpost
      rw [hload, hidle, if_neg (by simp)]
      rfl
  | offering =>
      rw [hphase] at hpost
      obtain ⟨hload, hrunning, -⟩ := hpost
      rw [hload]
      rcases hlist : tasksOf shift.running worker.id with _ | ⟨task, rest⟩
      · rfl
      · rw [hlist, List.length_cons] at hrunning
        rw [if_neg (by simp), List.length_cons]
        omega

/-- A worker to which a task is handed has room for it. -/
lemma handed (h : shift.Sound) {name : WorkerId} {task : ClaimedTask}
    (hphase : shift.world.phase = .delivering name task) :
    (shift.world.deliver? name task).isSome = true := by
  have hslot : name ∈ slots shift.journal := by
    rw [h.manned.booked.slots.slots_eq (by rw [hphase]; exact fun hne => by cases hne), hphase]
    exact List.mem_cons_self
  obtain ⟨worker, hmem, rfl⟩ := List.mem_map.mp (h.slots_subset hslot)
  have hempty : shift.world.letter worker.id = none := by
    have hload := (h.posts worker hmem).load_le
    have hcount := List.count_pos_iff.mpr hslot
    rw [World.load] at hload
    cases hletter : shift.world.letter worker.id with
    | none => rfl
    | some letter =>
        rw [hletter, Option.toList_some, List.length_singleton] at hload
        omega
  rw [World.deliver?]
  cases hinbox : shift.world.inbox? worker.id with
  | none => rfl
  | some inbox =>
      rw [World.letter, hinbox, Option.bind_some] at hempty
      dsimp only
      cases inbox.kind with
      | closed | drained => rfl
      | held => simp [hempty]

/-- A worker that has a task in its inbox can run it. -/
lemma can_run (h : shift.Sound) (hmem : worker ∈ shift.live.workers) (hne : worker.phase ≠ .gone)
    {task : ClaimedTask} (hletter : shift.world.letter worker.id = some task) :
    ∃ next, shift.Step next ∧ tasksOf next.running worker.id = [task] := by
  have hpost := h.posts worker hmem
  rw [AtPost, World.load, hletter] at hpost
  cases hphase : worker.phase with
  | gone => exact absurd hphase hne
  | offering =>
      rw [hphase] at hpost
      cases hpost.1
  | waiting =>
      rw [hphase] at hpost
      refine ⟨_, .take hmem hphase hletter, ?_⟩
      rw [tasksOf_concat, hpost.2.1, if_pos rfl, List.nil_append]

theorem orderly (h : shift.Sound) : shift.Orderly shift.live.workers.length where
  present worker hmem hne := List.length_eq_one_iff.mp (h.one_place hmem hne)
  gone worker hmem hgone := by
    have hpost := h.posts worker hmem
    rw [AtPost, hgone] at hpost
    refine ⟨h.manned.gone worker hmem hgone, hpost.2, ?_⟩
    rw [length_places, hpost.2, hgone, if_neg (by simp)]
    exact hpost.1
  available := h.manned.queue
  stopped := h.manned.stopped
  staff := rfl
  bounded := by
    have hlength := (h.nodup_slots.subperm h.slots_subset).length_le
    rw [List.length_map] at hlength
    exact h.manned.queue_le.trans hlength
  room worker hmem hphase _ := h.room hmem hphase
  handed _ _ hphase := h.handed hphase
  single := h.tasksOf_running
  executed worker := by rw [← h.manned.booked.mail.letters, h.taken]
  kept worker hmem hne := ⟨(h.posts worker hmem).left_eq_nil hne, fun _ => h.can_run hmem hne⟩
  reached worker hmem _ := h.manned.gone_of_dropped hmem
  total := h.total
  runs := h.runs

end Sound

variable {store : Store} {registry : Registry Handler} {settings : SchedulerSettings}
  {name : Nat → WorkerId} {shift next : Shift}

/-- Nobody joins or leaves the staff. -/
lemma staff_of_step (h : shift.Step next) :
    next.live.workers.length = shift.live.workers.length := by
  cases h with
  | scan | settle | pass | aside | close | discard | shut => rfl
  | offer | take | leave => exact List.length_map _
  | finish _ site reply =>
      exact congrArg List.length ((shift.live.withSite site).workers_recordRun _ reply)

lemma staff_of_steps (h : ReflTransGen Step (opening store registry settings name) shift) :
    shift.live.workers.length = settings.workers := by
  induction h with
  | refl => exact (List.length_map _).trans List.length_range
  | tail _ hstep ih => exact (staff_of_step hstep).trans ih

/-- The work of any number of workers is in order, whatever the claims answer, however the runs
end, whenever there is a shutdown, and in whatever order all this happens. Each worker that has
not gone is in exactly one place, the queue has room for every slot and every inbox for its task,
nobody runs two tasks at once, and the tasks that were sent to a worker are run by it once each
and in order, but for one at most, which it leaves if it goes for a shutdown. Every run that has
ended is counted. -/
theorem orderly_of_steps (hworkers : 1 ≤ settings.workers)
    (steps : ReflTransGen Step (opening store registry settings name) shift) :
    shift.Orderly settings.workers :=
  staff_of_steps steps ▸ ((Sound.opening hworkers).steps steps).orderly

end Shift

/-! ### No task without a handler -/

namespace Scanner.World

variable {σ η : Type} {source : ClaimSource σ} {world next : World σ η} {more : List Entry}

/-- There is a handler for every task that is handed over. -/
structure Equipped (world : World σ η) : Prop where
  inHand : ∀ worker task, world.phase = .delivering worker task →
    world.registry.contains task.taskType = true
  letters : ∀ inbox ∈ world.inboxes, ∀ task ∈ inbox.content,
    world.registry.contains task.taskType = true

namespace Equipped

lemma fill (h : world.Equipped) (worker : WorkerId) {content : Option ClaimedTask}
    (hcontent : ∀ task ∈ content, world.registry.contains task.taskType = true) :
    ∀ inbox ∈ (world.fill worker content).inboxes, ∀ task ∈ inbox.content,
      world.registry.contains task.taskType = true := by
  intro inbox hinbox
  obtain ⟨old, hold, rfl⟩ := List.mem_map.mp hinbox
  split
  · exact hcontent
  · exact h.letters old hold

lemma offer (h : world.Equipped) (worker : WorkerId) (kind : InboxKind) :
    (world.offer worker kind).Equipped := by
  refine ⟨h.inHand, fun inbox hinbox => ?_⟩
  simp only [World.offer] at hinbox
  split at hinbox
  · exact h.letters inbox hinbox
  · rcases List.mem_append.mp hinbox with hold | hnew
    · exact h.letters inbox hold
    · rw [List.mem_singleton.mp hnew]
      exact fun _ htask => by cases htask

lemma happen (h : world.Equipped) (event : Event η) : (world.happen event).Equipped := by
  cases event with
  | offer worker kind => exact h.offer worker kind
  | take worker => exact ⟨h.inHand, h.fill worker fun _ htask => by cases htask⟩
  | dropWake | close | shutdown => exact ⟨h.inHand, h.letters⟩
  | wake =>
      rw [World.happen]
      split <;> exact ⟨h.inHand, h.letters⟩
  | register taskType handler =>
      rw [World.happen]
      split
      · rename_i registry hregistry
        have hkept {other : String} (hother : world.registry.contains other = true) :
            registry.contains other = true := by
          rw [Registry.contains, Registry.get?_of_register hregistry]
          split
          · rfl
          · exact hother
        exact ⟨fun worker task hphase => hkept (h.inHand worker task hphase),
          fun inbox hinbox task htask => hkept (h.letters inbox hinbox task htask)⟩
      · exact h

lemma moved (h : world.Equipped) (hmoved : world.Moved source more next) : next.Equipped := by
  cases hmoved with
  | take | claim | resume | stop => exact ⟨by rintro _ _ ⟨⟩, h.letters⟩
  | react _ hreact =>
      cases hreact with
      | known hknown =>
          refine ⟨fun worker task hphase => ?_, h.letters⟩
          cases hphase
          exact hknown
      | unknown => exact ⟨by rintro _ _ ⟨⟩, h.letters⟩
      | without hanswer backoff hphase =>
          refine ⟨fun worker task hdelivering => ?_, h.letters⟩
          rcases hphase with ⟨rfl, -⟩ | ⟨due, rfl⟩ | ⟨due, rfl⟩ <;> cases hdelivering
  | @deliver worker task _ _ hphase hdeliver =>
      cases hdeliver with
      | astray | closed | drained => exact ⟨by rintro _ _ ⟨⟩, h.letters⟩
      | held =>
          refine ⟨by rintro _ _ ⟨⟩, h.fill worker ?_⟩
          rintro _ ⟨⟩
          exact h.inHand worker task hphase

end Equipped

end Scanner.World

namespace Shift

variable {start shift next : Shift}

lemma equipped_opening (store : Store) (registry : Registry Handler) (settings : SchedulerSettings)
    (name : Nat → WorkerId) : (opening store registry settings name).world.Equipped :=
  ⟨by rintro _ _ ⟨⟩, List.forall_mem_nil _⟩

lemma equipped_of_step (h : shift.world.Equipped) (hstep : shift.Step next) :
    next.world.Equipped := by
  cases hstep with
  | @scan source seen world _ hmove =>
      have hseen : ({ shift.world with shutdown := seen } : World Site Handler).Equipped :=
        ⟨h.inHand, h.letters⟩
      have hnext := hseen.moved (World.moved_of_move? hmove)
      exact ⟨hnext.inHand, hnext.letters⟩
  | settle | pass => exact ⟨h.inHand, h.letters⟩
  | aside event => exact h.happen event
  | close => exact h.happen .close
  | offer => exact h.happen (.offer _ .held)
  | take | discard => exact h.happen (.take _)
  | leave => exact h
  | @finish _ _ _ task _ site reply =>
      have hsite : (shift.live.withSite site).world.Equipped := ⟨h.inHand, h.letters⟩
      have hnext : ((shift.live.withSite site).recordRun task reply).world.Equipped := by
        rcases (shift.live.withSite site).world_recordRun task reply with hworld | hworld <;>
          rw [hworld]
        · exact hsite
        · exact hsite.happen .shutdown
      exact hnext
  | shut =>
      refine ⟨h.inHand, fun inbox hinbox => ?_⟩
      obtain ⟨old, hold, rfl⟩ := List.mem_map.mp hinbox
      split <;> exact h.letters old hold

lemma equipped_of_steps (h : start.world.Equipped) (hsteps : ReflTransGen Step start shift) :
    shift.world.Equipped := by
  induction hsteps with
  | refl => exact h
  | tail _ hstep ih => exact equipped_of_step ih hstep

end Shift

/-! ### A scheduler at work -/

namespace Live

/-- The scheduler at a moment of a shift at which nothing is being run. -/
def Reached (start : Shift) (live : Live) : Prop :=
  ∃ shift, ReflTransGen Shift.Step start shift ∧ shift.live = live ∧ shift.running = []

namespace Reached

variable {start : Shift} {live next : Live}

lemma opening {store : Store} {registry : Registry Handler} {settings : SchedulerSettings}
    {name : Nat → WorkerId} :
    (ofSettings store registry settings name).Reached (.opening store registry settings name) :=
  ⟨_, .refl, rfl, rfl⟩

/-- A client calls the store. -/
lemma call {ε α : Type} (h : live.Reached start) (reply : Store.Reply ε α) :
    (live.call reply).Reached start := by
  obtain ⟨shift, hsteps, rfl, hidle⟩ := h
  exact ⟨_, hsteps.tail (.settle (shift.live.site.settle reply)), rfl, hidle⟩

lemma shutdown (h : live.Reached start) : (live.happen .shutdown).Reached start := by
  obtain ⟨shift, hsteps, rfl, hidle⟩ := h
  exact ⟨_, hsteps.tail (.aside .shutdown trivial), rfl, hidle⟩

lemma listen (h : live.Reached start) (hlisten : live.listen? = some next) :
    next.Reached start := by
  obtain ⟨shift, hsteps, rfl, hidle⟩ := h
  rw [listen?, Option.map_eq_some_iff] at hlisten
  obtain ⟨⟨channel, site⟩, -, hnext⟩ := hlisten
  have hsettled := hsteps.tail (.settle site)
  dsimp only at hnext
  split at hnext <;> subst hnext
  · exact ⟨_, hsettled.tail (.aside .wake trivial), rfl, hidle⟩
  · exact ⟨_, hsettled, rfl, hidle⟩

lemma move (h : live.Reached start) {world : World Site Handler}
    (hmove : live.world.move? Site.source = some world) :
    ({ live with world } : Live).Reached start := by
  obtain ⟨shift, hsteps, rfl, hidle⟩ := h
  have hshutdown : world.shutdown = shift.world.shutdown :=
    (World.still_of_moved (World.moved_of_move? hmove)).2
  have hseen : shift.world.shutdown = true → shift.world.shutdown = true := id
  refine ⟨_, hsteps.tail (.scan Site.source hseen hmove), ?_, hidle⟩
  rw [← hshutdown]
  rfl

/-- Whatever a worker does next: a run begins and ends. -/
lemma work (sound : start.Sound) (equipped : start.world.Equipped) (h : live.Reached start)
    {worker : PoolWorker} (hmem : worker ∈ live.workers) (hwork : live.work? worker = some next) :
    next.Reached start := by
  obtain ⟨shift, hsteps, rfl, hidle⟩ := h
  have hsound := sound.steps hsteps
  have hfree : tasksOf shift.running worker.id = [] := by rw [hidle, tasksOf_nil]
  rw [work?] at hwork
  cases hphase : worker.phase with
  | gone =>
      simp only [hphase] at hwork
      cases hwork
  | offering =>
      simp only [hphase] at hwork
      split at hwork <;> rename_i hshutdown <;> cases hwork
      · exact ⟨_, hsteps.tail (.leave hmem (by rw [hphase]; decide) hfree (.inl hshutdown)), rfl,
          hidle⟩
      · exact ⟨_, hsteps.tail (.offer hmem hphase hfree fun hstopped =>
          hshutdown (hsound.manned.stopped hstopped)), rfl, hidle⟩
  | waiting =>
      simp only [hphase] at hwork
      split at hwork
      · cases hwork
        exact ⟨_, hsteps.tail (.leave hmem (by rw [hphase]; decide) hfree (.inl ‹_›)), rfl, hidle⟩
      · rw [Option.map_eq_some_iff] at hwork
        obtain ⟨task, hinbox, rfl⟩ := hwork
        -- the task was handed over because there is a handler, and handlers stay
        have hknown : shift.world.registry.contains task.taskType = true := by
          obtain ⟨inbox, hsome, hcontent⟩ := Option.bind_eq_some_iff.mp hinbox
          exact (Shift.equipped_of_steps equipped hsteps).letters inbox
            (List.mem_of_find?_eq_some hsome) task hcontent
        obtain ⟨handler, hhandler⟩ := Option.isSome_iff_exists.mp hknown
        have htaken := hsteps.tail (.take hmem hphase hinbox)
        have htake : shift.live.takeTask worker.id task =
            ((shift.live.happen (.take worker.id)).setPhase worker.id .offering).execute handler
              task := by
          have hget : ((shift.live.happen (.take worker.id)).setPhase worker.id
            .offering).world.registry.get? task.taskType = some handler := hhandler
          rw [takeTask]
          simp only [hget]
        have hrunning : shift.running ++ [(worker.id, task)] = [] ++ (worker.id, task) :: [] := by
          rw [hidle]
        rw [htake, execute]
        exact ⟨_, htaken.tail (.finish hrunning _ _), rfl, rfl⟩

/-- A scheduler at work goes on from one such moment to the next. -/
theorem step (sound : start.Sound) (equipped : start.world.Equipped) (h : live.Reached start)
    (hstep : live.step? = some next) : next.Reached start := by
  simp only [step?, Option.orElse_eq_some, Option.map_eq_some_iff, jump?] at hstep
  rcases hstep with hlisten | ⟨-, ⟨world, hmove, rfl⟩ | ⟨-, hwork | ⟨-, time, -, rfl⟩⟩⟩
  · exact h.listen hlisten
  · exact h.move hmove
  · obtain ⟨worker, hmem, hworker⟩ := List.exists_of_findSome?_eq_some hwork
    exact h.work sound equipped hmem hworker
  · obtain ⟨shift, hsteps, rfl, hidle⟩ := h
    exact ⟨_, hsteps.tail (.pass time), rfl, hidle⟩

/-- So it does until there is nothing left to do. -/
theorem rest (sound : start.Sound) (equipped : start.world.Equipped) (h : live.Reached start)
    (n : Nat) : (live.rest n).Reached start := by
  induction n generalizing live with
  | zero => exact h
  | succ n ih =>
      rw [Live.rest]
      split
      · exact ih (h.step sound equipped ‹_›)
      · exact h

/-- What this means for a scheduler at work, among the calls of clients and behind a shutdown: it
has room for all its slots and tasks, and has counted all its runs. -/
theorem in_order {store : Store} {registry : Registry Handler} {settings : SchedulerSettings}
    {name : Nat → WorkerId} (hworkers : 1 ≤ settings.workers)
    (h : live.Reached (.opening store registry settings name)) :
    live.world.offers.length ≤ settings.workers ∧
      (∀ worker task, live.world.phase = .delivering worker task →
        (live.world.deliver? worker task).isSome = true) ∧
      live.stats.totalRuns = live.runs.length := by
  obtain ⟨shift, hsteps, rfl, -⟩ := h
  have horderly := ((Shift.Sound.opening hworkers).steps hsteps).orderly
  rw [Shift.staff_of_steps hsteps] at horderly
  refine ⟨horderly.bounded, horderly.handed, ?_⟩
  rw [horderly.total, ← List.length_map Prod.snd, ← horderly.runs, List.length_map]

end Reached

end Live

namespace Shift

/-- Two workers, a task and a handler for it. -/
def errand : Shift :=
  .opening ((Store.initial 0).perform .standard (.create "job" none)).store
    ⟨[("job", fun _ => .finish ⟨none, .completed, none⟩)]⟩ (.ofWorkers 2)
    fun i => if i = 0 then "first" else "second"

/-- The first of them runs the task. -/
theorem errand_orderly :
    ∃ shift : Shift, shift.Orderly 2 ∧
      shift.running.map (fun run => (run.1, run.2.id)) = [("first", 1)] := by
  have hworkers : 1 ≤ (SchedulerSettings.ofWorkers 2).workers := by decide
  obtain ⟨shift, hsteps, hlive, hidle⟩ : (errand.live.rest 5).Reached errand :=
    Live.Reached.opening.rest (Sound.opening hworkers) (equipped_opening _ _ _ _) 5
  have hmem : (⟨"first", .waiting⟩ : PoolWorker) ∈ shift.live.workers := by
    rw [hlive]
    decide +kernel
  obtain ⟨task, hinbox, hid⟩ : ∃ task, shift.live.inboxOf "first" = some task ∧ task.id = 1 := by
    rw [hlive]
    exact Option.map_eq_some_iff.mp (by decide +kernel)
  have htaken := hsteps.tail (.take hmem rfl hinbox)
  refine ⟨_, orderly_of_steps hworkers htaken, ?_⟩
  rw [hidle, List.nil_append, List.map_singleton, hid]

end Shift
end LeaseQueue
