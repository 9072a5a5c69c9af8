/-
A scheduler at work where every run takes its time.

* `Shift`: the scheduler, with the runs that are under way, and what became of the tasks;
* `Shift.Step`: what may happen next, in any order;
* `Shift.Manned`: the scanner has the slots of its workers, and no others, whatever happens.

Where there are several things to do, a worker or the scanner may overlook a shutdown for a
while: none of them looks at everything in a fixed order.
-/
import LeaseQueue.Proofs.Scheduler.Slots
import LeaseQueue.Scheduler.Live

namespace LeaseQueue

/-! ### A shift -/

/-- A scheduler at work. A run takes its time: it is under way before it has ended. -/
structure Shift where
  live : Live
  /-- What has happened to the slots and the tasks. -/
  journal : List Scanner.Entry := []
  /-- The tasks that are being run, each with its worker. -/
  running : List (WorkerId × ClaimedTask) := []
  /-- The tasks whose runs have ended. -/
  ended : List (WorkerId × ClaimedTask) := []
  /-- The tasks that were thrown away by workers that had gone. -/
  left : List (WorkerId × ClaimedTask) := []

open Scanner

/-- The tasks of one worker. -/
def tasksOf (tasks : List (WorkerId × ClaimedTask)) (worker : WorkerId) : List ClaimedTask :=
  tasks.filterMap fun task => if task.1 = worker then some task.2 else none

@[simp] lemma tasksOf_nil (worker : WorkerId) : tasksOf [] worker = [] := rfl

lemma tasksOf_append (tasks more : List (WorkerId × ClaimedTask)) (worker : WorkerId) :
    tasksOf (tasks ++ more) worker = tasksOf tasks worker ++ tasksOf more worker :=
  List.filterMap_append

lemma tasksOf_cons (worker other : WorkerId) (task : ClaimedTask)
    (tasks : List (WorkerId × ClaimedTask)) :
    tasksOf ((worker, task) :: tasks) other =
      (if worker = other then [task] else []) ++ tasksOf tasks other := by
  rw [tasksOf, List.filterMap_cons]
  split <;> rename_i hname <;> split at hname <;> cases hname <;> simp_all [tasksOf]

lemma tasksOf_concat (tasks : List (WorkerId × ClaimedTask)) (worker other : WorkerId)
    (task : ClaimedTask) : tasksOf (tasks ++ [(worker, task)]) other =
      tasksOf tasks other ++ if worker = other then [task] else [] := by
  rw [tasksOf_append, tasksOf_cons, tasksOf_nil, List.append_nil]

namespace Live

variable (live : Live) (task : ClaimedTask) (reply : RunReply)

/-- A handler may have stopped the scheduler. -/
lemma world_recordRun : (live.recordRun task reply).world = live.world ∨
    (live.recordRun task reply).world = live.world.happen .shutdown := by
  rw [recordRun]
  split
  · exact .inr rfl
  · exact .inl rfl

lemma workers_recordRun : (live.recordRun task reply).workers = live.workers := by
  rw [recordRun]
  split <;> rfl

lemma tasks_recordRun : (live.recordRun task reply).runs.map RunRecord.task =
    live.runs.map RunRecord.task ++ [task] := by
  rw [recordRun]
  split <;> exact List.map_append

lemma totalRuns_recordRun :
    (live.recordRun task reply).stats.totalRuns = live.stats.totalRuns + 1 := by
  rw [recordRun]
  cases reply.answer with
  | ok transition => split <;> exact PoolStats.totalRuns_record _ _
  | error e => split <;> exact PoolStats.totalRuns_recordError _

end Live

namespace Shift

/-- The first moment of a shift. -/
def opening (store : Store) (registry : Registry Handler) (settings : SchedulerSettings)
    (name : Nat → WorkerId) : Shift where
  live := .ofSettings store registry settings name

def world (shift : Shift) : World Site Handler := shift.live.world

/-- Something happens around the scanner. -/
def happen (shift : Shift) (event : World.Event Handler) : Shift :=
  { shift with
    live := shift.live.happen event
    journal := shift.journal ++ shift.world.heard event }

def withWorld (shift : Shift) (world : World Site Handler) : Shift :=
  { shift with live := { shift.live with world } }

def setPhase (shift : Shift) (worker : WorkerId) (phase : WorkerPhase) : Shift :=
  { shift with live := shift.live.setPhase worker phase }

/-- What may happen next. -/
inductive Step (shift : Shift) : Shift → Prop where
  /-- The scanner moves. A claim has any answer, and the scanner may overlook a shutdown. -/
  | scan (source : ClaimSource Site) {seen : Bool} {next : World Site Handler}
      (hseen : seen = true → shift.world.shutdown = true)
      (hmove : ({ shift.world with shutdown := seen } : World Site Handler).move? source =
        some next) :
      Step shift
        { shift.withWorld { next with shutdown := shift.world.shutdown } with
          journal := shift.journal ++ shift.world.doing source }
  /-- Others use the store, or a notification arrives. -/
  | settle (site : Site) : Step shift (shift.withWorld { shift.world with source := site })
  | pass (now : Nat) : Step shift (shift.withWorld { shift.world with now })
  /-- A wake-up, a registration or a shutdown. -/
  | aside (event : World.Event Handler) (h : event.Aside) : Step shift (shift.happen event)
  /-- The last worker has gone. -/
  | close (h : ∀ worker ∈ shift.live.workers, worker.phase = .gone) :
      Step shift (shift.withWorld (shift.world.happen .close))
  /-- A worker offers its slot. -/
  | offer {worker : PoolWorker} (hmem : worker ∈ shift.live.workers)
      (hphase : worker.phase = .offering) (hidle : tasksOf shift.running worker.id = [])
      (hscanner : shift.world.phase ≠ .stopped) :
      Step shift ((shift.happen (.offer worker.id .held)).setPhase worker.id .waiting)
  /-- A worker takes the task from its inbox, and its run begins. -/
  | take {worker : PoolWorker} {task : ClaimedTask} (hmem : worker ∈ shift.live.workers)
      (hphase : worker.phase = .waiting) (hinbox : shift.live.inboxOf worker.id = some task) :
      Step shift
        { (shift.withWorld (shift.world.happen (.take worker.id))).setPhase worker.id .offering with
          running := shift.running ++ [(worker.id, task)] }
  /-- A run ends in any way, and leaves the store behind in any way. -/
  | finish {before after : List (WorkerId × ClaimedTask)} {worker : WorkerId}
      {task : ClaimedTask} (hrunning : shift.running = before ++ (worker, task) :: after)
      (site : Site) (reply : RunReply) :
      Step shift
        { shift with
          live := (shift.live.withSite site).recordRun task reply
          running := before ++ after
          ended := shift.ended ++ [(worker, task)] }
  /-- A worker sees a shutdown, or finds that nobody takes its slot. -/
  | leave {worker : PoolWorker} (hmem : worker ∈ shift.live.workers)
      (hphase : worker.phase ≠ .gone) (hidle : tasksOf shift.running worker.id = [])
      (why : shift.world.shutdown = true ∨
        worker.phase = .offering ∧ shift.world.phase = .stopped) :
      Step shift (shift.setPhase worker.id .gone)
  /-- A worker that has gone throws the task in its inbox away. -/
  | discard {worker : PoolWorker} {task : ClaimedTask} (hmem : worker ∈ shift.live.workers)
      (hphase : worker.phase = .gone) (hinbox : shift.live.inboxOf worker.id = some task) :
      Step shift
        { shift.withWorld (shift.world.happen (.take worker.id)) with
          left := shift.left ++ [(worker.id, task)] }
  /-- The inbox of a worker that has gone is closed. -/
  | shut {worker : PoolWorker} (hmem : worker ∈ shift.live.workers)
      (hphase : worker.phase = .gone) (hempty : shift.live.inboxOf worker.id = none) :
      Step shift (shift.withWorld (shift.world.shutInbox worker.id))

/-! ### The scanner and its workers -/

/-- The scanner knows the slots of its workers, and no others. -/
structure Manned (entries : List Entry) (workers : List PoolWorker) {σ η : Type}
    (world : World σ η) : Prop where
  booked : world.Booked entries
  /-- The scanner holds the first slot, and the others are in its queue. When it stops, it takes
  its slot along. -/
  queue : ∃ held : Option WorkerId, slots entries = held.toList ++ world.offers ∧
    (world.phase ≠ .stopped → held = world.phase.worker?)
  offered : ∀ worker ∈ entries.filterMap Entry.offer?, worker ∈ workers.map PoolWorker.id
  /-- Only workers that have gone have closed their inboxes. -/
  locks : ∀ lock ∈ world.locks, lock.2 = .held ∨
    lock.2 = .closed ∧ ∀ worker ∈ workers, worker.id = lock.1 → worker.phase = .gone
  capacity : world.capacity = workers.length
  isOpen : world.isOpen = true ∨ ∀ worker ∈ workers, worker.phase = .gone
  gone : ∀ worker ∈ workers, worker.phase = .gone → world.shutdown = true
  stopped : world.phase = .stopped → world.shutdown = true
  staff : workers ≠ []
  /-- Workers of one name are at the same thing. -/
  alike : ∀ a ∈ workers, ∀ b ∈ workers, a.id = b.id → a = b

lemma mem_setPhase {live : Live} {name : WorkerId} {phase : WorkerPhase} {worker : PoolWorker}
    (h : worker ∈ (live.setPhase name phase).workers) :
    (worker.id = name ∧ worker.phase = phase) ∨ (worker.id ≠ name ∧ worker ∈ live.workers) := by
  obtain ⟨old, hold, rfl⟩ := List.mem_map.mp h
  split <;> rename_i hname
  · exact .inl ⟨by simpa using hname, rfl⟩
  · exact .inr ⟨by simpa using hname, hold⟩

/-- What holds of the workers when one has turned to something else. -/
lemma forall_setPhase {live : Live} {name : WorkerId} {phase : WorkerPhase} {P : PoolWorker → Prop}
    (hnew : P ⟨name, phase⟩) (hold : ∀ worker ∈ live.workers, worker.id ≠ name → P worker) :
    ∀ worker ∈ (live.setPhase name phase).workers, P worker := by
  intro worker hmem
  rcases mem_setPhase hmem with ⟨rfl, rfl⟩ | ⟨hname, hmem⟩
  · exact hnew
  · exact hold worker hmem hname

lemma names_setPhase (live : Live) (name : WorkerId) (phase : WorkerPhase) :
    (live.setPhase name phase).workers.map PoolWorker.id = live.workers.map PoolWorker.id := by
  rw [Live.setPhase, List.map_map]
  refine List.map_congr_left fun worker _ => ?_
  simp only [Function.comp_apply]
  split <;> rfl

namespace Manned

variable {σ η : Type} {source : ClaimSource σ} {world next : World σ η} {entries more : List Entry}
  {workers : List PoolWorker} {worker : PoolWorker}

lemma phase_poolOf {name : Nat → WorkerId} {n : Nat} :
    ∀ worker ∈ Live.poolOf name n, worker.phase = .offering := by
  intro worker hmem
  obtain ⟨i, -, rfl⟩ := List.mem_map.mp hmem
  rfl

lemma opening {store : Store} {registry : Registry Handler} {settings : SchedulerSettings}
    {name : Nat → WorkerId} (hworkers : 1 ≤ settings.workers) :
    Manned [] (Live.poolOf name settings.workers)
      (Shift.opening store registry settings name).world where
  booked := by
    have hinbox (worker : WorkerId) :
        (Shift.opening store registry settings name).world.inbox? worker = none := rfl
    refine ⟨⟨[], rfl, fun _ => rfl⟩, List.forall_mem_nil _, fun worker inbox hsome => ?_,
      fun _ => rfl, fun _ _ h => absurd h List.not_mem_nil⟩
    rw [hinbox] at hsome
    cases hsome
  queue := ⟨none, rfl, fun _ => rfl⟩
  offered := List.forall_mem_nil _
  locks := List.forall_mem_nil _
  capacity := ((List.length_map _).trans List.length_range).symm
  isOpen := .inl rfl
  gone worker hmem hgone := by
    rw [phase_poolOf worker hmem] at hgone
    cases hgone
  stopped hstopped := by cases hstopped
  staff hnil := by
    rw [Live.poolOf, List.map_eq_nil_iff, List.range_eq_nil] at hnil
    omega
  alike a ha b hb hid := by
    have hpa := phase_poolOf a ha
    have hpb := phase_poolOf b hb
    cases a
    cases b
    simp_all

/-- What changes neither the slots nor the kinds of the inboxes. -/
lemma still (h : Manned entries workers world) (hstill : world.Still next)
    (booked : next.Booked (entries ++ more)) (hoffered : more.filterMap Entry.offer? = [])
    (hused : more.filterMap Entry.use? = []) : Manned (entries ++ more) workers next := by
  have hslots : slots (entries ++ more) = slots entries := by
    rw [slots, List.filterMap_append, hused, List.filterMap_append, hoffered, List.append_nil,
      List.append_nil, slots]
  exact
    { booked
      queue := by rw [hstill.offers, hstill.phase, hslots]; exact h.queue
      offered := by rw [List.filterMap_append, hoffered, List.append_nil]; exact h.offered
      locks := by rw [hstill.locks]; exact h.locks
      capacity := hstill.capacity.trans h.capacity
      isOpen := by rw [hstill.isOpen]; exact h.isOpen
      gone := fun worker hmem hgone => hstill.shutdown (h.gone worker hmem hgone)
      stopped := fun hstopped => hstill.shutdown (h.stopped (hstill.phase ▸ hstopped))
      staff := h.staff
      alike := h.alike }

lemma queue_le (h : Manned entries workers world) :
    world.offers.length ≤ (slots entries).length := by
  obtain ⟨held, hslots, -⟩ := h.queue
  rw [hslots, List.length_append]
  exact Nat.le_add_left _ _

/-- A task is lost only for a worker that has gone. -/
lemma gone_of_dropped (h : Manned entries workers world) (hmem : worker ∈ workers)
    {task : ClaimedTask} (hdropped : .dropped worker.id task ∈ entries) : worker.phase = .gone := by
  obtain ⟨inbox, hinbox, hkind⟩ :=
    Option.map_eq_some_iff.mp (h.booked.mail.closed worker.id task hdropped)
  rcases h.locks _ (World.mem_locks hinbox) with hheld | ⟨-, hall⟩
  · rw [hkind] at hheld
    cases hheld
  · exact hall worker hmem rfl

lemma held (h : Manned entries workers world) : ∀ lock ∈ world.locks, lock.2 ≠ .drained := by
  intro lock hlock
  rcases h.locks lock hlock with hkind | ⟨hkind, -⟩ <;> rw [hkind] <;> decide

/-- The scanner moves. If it stops, it or the last worker has seen a shutdown. -/
lemma moved (h : Manned entries workers world) {seen : Bool}
    (hseen : seen = true → world.shutdown = true)
    (hmove : ({ world with shutdown := seen } : World σ η).move? source = some next) :
    Manned (entries ++ world.doing source) workers
      ({ next with shutdown := world.shutdown } : World σ η) := by
  have hmoved := World.moved_of_move? hmove
  have hseeing : ({ world with shutdown := seen } : World σ η).Booked entries :=
    h.booked.same rfl rfl rfl rfl
  have hbooked : next.Booked (entries ++ world.doing source) := hseeing.moved hmoved
  have hbound : ({ world with shutdown := seen } : World σ η).Bound (world.doing source) next :=
    World.bound_of_moved h.held hmoved
  refine
    { booked := hbooked.same rfl rfl rfl rfl
      queue := ?_
      offered := ?_
      locks := fun lock hlock => h.locks lock (hbound.locks ▸ hlock)
      capacity := hbound.capacity.trans h.capacity
      isOpen := ?_
      gone := h.gone
      stopped := fun hstopped => ?_
      staff := h.staff
      alike := h.alike }
  · by_cases hstopped : next.phase = .stopped
    · -- the journal no longer tells what the scanner holds, but its last state does
      obtain ⟨hmore, hoffers, -⟩ := World.stop_of_moved hmoved hstopped
      obtain ⟨held, hslots, -⟩ := h.queue
      have hnil : world.doing source = [] := hmore
      refine ⟨held, ?_, fun hne => absurd hstopped hne⟩
      rw [hnil, List.append_nil, hslots]
      exact congrArg _ hoffers.symm
    · exact ⟨_, hbooked.slots.slots_eq hstopped, fun _ => rfl⟩
  · have hoffered : (world.doing source).filterMap Entry.offer? = [] := hbound.offered
    rw [List.filterMap_append, hoffered, List.append_nil]
    exact h.offered
  · have hopen : next.isOpen = world.isOpen := hbound.isOpen
    exact h.isOpen.imp_left fun hworld => hopen.trans hworld
  · rcases World.why_stopped hmove hstopped with hshutdown | hclosed
    · exact hseen hshutdown
    · -- all workers have gone, for a shutdown, and there is one at least
      have hall := h.isOpen.resolve_left (by simpa using hclosed)
      obtain ⟨worker, hworker⟩ := List.exists_mem_of_ne_nil workers h.staff
      exact h.gone worker hworker (hall worker hworker)

/-- A worker offers its slot. -/
lemma offer (h : Manned entries workers world) (hmem : worker ∈ workers)
    (hne : world.phase ≠ .stopped) :
    Manned (entries ++ world.heard (.offer worker.id .held)) workers
      (world.happen (.offer worker.id .held)) := by
  have hbooked := h.booked.happen (.offer worker.id .held)
  refine
    { booked := hbooked
      queue := ⟨_, hbooked.slots.slots_eq hne, fun _ => rfl⟩
      offered := fun name hname => ?_
      locks := fun lock hlock => ?_
      capacity := h.capacity
      isOpen := h.isOpen
      gone := h.gone
      stopped := h.stopped
      staff := h.staff
      alike := h.alike }
  · rw [List.filterMap_append, List.mem_append] at hname
    rcases hname with hold | hnew
    · exact h.offered name hold
    · rw [World.heard] at hnew
      split at hnew
      · rw [List.mem_singleton.mp hnew]
        exact List.mem_map_of_mem hmem
      · cases hnew
  · rcases World.locks_offer world worker.id .held with hlocks | hlocks <;>
      rw [World.happen, hlocks] at hlock
    · exact h.locks lock hlock
    · rcases List.mem_append.mp hlock with hold | hnew
      · exact h.locks lock hold
      · exact .inl (by rw [List.mem_singleton.mp hnew])

/-- No worker is left that could offer its slot. -/
lemma close (h : Manned entries workers world) (hgone : ∀ worker ∈ workers, worker.phase = .gone) :
    Manned entries workers (world.happen .close) :=
  { h with
    booked := h.booked.same rfl rfl rfl rfl
    isOpen := .inr hgone }

/-- The inbox of a worker that has gone is closed. -/
lemma shut (h : Manned entries workers world) (hmem : worker ∈ workers)
    (hgone : worker.phase = .gone) (hempty : world.letter worker.id = none) :
    Manned entries workers (world.shutInbox worker.id) := by
  refine
    { h with
      booked := h.booked.shut hempty
      locks := fun lock hlock => ?_ }
  obtain ⟨inbox, hinbox, rfl⟩ := List.mem_map.mp hlock
  obtain ⟨old, hold, rfl⟩ := List.mem_map.mp hinbox
  split <;> rename_i hname
  · refine .inr ⟨rfl, fun other hother hid => ?_⟩
    rw [h.alike other hother worker hmem (hid.trans (by simpa using hname))]
    exact hgone
  · exact h.locks _ (List.mem_map_of_mem hold)

/-- A worker that has not gone turns to something else. -/
lemma setPhase {live : Live} (h : Manned entries live.workers world)
    (hmem : worker ∈ live.workers) (hne : worker.phase ≠ .gone) {phase : WorkerPhase}
    (hgone : phase = .gone → world.shutdown = true) :
    Manned entries (live.setPhase worker.id phase).workers world := by
  refine
    { h with
      offered := by rw [names_setPhase]; exact h.offered
      locks := fun lock hlock => ?_
      capacity := by rw [h.capacity, Live.setPhase, List.length_map]
      isOpen := h.isOpen.imp_right fun hall => absurd (hall worker hmem) hne
      gone := fun other hother hphase => ?_
      staff := fun hnil => h.staff (List.map_eq_nil_iff.mp hnil)
      alike := fun a ha b hb hid => ?_ }
  · refine (h.locks lock hlock).imp_right fun ⟨hkind, hall⟩ => ⟨hkind, fun other hother hid => ?_⟩
    rcases mem_setPhase hother with ⟨hname, -⟩ | ⟨-, hold⟩
    · exact absurd (hall worker hmem (hname.symm.trans hid)) hne
    · exact hall other hold hid
  · rcases mem_setPhase hother with ⟨-, hnew⟩ | ⟨-, hold⟩
    · exact hgone (hnew.symm.trans hphase)
    · exact h.gone other hold hphase
  · rcases mem_setPhase ha with ⟨hida, hpa⟩ | ⟨hida, hold⟩ <;>
      rcases mem_setPhase hb with ⟨hidb, hpb⟩ | ⟨hidb, holdb⟩
    · cases a
      cases b
      simp_all
    · exact absurd (hid.symm.trans hida) hidb
    · exact absurd (hid.trans hidb) hida
    · exact h.alike a hold b holdb hid

end Manned

end Shift
end LeaseQueue
