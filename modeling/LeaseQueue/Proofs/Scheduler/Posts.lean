/-
Every worker of a shift is at its post.

* `Shift.Post`: what a worker is at, and how much there may be for it then;
* `Shift.Sound`: every worker is at its post, and every task is accounted for;
* `Sound.room`: a worker that offers its slot finds room for it;
* `Sound.scan`, `Sound.offer`, `Sound.take`, `Sound.finish`, `Sound.leave`, `Sound.discard`,
  `Sound.shut`: what may happen keeps that;
* `Sound.steps`: so it holds all the time.
-/
import LeaseQueue.Proofs.Scheduler.Shift
import Mathlib.Data.List.Nodup
import Mathlib.Data.List.Perm.Subperm
import Mathlib.Logic.Relation
import Mathlib.Order.Nat

namespace LeaseQueue

open Scanner

namespace Shift

/-! ### The posts of the workers -/

/-- What a worker is at, by what there is for it, what it runs and what it has thrown away. -/
def Post (load : Nat) (running left : List ClaimedTask) : WorkerPhase → Prop
  | .offering => load = 0 ∧ running.length ≤ 1 ∧ left = []
  | .waiting => load = 1 ∧ running = [] ∧ left = []
  | .gone => load + left.length ≤ 1 ∧ running = []

lemma Post.congr {load load' : Nat} {running running' left left' : List ClaimedTask}
    {phase : WorkerPhase} (h : Post load running left phase) (hload : load' = load)
    (hrunning : running' = running) (hleft : left' = left) : Post load' running' left' phase := by
  rwa [hload, hrunning, hleft]

lemma Post.load_le {load : Nat} {running left : List ClaimedTask} {phase : WorkerPhase}
    (h : Post load running left phase) : load ≤ 1 := by
  cases phase with
  | offering => exact h.1.le.trans (Nat.zero_le 1)
  | waiting => exact h.1.le
  | gone => exact (Nat.le_add_right _ _).trans h.1

lemma Post.running_le {load : Nat} {running left : List ClaimedTask} {phase : WorkerPhase}
    (h : Post load running left phase) : running.length ≤ 1 := by
  cases phase with
  | offering => exact h.2.1
  | waiting => exact (congrArg List.length h.2.1).le.trans (Nat.zero_le 1)
  | gone => exact (congrArg List.length h.2).le.trans (Nat.zero_le 1)

lemma Post.left_eq_nil {load : Nat} {running left : List ClaimedTask} {phase : WorkerPhase}
    (h : Post load running left phase) (hphase : phase ≠ .gone) : left = [] := by
  cases phase with
  | offering | waiting => exact h.2.2
  | gone => exact absurd rfl hphase

/-- A run ends. -/
lemma Post.rest {load : Nat} {running next left : List ClaimedTask} {phase : WorkerPhase}
    (hle : next.length ≤ running.length) (h : Post load running left phase) :
    Post load next left phase := by
  cases phase with
  | offering => exact ⟨h.1, hle.trans h.2.1, h.2.2⟩
  | waiting => exact ⟨h.1, List.length_eq_zero_iff.mp (by simpa [h.2.1] using hle), h.2.2⟩
  | gone => exact ⟨h.1, List.length_eq_zero_iff.mp (by simpa [h.2] using hle)⟩

/-- A worker that has gone throws a task away. -/
lemma Post.throw {load next : Nat} {running left : List ClaimedTask}
    (h : Post load running left .gone) (hnext : next + 1 = load) (task : ClaimedTask) :
    Post next running (left ++ [task]) .gone := by
  refine ⟨?_, h.2⟩
  have hload := h.1
  rw [List.length_append, List.length_singleton]
  omega

/-- Less may become of what there is for a worker that has gone. -/
lemma Post.shrink {load next : Nat} {running left : List ClaimedTask} {phase : WorkerPhase}
    (hle : next ≤ load) (hstay : phase ≠ .gone → next = load)
    (h : Post load running left phase) : Post next running left phase := by
  cases phase with
  | offering | waiting => rwa [hstay (by decide)]
  | gone => exact ⟨(Nat.add_le_add_right hle _).trans h.1, h.2⟩

def AtPost (shift : Shift) (worker : PoolWorker) : Prop :=
  Post (shift.world.load shift.journal worker.id) (tasksOf shift.running worker.id)
    (tasksOf shift.left worker.id) worker.phase

/-- Every worker is at its post, and everything is accounted for. -/
structure Sound (shift : Shift) : Prop where
  manned : Manned shift.journal shift.live.workers shift.world
  posts : ∀ worker ∈ shift.live.workers, shift.AtPost worker
  staffed : ∀ task ∈ shift.running, task.1 ∈ shift.live.workers.map PoolWorker.id
  taken : ∀ worker, shift.world.takenBy worker =
    tasksOf shift.ended worker ++ tasksOf shift.running worker ++ tasksOf shift.left worker
  total : shift.live.stats.totalRuns = shift.ended.length
  runs : shift.live.runs.map RunRecord.task = shift.ended.map Prod.snd

namespace Sound

variable {shift : Shift} {worker : PoolWorker}

lemma opening {store : Store} {registry : Registry Handler} {settings : SchedulerSettings}
    {name : Nat → WorkerId} (hworkers : 1 ≤ settings.workers) :
    (Shift.opening store registry settings name).Sound where
  manned := .opening hworkers
  posts worker hmem := by
    rw [AtPost, Manned.phase_poolOf worker hmem]
    exact ⟨rfl, Nat.zero_le _, rfl⟩
  staffed := List.forall_mem_nil _
  taken _ := rfl
  total := rfl
  runs := rfl

/-- What happens beside the slots and the inboxes. -/
lemma still (h : shift.Sound) {world : World Site Handler} {more : List Entry}
    (hstill : shift.world.Still world) (booked : world.Booked (shift.journal ++ more))
    (taken : world.log.taken = shift.world.log.taken)
    (hoffered : more.filterMap Entry.offer? = []) (hused : more.filterMap Entry.use? = [])
    (hlost : ∀ worker, more.filterMap (Entry.lost? worker) = []) :
    Sound { shift.withWorld world with journal := shift.journal ++ more } := by
  refine
    { h with
      manned := h.manned.still hstill booked hoffered hused
      posts := fun worker hmem => ?_
      taken := fun worker => ?_ }
  · have hload := h.manned.booked.load_same booked taken hoffered (hlost worker.id)
    have hpost := h.posts worker hmem
    rw [AtPost, ← hload] at hpost
    exact hpost
  · have htaken : world.takenBy worker = shift.world.takenBy worker := by
      rw [World.takenBy, taken, World.takenBy]
    exact htaken.trans (h.taken worker)

/-- What changes the world without an entry in the journal. -/
lemma quiet (h : shift.Sound) {world : World Site Handler} (hstill : shift.world.Still world)
    (booked : world.Booked shift.journal) (taken : world.log.taken = shift.world.log.taken) :
    Sound (shift.withWorld world) := by
  have hbooked : world.Booked (shift.journal ++ []) := by rwa [List.append_nil]
  have hnext := h.still hstill hbooked taken rfl rfl fun _ => rfl
  rwa [List.append_nil] at hnext

/-- The scanner moves. -/
lemma scan (h : shift.Sound) {source : ClaimSource Site} {seen : Bool}
    {next : World Site Handler} (hseen : seen = true → shift.world.shutdown = true)
    (hmove : ({ shift.world with shutdown := seen } : World Site Handler).move? source =
      some next) :
    Sound { shift.withWorld { next with shutdown := shift.world.shutdown } with
      journal := shift.journal ++ shift.world.doing source } := by
  have hmanned := h.manned.moved hseen hmove
  have hbound : ({ shift.world with shutdown := seen } : World Site Handler).Bound
      (shift.world.doing source) next :=
    World.bound_of_moved h.manned.held (World.moved_of_move? hmove)
  have htaken (worker : WorkerId) :
      ({ next with shutdown := shift.world.shutdown } : World Site Handler).takenBy worker =
        shift.world.takenBy worker :=
    congrArg (List.filterMap _) hbound.taken
  refine
    { h with
      manned := hmanned
      posts := fun worker hmem => ?_
      taken := fun worker => (htaken worker).trans (h.taken worker) }
  have hload := h.manned.booked.load_step hmanned.booked worker.id
  rw [htaken, hbound.offered, List.count_nil] at hload
  -- tasks are lost only for workers that have gone, so that nothing changes for the others
  have hlost : worker.phase ≠ .gone →
      (shift.world.doing source).filterMap (Entry.lost? worker.id) = [] := by
    intro hne
    refine Entry.lost_eq_nil fun task htask => hne ?_
    exact hmanned.gone_of_dropped hmem (List.mem_append_right _ htask)
  refine Post.shrink ?_ (fun hne => ?_) (h.posts worker hmem)
  · exact Nat.le_of_add_le_add_right ((Nat.le_add_right _ _).trans hload.le)
  · rw [hlost hne, List.length_nil, Nat.add_zero] at hload
    exact Nat.add_right_cancel hload

/-- There is at most one slot of each worker, and none of anybody else. -/
lemma nodup_slots (h : shift.Sound) : (slots shift.journal).Nodup := by
  refine List.nodup_iff_count_le_one.mpr fun name => ?_
  by_cases hname : name ∈ slots shift.journal
  · obtain ⟨worker, hmem, rfl⟩ :=
      List.mem_map.mp (h.manned.offered name (List.mem_of_mem_drop hname))
    exact (Nat.le_add_right _ _).trans (h.posts worker hmem).load_le
  · rw [List.count_eq_zero_of_not_mem hname]
    exact Nat.zero_le _

lemma slots_subset (h : shift.Sound) :
    slots shift.journal ⊆ shift.live.workers.map PoolWorker.id :=
  fun name hname => h.manned.offered name (List.mem_of_mem_drop hname)

lemma not_mem_slots (h : shift.Sound) (hmem : worker ∈ shift.live.workers)
    (hphase : worker.phase = .offering) : worker.id ∉ slots shift.journal := by
  have hpost := h.posts worker hmem
  rw [AtPost, hphase] at hpost
  exact List.count_eq_zero.mp (Nat.eq_zero_of_add_eq_zero_right hpost.1)

/-- There is room for the slot of a worker that is about to offer it. -/
lemma room (h : shift.Sound) (hmem : worker ∈ shift.live.workers)
    (hphase : worker.phase = .offering) :
    shift.world.isOpen = true ∧ shift.world.offers.length < shift.world.capacity := by
  have hnodup : (worker.id :: slots shift.journal).Nodup :=
    List.nodup_cons.mpr ⟨h.not_mem_slots hmem hphase, h.nodup_slots⟩
  have hsubset : worker.id :: slots shift.journal ⊆ shift.live.workers.map PoolWorker.id :=
    List.cons_subset.mpr ⟨List.mem_map_of_mem hmem, h.slots_subset⟩
  have hlength := (hnodup.subperm hsubset).length_le
  rw [List.length_cons, List.length_map] at hlength
  constructor
  · refine h.manned.isOpen.resolve_right fun hall => ?_
    have hgone := hall worker hmem
    rw [hphase] at hgone
    cases hgone
  · rw [h.manned.capacity]
    exact Nat.lt_of_le_of_lt h.manned.queue_le hlength

/-- A worker offers its slot. -/
lemma offer (h : shift.Sound) (hmem : worker ∈ shift.live.workers)
    (hphase : worker.phase = .offering) (hidle : tasksOf shift.running worker.id = [])
    (hscanner : shift.world.phase ≠ .stopped) :
    Sound ((shift.happen (.offer worker.id .held)).setPhase worker.id .waiting) := by
  have hmanned := h.manned.offer hmem hscanner
  have hheard : (shift.world.heard (.offer worker.id .held)).filterMap Entry.offer? =
      [worker.id] := by
    obtain ⟨hopen, hlength⟩ := h.room hmem hphase
    rw [World.heard, hopen, decide_eq_true hlength]
    rfl
  have hload (name : WorkerId) :
      (shift.world.happen (.offer worker.id .held)).load
          (shift.journal ++ shift.world.heard (.offer worker.id .held)) name =
        shift.world.load shift.journal name + [worker.id].count name := by
    have hstep := h.manned.booked.load_step hmanned.booked name
    rw [World.lost_heard, hheard] at hstep
    exact Nat.add_right_cancel (hstep.trans (Nat.add_right_comm _ _ _))
  have hpost := h.posts worker hmem
  rw [AtPost, hphase] at hpost
  obtain ⟨hnone, -, hleft⟩ := hpost
  refine
    { h with
      manned := hmanned.setPhase hmem (by rw [hphase]; decide) fun hgone => by cases hgone
      staffed := by
        rw [setPhase, names_setPhase]
        exact h.staffed
      posts := forall_setPhase ?_ fun other hold hname => ?_ }
  · exact ⟨(hload worker.id).trans (by rw [hnone, List.count_singleton_self]), hidle, hleft⟩
  · refine (h.posts other hold).congr ((hload other.id).trans ?_) rfl rfl
    rw [List.count_singleton, if_neg (by simpa using Ne.symm hname), Nat.add_zero]

/-- A worker empties its inbox. -/
lemma manned_take (h : shift.Sound) (name : WorkerId) :
    Manned shift.journal shift.live.workers (shift.world.happen (.take name)) := by
  have hbooked := h.manned.booked.happen (.take name)
  have hmanned := h.manned.still (shift.world.still_take name) hbooked rfl rfl
  rwa [World.heard, List.append_nil] at hmanned

lemma takenBy_take {name : WorkerId} {task : ClaimedTask}
    (hinbox : shift.live.inboxOf name = some task) (other : WorkerId) :
    (shift.world.happen (.take name)).takenBy other =
      shift.world.takenBy other ++ if name = other then [task] else [] := by
  have htake : shift.world.happen (.take name) =
      (shift.world.fill name none).logTaken name (some task) := by rw [← hinbox]; rfl
  rw [htake, World.takenBy_logTaken]
  rfl

lemma load_take (h : shift.Sound) {name : WorkerId} {task : ClaimedTask}
    (hinbox : shift.live.inboxOf name = some task) (other : WorkerId) :
    (shift.world.happen (.take name)).load shift.journal other +
        (if name = other then 1 else 0) = shift.world.load shift.journal other := by
  have hbefore := h.manned.booked.count_offer other
  have hbehind := (h.manned_take name).booked.count_offer other
  rw [takenBy_take hinbox, List.length_append] at hbehind
  split at hbehind <;> rename_i hname
  · rw [List.length_singleton] at hbehind
    rw [if_pos hname]
    omega
  · rw [List.length_nil] at hbehind
    rw [if_neg hname]
    omega

/-- A worker takes its task, and the run begins. -/
lemma take (h : shift.Sound) {task : ClaimedTask} (hmem : worker ∈ shift.live.workers)
    (hphase : worker.phase = .waiting) (hinbox : shift.live.inboxOf worker.id = some task) :
    Sound
      { (shift.withWorld (shift.world.happen (.take worker.id))).setPhase worker.id .offering with
        running := shift.running ++ [(worker.id, task)] } := by
  have hpost := h.posts worker hmem
  rw [AtPost, hphase] at hpost
  obtain ⟨hone, hidle, hleft⟩ := hpost
  have hload := h.load_take hinbox
  refine
    { h with
      manned := (h.manned_take worker.id).setPhase hmem (by rw [hphase]; decide)
        fun hgone => by cases hgone
      posts := forall_setPhase ⟨?_, ?_, hleft⟩ fun other hold hname => ?_
      staffed := fun run hrun => ?_
      taken := fun name => ?_ }
  · have hnone := hload worker.id
    rw [if_pos rfl, hone] at hnone
    exact Nat.succ.inj hnone
  · rw [tasksOf_concat, hidle, if_pos rfl]
    exact le_rfl
  · have hsame := hload other.id
    rw [if_neg (Ne.symm hname), Nat.add_zero] at hsame
    refine (h.posts other hold).congr hsame ?_ rfl
    rw [tasksOf_concat, if_neg (Ne.symm hname), List.append_nil]
  · rw [setPhase, names_setPhase]
    rcases List.mem_append.mp hrun with hold | hnew
    · exact h.staffed run hold
    · rw [List.mem_singleton.mp hnew]
      exact List.mem_map_of_mem hmem
  · refine (takenBy_take hinbox name).trans ?_
    rw [h.taken, tasksOf_concat]
    by_cases hname : worker.id = name
    · subst hname
      have hnone : tasksOf shift.left worker.id = [] := hleft
      simp [hidle, hnone, setPhase, withWorld]
    · simp [hname, setPhase, withWorld]

/-- A worker runs at most one task. -/
lemma tasksOf_running (h : shift.Sound) (name : WorkerId) :
    (tasksOf shift.running name).length ≤ 1 := by
  by_cases hname : name ∈ shift.live.workers.map PoolWorker.id
  · obtain ⟨worker, hmem, rfl⟩ := List.mem_map.mp hname
    exact (h.posts worker hmem).running_le
  · have hnone : tasksOf shift.running name = [] := by
      refine List.filterMap_eq_nil_iff.mpr fun run hrun => if_neg fun heq => hname ?_
      exact heq ▸ h.staffed run hrun
    rw [hnone]
    exact Nat.zero_le _

/-- A run ends. -/
lemma finish (h : shift.Sound) {before after : List (WorkerId × ClaimedTask)} {name : WorkerId}
    {task : ClaimedTask} (hrunning : shift.running = before ++ (name, task) :: after) (site : Site)
    (reply : RunReply) :
    Sound { shift with
      live := (shift.live.withSite site).recordRun task reply
      running := before ++ after
      ended := shift.ended ++ [(name, task)] } := by
  -- the end of the run changes the world beside the slots, and then the accounts
  have hquiet :
      Sound (shift.withWorld ((shift.live.withSite site).recordRun task reply).world) := by
    rcases (shift.live.withSite site).world_recordRun task reply with hworld | hworld <;>
      rw [hworld]
    · exact h.quiet ⟨rfl, rfl, rfl, rfl, rfl, id⟩ (h.manned.booked.same rfl rfl rfl rfl) rfl
    · exact h.quiet ⟨rfl, rfl, rfl, rfl, rfl, fun _ => rfl⟩ (h.manned.booked.same rfl rfl rfl rfl)
        rfl
  have hworkers : ((shift.live.withSite site).recordRun task reply).workers = shift.live.workers :=
    (shift.live.withSite site).workers_recordRun task reply
  have htasks (other : WorkerId) : tasksOf shift.running other =
      tasksOf before other ++ ((if name = other then [task] else []) ++ tasksOf after other) := by
    rw [hrunning, tasksOf_append, tasksOf_cons]
  refine
    { manned := hworkers ▸ hquiet.manned
      posts := fun worker hmem => ?_
      staffed := fun run hrun => ?_
      taken := fun other => (hquiet.taken other).trans ?_
      total := ?_
      runs := ?_ }
  · have hmem' : worker ∈ shift.live.workers := hworkers ▸ hmem
    refine Post.rest ?_ (hquiet.posts worker hmem')
    have hlength := congrArg List.length (htasks worker.id)
    simp only [List.length_append] at hlength
    rw [tasksOf_append, List.length_append]
    exact (Nat.add_le_add_left (Nat.le_add_left _ _) _).trans hlength.symm.le
  · refine hworkers ▸ h.staffed run ?_
    rw [hrunning]
    rcases List.mem_append.mp hrun with hbefore | hafter
    · exact List.mem_append_left _ hbefore
    · exact List.mem_append_right _ (List.mem_cons_of_mem _ hafter)
  · have hrun : tasksOf (shift.withWorld
        ((shift.live.withSite site).recordRun task reply).world).running other =
          tasksOf shift.running other := rfl
    rw [hrun, htasks, tasksOf_append, tasksOf_append, tasksOf_cons]
    split
    · -- the worker runs nothing else
      have hle := h.tasksOf_running other
      rw [htasks, if_pos ‹name = other›, List.length_append, List.length_append,
        List.length_singleton] at hle
      have hbefore : tasksOf before other = [] := List.length_eq_zero_iff.mp (by omega)
      have hafter : tasksOf after other = [] := List.length_eq_zero_iff.mp (by omega)
      simp [hbefore, hafter, withWorld]
    · simp [withWorld]
  · rw [Live.totalRuns_recordRun, List.length_append]
    exact congrArg (· + 1) h.total
  · rw [Live.tasks_recordRun, List.map_append]
    exact congrArg (· ++ [task]) h.runs

/-- A worker goes. -/
lemma leave (h : shift.Sound) (hmem : worker ∈ shift.live.workers) (hphase : worker.phase ≠ .gone)
    (hidle : tasksOf shift.running worker.id = [])
    (why : shift.world.shutdown = true ∨
      worker.phase = .offering ∧ shift.world.phase = .stopped) :
    Sound (shift.setPhase worker.id .gone) := by
  have hshutdown : shift.world.shutdown = true := why.elim id fun hwhy => h.manned.stopped hwhy.2
  have hpost := h.posts worker hmem
  have hleft := hpost.left_eq_nil hphase
  refine
    { h with
      manned := h.manned.setPhase hmem hphase fun _ => hshutdown
      staffed := by
        rw [setPhase, names_setPhase]
        exact h.staffed
      posts := forall_setPhase ⟨?_, hidle⟩ fun other hold _ => h.posts other hold }
  have hload := hpost.load_le
  have hnone : tasksOf (shift.setPhase worker.id .gone).left worker.id = [] := hleft
  rw [hnone]
  exact hload

/-- A worker that has gone throws its task away. -/
lemma discard (h : shift.Sound) {task : ClaimedTask} (hmem : worker ∈ shift.live.workers)
    (hphase : worker.phase = .gone) (hinbox : shift.live.inboxOf worker.id = some task) :
    Sound { shift.withWorld (shift.world.happen (.take worker.id)) with
      left := shift.left ++ [(worker.id, task)] } := by
  have hload := h.load_take hinbox
  refine
    { h with
      manned := h.manned_take worker.id
      posts := fun other hother => ?_
      taken := fun name => ?_ }
  · by_cases hname : worker.id = other.id
    · obtain rfl := h.manned.alike worker hmem other hother hname
      have hone := hload worker.id
      have hpost := h.posts worker hmem
      rw [if_pos rfl] at hone
      rw [AtPost, hphase] at hpost ⊢
      refine (hpost.throw hone task).congr rfl rfl ?_
      rw [tasksOf_concat, if_pos rfl]
    · have hsame := hload other.id
      rw [if_neg hname, Nat.add_zero] at hsame
      refine (h.posts other hother).congr hsame rfl ?_
      rw [tasksOf_concat, if_neg hname, List.append_nil]
  · refine (takenBy_take hinbox name).trans ?_
    rw [h.taken, tasksOf_concat, List.append_assoc]
    rfl

/-- The inbox of a worker that has gone is closed. -/
lemma shut (h : shift.Sound) (hmem : worker ∈ shift.live.workers) (hphase : worker.phase = .gone)
    (hempty : shift.live.inboxOf worker.id = none) :
    Sound (shift.withWorld (shift.world.shutInbox worker.id)) := by
  refine
    { h with
      manned := h.manned.shut hmem hphase hempty
      posts := fun other hother => (h.posts other hother).congr ?_ rfl rfl }
  exact congrArg (fun letter => _ + letter.toList.length) (World.letter_shutInbox _ _ _)

/-- Every step keeps the workers at their posts. -/
theorem step (h : shift.Sound) {next : Shift} (hstep : shift.Step next) : next.Sound := by
  cases hstep with
  | scan source hseen hmove => exact h.scan hseen hmove
  | settle site | pass now =>
      exact h.quiet ⟨rfl, rfl, rfl, rfl, rfl, id⟩ (h.manned.booked.same rfl rfl rfl rfl) rfl
  | aside event haside =>
      obtain ⟨hstill, hlog⟩ := shift.world.still_aside haside
      exact h.still hstill (h.manned.booked.happen event)
        (congrArg Scanner.Log.taken hlog) (shift.world.heard_aside haside)
        (shift.world.heard_offers event).1 (shift.world.lost_heard event)
  | close hgone =>
      exact
        { h with
          manned := h.manned.close hgone
          posts := fun worker hmem => h.posts worker hmem }
  | offer hmem hphase hidle hscanner => exact h.offer hmem hphase hidle hscanner
  | take hmem hphase hinbox => exact h.take hmem hphase hinbox
  | finish hrunning site reply => exact h.finish hrunning site reply
  | leave hmem hphase hidle why => exact h.leave hmem hphase hidle why
  | discard hmem hphase hinbox => exact h.discard hmem hphase hinbox
  | shut hmem hphase hempty => exact h.shut hmem hphase hempty

/-- So they are there all the time. -/
theorem steps (h : shift.Sound) {next : Shift} (hsteps : Relation.ReflTransGen Step shift next) :
    next.Sound := by
  induction hsteps with
  | refl => exact h
  | tail _ hstep ih => exact ih.step hstep

end Sound

end Shift
end LeaseQueue
