/-
A scanner over a store only ever gets tasks that it has a handler for.

* `Site.Passage`, `Site.sharedSource`: a claim that reaches the store among all that others do to
  it, or does not, and whose answer may be lost;
* `Scanner.World.Shared`: what may happen next to a scanner over a store that others change as they
  like; `Step.shared`: their calls are a case of it;
* `Store.type_of_claimed`, `Store.foreign_claim`: a claim gives a task of a type that it asked for,
  and leaves the tasks of all other types alone;
* `Scanner.World.Known`: the task that is on its way has a handler, which every step keeps;
* `Scanner.World.unknown_types_untouched`: hence no task is failed for want of a handler, and tasks
  of other types are left alone;
* `Live.unfailed_rest`: nor does a scheduler at work fail one.
-/
import LeaseQueue.Proofs.Scheduler.Course
import LeaseQueue.Proofs.Scheduler.WakeUp

namespace LeaseQueue

/-! ### Handlers stay -/

namespace Scanner.World

variable {σ η : Type} {world next : World σ η} {taskType : String}

/-- A type that has a handler keeps it, whatever else happens. -/
lemma contains_happen (event : Event η) (h : world.registry.contains taskType = true) :
    (world.happen event).registry.contains taskType = true := by
  cases event with
  | offer | take | dropWake | close | shutdown => exact h
  | wake =>
      rw [happen]
      split <;> exact h
  | register other handler =>
      rw [happen]
      split
      · rename_i registry hregister
        rw [Registry.contains, Registry.get?_of_register hregister]
        split
        · rfl
        · exact h
      · exact h

end Scanner.World

/-! ### Claims on a store -/

/-- The rows of a table whose type has no handler. -/
def Table.foreign {η : Type} (registry : Registry η) (table : Table) : Table :=
  table.filter fun row => !registry.contains row.taskType

/-- A change of one row, which has a handler and keeps its type, leaves the others alone. -/
lemma Table.foreign_update {η : Type} {registry : Registry η} {table : Table} {row : Row}
    {f : Row → Row} (keyed : (table.map Row.id).Nodup) (hrow : row ∈ table)
    (htype : registry.contains row.taskType = true) (hf : ∀ row, (f row).taskType = row.taskType) :
    (table.update (only row.id fun _ => true) f).foreign registry = table.foreign registry := by
  have hpick : (fun row : Row => !registry.contains row.taskType) ∘
      (fun other => if only row.id (fun _ => true) other then f other else other) =
      fun row => !registry.contains row.taskType := by
    funext other
    simp only [Function.comp_apply]
    split
    · rw [hf]
    · rfl
  rw [foreign, foreign, update, List.filter_map, hpick]
  refine (List.map_congr_left fun other hother => if_neg fun honly => ?_).trans (List.map_id' _)
  obtain ⟨hmem, hforeign⟩ := List.mem_filter.mp hother
  have hid : other.id = row.id := (only_eq_true.mp honly).1
  rw [List.inj_on_of_nodup_map keyed hmem hrow hid, htype] at hforeign
  cases hforeign

namespace Store

variable {store : Store} {types : List String} {worker : WorkerId} {lease : Duration}

/-- A claim gives a task of a type that it asked for. -/
lemma type_of_claimed {task : ClaimedTask}
    (h : (store.claim types worker lease).answer = .ok (.claimed task)) :
    task.taskType ∈ types := by
  rcases store.claim_cases types worker lease with
    ⟨row, deadline, state, ho, -, -, hreply⟩ | ⟨hnone, -⟩
  · obtain ⟨-, he⟩ := List.mem_filter.mp (Table.oldest?_mem ho)
    rw [hreply] at h
    cases h
    exact (Row.isEligible_iff.mp he).2
  · exact absurd h (hnone task)

/-- A claim for the types that have a handler leaves all other tasks alone. -/
lemma foreign_claim {η : Type} (registry : Registry η)
    (keyed : (store.database.rows.map Row.id).Nodup) :
    (store.claim registry.types worker lease).store.database.rows.foreign registry =
      store.database.rows.foreign registry := by
  rcases store.claim_cases registry.types worker lease with
    ⟨row, deadline, state, ho, -, -, hreply⟩ | ⟨-, -, fault, -, hstore⟩
  · obtain ⟨hrow, he⟩ := List.mem_filter.mp (Table.oldest?_mem ho)
    have htype := Registry.contains_iff.mpr (Row.isEligible_iff.mp he).2
    rw [hreply, leased, Database.rows_change]
    exact Table.foreign_update keyed hrow htype fun _ => rfl
  · rw [hstore]

end Store

namespace Site

/-- What becomes of a call on its way to the store and back: it is answered, it does not reach the
store, or the store does it and the answer is lost. -/
inductive Passage where
  | answered
  | refused (e : TaskError)
  | lost (e : TaskError)

/-- The store as a source of claims that others change as they like, before a call and behind it. -/
def sharedSource (before after : Site → Site) (delay : Nat) (passage : Passage) :
    Scanner.ClaimSource Site where
  claim site types worker lease :=
    let reply := (before site).claim types worker lease
    match passage with
    | .answered => ⟨delay, reply.answer, after reply.source⟩
    | .refused e => ⟨delay, Store.claimAnswer (.error e), after (before site)⟩
    | .lost e => ⟨delay, Store.claimAnswer (.error e), after reply.source⟩
  failUnhandled site task message :=
    match passage with
    | .answered | .lost _ => after ((before site).failUnhandled task message)
    | .refused _ => after (before site)

/-- So do those who call it. -/
lemma busySource_shared (first rest : List Call) (delay : Nat) (failure : Option TaskError) :
    busySource first rest delay failure =
      sharedSource (·.calls first) (·.calls rest) delay
        (match failure with
        | some e => .refused e
        | none => .answered) := by
  cases failure <;> rfl

variable {site : Site} (before after : Site → Site) (delay : Nat) (passage : Passage)

/-- A task that is claimed has a type that was asked for. -/
lemma type_of_claimed {types : List String} {worker : WorkerId} {lease : Duration}
    {task : ClaimedTask}
    (h : ((sharedSource before after delay passage).claim site types worker lease).answer =
      .ok (.claimed task)) : task.taskType ∈ types := by
  cases passage with
  | answered => exact Store.type_of_claimed h
  | refused e | lost e => exact absurd h (Store.claimAnswer_error e task)

/-- Between what others do before a claim and behind it, the tasks of other types stay as they
are. -/
lemma foreign_claim {η : Type} (registry : Registry η) (worker : WorkerId) (lease : Duration)
    (keyed : ((before site).store.database.rows.map Row.id).Nodup) :
    ∃ between, ((sharedSource before after delay passage).claim site registry.types worker
        lease).source = after between ∧
      between.store.database.rows.foreign registry =
        (before site).store.database.rows.foreign registry := by
  cases passage with
  | answered | lost e => exact ⟨_, rfl, Store.foreign_claim registry keyed⟩
  | refused e => exact ⟨_, rfl, rfl⟩

end Site

/-! ### A scanner over a store -/

namespace Scanner.World

variable {η : Type} {world next : World Site η}

/-- What may happen next to a scanner over a store that others change as they like: they do so,
something else happens around the scanner, time passes, or the scanner moves. -/
inductive Shared : World Site η → World Site η → Prop where
  | change (world : World Site η) (site : Site) : Shared world { world with source := site }
  | event (world : World Site η) (event : Event η) : Shared world (world.happen event)
  | pass (world : World Site η) (now : Nat) : Shared world { world with now }
  | move {world next : World Site η} (before after : Site → Site) (delay : Nat)
      (passage : Site.Passage)
      (h : world.move? (Site.sharedSource before after delay passage) = some next) :
      Shared world next

/-- Whoever calls the store changes it, and a notification that arrives is one more event. -/
lemma Step.shared (h : world.Step next) : Relation.ReflTransGen Shared world next := by
  cases h with
  | call call => exact .single (.change world _)
  | @deliver channel site harrive hs =>
      have hchange : Shared world { world with source := site } := .change world site
      split
      · exact .tail (.single hchange) (.event _ .wake)
      · exact .single hchange
  | event event => exact .single (.event world event)
  | pass now => exact .single (.pass world now)
  | move first rest delay failure hmove =>
      rw [Site.busySource_shared] at hmove
      exact .single (.move _ _ _ _ hmove)

/-- The task that is on its way has a handler, and none was failed for want of one. -/
structure Known (world : World Site η) : Prop where
  claimed : ∀ worker task due, world.phase = .claiming worker (.ok (.claimed task)) due →
    world.registry.contains task.taskType = true
  unfailed : world.log.failed = []

namespace Known

variable {before after : Site → Site} {delay : Nat} {passage : Site.Passage}

lemma event (h : world.Known) (event : Event η) : (world.happen event).Known where
  claimed worker task due hphase := by
    rw [(world.left_happen event).phase] at hphase
    exact contains_happen event (h.claimed worker task due hphase)
  unfailed := (world.left_happen event).failed.trans h.unfailed

/-- The scanner does not fail the task that it takes up. -/
lemma react_claimed (h : world.Known) (source : ClaimSource Site) {worker : WorkerId}
    {task : ClaimedTask} {due : Nat}
    (hphase : world.phase = .claiming worker (.ok (.claimed task)) due) :
    world.react source worker (.ok (.claimed task)) =
      world.succeed (.delivering worker task) := by
  rw [react, if_pos (h.claimed worker task due hphase)]

/-- Taking up an answer changes neither the store nor what was failed. -/
lemma react (h : world.Known) (source : ClaimSource Site) {worker : WorkerId}
    {answer : Except TaskError Claim} {due : Nat}
    (hphase : world.phase = .claiming worker answer due) :
    (world.react source worker answer).source = world.source ∧
      (world.react source worker answer).log.failed = world.log.failed := by
  rcases answer with e | task | _ | _
  · exact ⟨rfl, rfl⟩
  · rw [h.react_claimed source hphase]
    exact ⟨rfl, rfl⟩
  · exact ⟨rfl, rfl⟩
  · exact ⟨rfl, rfl⟩

lemma move (h : world.Known)
    (hmove : world.move? (Site.sharedSource before after delay passage) = some next) :
    next.Known := by
  have hturn := turn_of_move? hmove
  generalize world.doing _ = more at hturn
  cases hturn with
  | @claim worker hphase =>
      refine ⟨fun _ task due hclaiming => ?_, h.unfailed⟩
      have hanswer := (Phase.claiming.inj hclaiming).2.1
      exact Registry.contains_iff.mpr (Site.type_of_claimed before after delay passage hanswer)
  | react hphase =>
      exact ⟨fun _ _ _ hclaiming => absurd hclaiming (world.phase_react _),
        (h.react _ hphase).2.trans h.unfailed⟩
  | other on =>
      exact ⟨fun _ _ _ hclaiming => absurd hclaiming (on.phase _ _ _), on.failed.trans h.unfailed⟩

/-- Every step keeps the task known. -/
theorem step (h : world.Known) (hstep : world.Shared next) : next.Known := by
  cases hstep with
  | change site => exact ⟨h.claimed, h.unfailed⟩
  | event event => exact h.event event
  | pass now => exact ⟨h.claimed, h.unfailed⟩
  | move before after delay passage hmove => exact h.move hmove

/-- So it is known all the time. -/
theorem steps (h : world.Known) (hsteps : Relation.ReflTransGen Shared world next) :
    next.Known := by
  induction hsteps with
  | refl => exact h
  | tail _ hstep ih => exact ih.step hstep

/-- A scanner that waits for its first worker has no task on its way. -/
lemma start (idle : world.phase = .waiting) (unfailed : world.log.failed = []) : world.Known where
  claimed worker task due hphase := by
    rw [idle] at hphase
    cases hphase
  unfailed := unfailed

/-- A move leaves the store alone, or makes a claim among what others do. -/
lemma source_move (h : world.Known)
    (hmove : world.move? (Site.sharedSource before after delay passage) = some next)
    (keyed : ((before world.source).store.database.rows.map Row.id).Nodup) :
    next.source = world.source ∨ ∃ between, next.source = after between ∧
      between.store.database.rows.foreign world.registry =
        (before world.source).store.database.rows.foreign world.registry := by
  have hturn := turn_of_move? hmove
  generalize world.doing _ = more at hturn
  cases hturn with
  | claim => exact .inr (Site.foreign_claim before after delay passage world.registry _ _ keyed)
  | react hphase => exact .inl (h.react _ hphase).1
  | other on => exact .inl on.source

end Known

/-- Over a store that others change as they like, and with handlers that are registered at any
time, a task that is claimed has a handler when the scanner takes it up. So no task is failed for
want of a handler, and the tasks of types without one are left alone: in a table whose numbers are
distinct a move changes none of them between what others do. -/
theorem unknown_types_untouched {start world : World Site η} (idle : start.phase = .waiting)
    (unfailed : start.log.failed = []) (run : Relation.ReflTransGen Shared start world) :
    (∀ worker task due, world.phase = .claiming worker (.ok (.claimed task)) due →
      world.registry.contains task.taskType = true) ∧
    world.log.failed = [] ∧
    ∀ before after delay passage next,
      world.move? (Site.sharedSource before after delay passage) = some next →
      ((before world.source).store.database.rows.map Row.id).Nodup →
      next.source = world.source ∨ ∃ between, next.source = after between ∧
        between.store.database.rows.foreign world.registry =
          (before world.source).store.database.rows.foreign world.registry := by
  have known : world.Known := (Known.start idle unfailed).steps run
  exact ⟨known.claimed, known.unfailed, fun before after delay passage next hmove keyed =>
    known.source_move hmove keyed⟩

/-- Somebody leaves a parcel and a letter. -/
def mailbox : World Site Unit :=
  { letters with
    source := letters.source.calls
      [.perform (.create "parcel" none), .perform (.create "letter" none)] }

/-- A worker is idle, and the scanner takes it. -/
def mailboxWorker : World Site Unit :=
  { mailbox.happen (.offer "worker" .held) with offers := [], phase := .scanning "worker" }

/-- Somebody leaves another parcel. -/
def anotherParcel (site : Site) : Site := site.call (.perform (.create "parcel" none))

/-- The scanner claims a letter, and another parcel comes behind the claim. -/
def mailboxClaim : World Site Unit :=
  World.claim (Site.sharedSource id anotherParcel 5 .answered) mailboxWorker "worker"

/-- While the claim is under way, parcels get a handler. -/
def parcelsHandled : World Site Unit := mailboxClaim.happen (.register "parcel" ())

/-- The letter that is claimed has a handler, and the claim has left the first parcel alone. -/
theorem mailbox_untouched :
    mailbox.phase = .waiting ∧ mailbox.log.failed = [] ∧
      (∃ task, parcelsHandled.phase = .claiming "worker" (.ok (.claimed task)) 5 ∧
        task.taskType = "letter" ∧ parcelsHandled.registry.contains task.taskType = true) ∧
      parcelsHandled.registry.types = ["letter", "parcel"] ∧ parcelsHandled.log.failed = [] ∧
      ∃ between, mailboxClaim.source = anotherParcel between ∧
        between.store.database.rows.foreign mailboxWorker.registry =
          mailboxWorker.source.store.database.rows.foreign mailboxWorker.registry := by
  have offered : Shared mailbox (mailbox.happen (.offer "worker" .held)) := .event _ _
  have taken : Shared (mailbox.happen (.offer "worker" .held)) mailboxWorker :=
    .move id id 0 .answered rfl
  have claims : mailboxWorker.move? (Site.sharedSource id anotherParcel 5 .answered) =
      some mailboxClaim := rfl
  have registered : Shared mailboxClaim parcelsHandled := .event _ _
  have toWorker : Relation.ReflTransGen Shared mailbox mailboxWorker :=
    .tail (.single offered) taken
  have run : Relation.ReflTransGen Shared mailbox parcelsHandled :=
    .tail (.tail toWorker (.move _ _ _ _ claims)) registered
  obtain ⟨known, unfailed, -⟩ := unknown_types_untouched rfl rfl run
  obtain ⟨-, -, untouched⟩ := unknown_types_untouched rfl rfl toWorker
  have hclaiming : parcelsHandled.phase =
      .claiming "worker" (.ok (.claimed ⟨2, "letter", .emptyObject, "worker"⟩)) 5 := rfl
  have hsource : mailboxClaim.source ≠ mailboxWorker.source := fun h =>
    absurd (congrArg (fun site => site.store.database.rows.length) h) (by decide +kernel)
  exact ⟨rfl, rfl, ⟨_, hclaiming, rfl, known _ _ _ hclaiming⟩, by decide +kernel, unfailed,
    (untouched id anotherParcel 5 .answered mailboxClaim claims (by decide +kernel)).resolve_left
      hsource⟩

end Scanner.World

/-- Nor does a scheduler at work fail a task for want of a handler. -/
theorem Live.unfailed_rest {live : Live} (signals : live.world.wake.signals ≠ 0)
    (idle : live.world.phase = .waiting) (unfailed : live.world.log.failed = []) (n : Nat) :
    (live.rest n).world.log.failed = [] := by
  have run := Relation.reflTransGen_closed (fun _ _ => Scanner.World.Step.shared) _ _
    (goesTo_rest signals n).steps
  exact ((Scanner.World.Known.start idle unfailed).steps run).unfailed

end LeaseQueue
