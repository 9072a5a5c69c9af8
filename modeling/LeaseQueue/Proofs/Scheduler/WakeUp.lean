/-
No wake-up is lost: a scanner that waits has seen all the work there is.

* `Site.call`, `Site.busySource`: others call the store, also in the midst of a claim;
* `Scanner.World.Step`: what may happen next to a scanner over a store that others use;
* `Site.Told`: there is no work of some types, or a notification of it is on its way;
* `Site.told_call`, `Site.told_of_empty`: calls keep this, and a claim that finds nothing
  brings it about;
* `Scanner.World.move?_cases`: what the scanner can do next;
* `Scanner.World.Alert`: a scanner that has found nothing will hear of all there is, which
  every step keeps (`Alert.step`);
* `Scanner.World.parked_seen`: a scanner that waits without a wake-up on its way has seen all;
* `Live.goesTo_rest`: a scheduler at work goes on by such steps.

Transactions run one at a time. The notification of a commit travels behind the commit, and
arrives at any later time. A claim takes a pending wake-up, reads the types and has its answer
from one moment before its end; the calls that others make before and behind that moment belong
to the source. A notification that arrives in between can as well arrive behind the claim: the
wake-up that it raises is not taken before.
-/
import LeaseQueue.Proofs.Scheduler.Journal
import LeaseQueue.Proofs.Store.Notice
import LeaseQueue.Scheduler.Live

namespace LeaseQueue

/-! ### A store that others use -/

namespace Site

/-- Somebody calls the store, and the notifications are on their way. -/
def call (site : Site) (call : Call) : Site :=
  { site with
    store := call.next site.channel site.store
    inFlight := site.inFlight ++ call.published site.channel site.store }

/-- Some calls, one after another. -/
def calls (site : Site) (calls : List Call) : Site := calls.foldl Site.call site

/-- The store as a source of claims while others use it: some of their calls come first, the
rest behind the claim. The answer takes a while, and the claim may fail on its way to the
store. -/
def busySource (first rest : List Call) (delay : Nat) (failure : Option TaskError) :
    Scanner.ClaimSource Site where
  claim site types worker lease :=
    match failure with
    | some e => ⟨delay, Store.claimAnswer (.error e), (site.calls first).calls rest⟩
    | none =>
      let reply := (site.calls first).claim types worker lease
      ⟨delay, reply.answer, reply.source.calls rest⟩
  failUnhandled site task message :=
    match failure with
    | some _ => (site.calls first).calls rest
    | none => ((site.calls first).failUnhandled task message).calls rest

/-- Where nobody else uses the store it is the source that the scheduler takes. -/
lemma busySource_still : busySource [] [] 0 none = source := rfl

end Site

namespace Scanner.World

variable {η : Type}

/-- What may happen next to a scanner over a store that others use: somebody calls the store,
a notification arrives at the listener and wakes the scanner up, something else happens around
the scanner, time passes, or the scanner moves. -/
inductive Step : World Site η → World Site η → Prop where
  | call (world : World Site η) (call : Call) :
      Step world { world with source := world.source.call call }
  | deliver (world : World Site η) {channel : Channel} {site : Site}
      (h : world.source.arrive? = some (channel, site)) (hs : world.wake.signals ≠ 0) :
      Step world
        (if channel = site.channel then ({ world with source := site } : World Site η).happen .wake
        else { world with source := site })
  | event (world : World Site η) (event : Event η) : Step world (world.happen event)
  | pass (world : World Site η) (now : Nat) : Step world { world with now }
  | move {world next : World Site η} (first rest : List Call) (delay : Nat)
      (failure : Option TaskError)
      (h : world.move? (Site.busySource first rest delay failure) = some next) : Step world next

/-- A scanner before its first move, over the empty store. -/
def fresh (clock : Micros) (channel : Channel) (registry : Registry η) (lease : Duration)
    (fallback : Option Duration) (backoff : Backoff Double) (capacity : Nat) : World Site η where
  source := { store := .initial clock, channel }
  registry
  lease
  fallback
  backoff
  capacity

/-- A scanner has found nothing to claim and is about to wait, or it waits. -/
def FoundNothing : Phase → Prop
  | .claiming _ (.ok .empty) _ | .parked _ _ => True
  | _ => False

lemma foundNothing_claiming {worker : WorkerId} {answer : Except TaskError Claim} {due : Nat} :
    FoundNothing (.claiming worker answer due) ↔ answer = .ok .empty := by
  rcases answer with e | _ | _ | _ <;> simp [FoundNothing]

end Scanner.World

/-! ### What a claim has not seen -/

namespace Site

/-- A notification is on its way, or there is no pending task of some types. -/
def Told (types : List String) (site : Site) : Prop :=
  site.channel ∈ site.inFlight ∨
    ∀ row ∈ site.store.database.rows, row.hasStatus .pending = true → row.taskType ∉ types

variable {site : Site}

lemma quiet_call (quiet : site.store.begin.Quiet) (call : Call) :
    (site.call call).store.begin.Quiet := call.quiet_next quiet

lemma quiet_calls (quiet : site.store.begin.Quiet) (calls : List Call) :
    (site.calls calls).store.begin.Quiet := by
  induction calls generalizing site with
  | nil => exact quiet
  | cons call rest ih => exact ih (quiet_call quiet call)

/-- A call that makes new work puts a notification on its way. -/
lemma told_call {types : List String} (quiet : site.store.begin.Quiet) (call : Call)
    (h : site.Told types) : (site.call call).Told types := by
  rcases h with hflight | hnone
  · exact .inl (List.mem_append_left _ hflight)
  · rcases call.noticed quiet with hpublished | hnew
    · exact .inl (List.mem_append_right _ hpublished)
    · right
      intro row hrow hp
      obtain ⟨old, hold, hpending, htype⟩ := hnew row hrow hp
      rw [← htype]
      exact hnone old hold hpending

lemma told_calls {types : List String} (quiet : site.store.begin.Quiet) (calls : List Call)
    (h : site.Told types) : (site.calls calls).Told types := by
  induction calls generalizing site with
  | nil => exact h
  | cons call rest ih => exact ih (quiet_call quiet call) (told_call quiet call h)

variable (first rest : List Call) (delay : Nat) (failure : Option TaskError)

/-- A claim among the calls of others is one more call. -/
lemma quiet_claim (quiet : site.store.begin.Quiet) (types : List String) (worker : WorkerId)
    (lease : Duration) :
    ((busySource first rest delay failure).claim site types worker
      lease).source.store.begin.Quiet := by
  have hfirst := quiet_calls quiet first
  cases failure with
  | some e => exact quiet_calls hfirst rest
  | none => exact quiet_calls (quiet_call hfirst (.claim types worker lease)) rest

/-- So is the end of a task that no handler can run. -/
lemma quiet_failUnhandled (quiet : site.store.begin.Quiet) (task : ClaimedTask)
    (message : String) :
    ((busySource first rest delay failure).failUnhandled site task message).store.begin.Quiet := by
  have hfirst := quiet_calls quiet first
  cases failure with
  | some e => exact quiet_calls hfirst rest
  | none =>
      exact quiet_calls (quiet_call hfirst (.finish task.id task.worker (.failed message))) rest

/-- Behind a claim that finds nothing there is nothing, or a notification is on its way: what
comes before the claim is seen by it, and what comes behind it publishes. -/
theorem told_of_empty (quiet : site.store.begin.Quiet) {types : List String} {worker : WorkerId}
    {lease : Duration}
    (h : ((busySource first rest delay failure).claim site types worker lease).answer =
      .ok .empty) :
    ((busySource first rest delay failure).claim site types worker lease).source.Told types := by
  cases failure with
  | some e =>
      have hanswer : Store.claimAnswer (.error e) = .ok .empty := h
      rw [Store.claimAnswer] at hanswer
      split at hanswer <;> cases hanswer
  | none =>
      have hfirst := quiet_calls quiet first
      have hempty : ((site.calls first).store.claim types worker lease).answer = .ok .empty := h
      have hnone := Store.not_pending_of_empty hfirst hempty
      refine told_calls (quiet_call hfirst (.claim types worker lease)) rest (.inr ?_)
      -- a claim that finds nothing changes no row
      rcases (site.calls first).store.claim_cases types worker lease with
        ⟨_, _, _, -, -, -, hreply⟩ | ⟨-, -, fault, -, hstore⟩
      · rw [hreply] at hempty
        cases hempty
      · have hrows : ((site.calls first).store.claim types worker lease).store.database.rows =
            (site.calls first).store.database.rows := by rw [hstore]
        exact fun row hrow => hnone row (hrows ▸ hrow)

end Site

/-! ### The invariant -/

namespace WakeChannel

lemma hasReceiver_notify (channel : WakeChannel) :
    channel.notify.2.hasReceiver = channel.hasReceiver := by
  rw [notify]
  split <;> rfl

lemma signals_notify (channel : WakeChannel) :
    channel.notify.2.signals = channel.signals := by
  rw [notify]
  split <;> rfl

end WakeChannel

namespace Scanner.World

variable {η : Type} {world next : World Site η}

/-- A wake-up is pending, or the last claim has seen all that nobody will be notified of. -/
def Heard (world : World Site η) : Prop :=
  world.wake.pending = true ∨
    ∃ claim, world.log.claims.getLast? = some claim ∧ world.source.Told claim.types

/-- The receiver of wake-ups is there, the store meets no failure, and a scanner that has found
nothing has heard of all there is. -/
structure Alert (world : World Site η) : Prop where
  receiver : world.wake.hasReceiver = true
  quiet : world.source.store.begin.Quiet
  heard : FoundNothing world.phase → world.Heard

/-- The scanner itself has not moved, and no wake-up is lost. -/
structure Beside (world next : World Site η) : Prop where
  source : next.source = world.source
  phase : next.phase = world.phase
  claims : next.log.claims = world.log.claims
  receiver : next.wake.hasReceiver = world.wake.hasReceiver
  pending : world.wake.pending = true → next.wake.pending = true

/-- The scanner is at something else than the wait, and has left the store alone. -/
structure Turned (world next : World Site η) : Prop where
  source : next.source = world.source
  receiver : next.wake.hasReceiver = world.wake.hasReceiver
  signals : next.wake.signals = world.wake.signals
  phase : ¬ FoundNothing next.phase

lemma turned_deliver {worker : WorkerId} {task : ClaimedTask}
    (h : world.deliver? worker task = some next) : world.Turned next := by
  rw [deliver?] at h
  split at h
  · cases h
    exact ⟨rfl, rfl, rfl, id⟩
  · split at h
    · cases h
      exact ⟨rfl, rfl, rfl, id⟩
    · cases h
      exact ⟨rfl, rfl, rfl, id⟩
    · split at h <;> cases h
      exact ⟨rfl, rfl, rfl, id⟩

lemma wake_react (source : ClaimSource Site) (world : World Site η) (worker : WorkerId)
    (answer : Except TaskError Claim) : (react source world worker answer).wake = world.wake := by
  rcases answer with e | task | _ | _
  · rfl
  · rw [react]
    split <;> rfl
  · rfl
  · rfl

/-- A move makes a claim, takes up the answer to one, or leaves the store alone. -/
theorem move?_cases {source : ClaimSource Site} {overlooks : Bool}
    (h : world.move? source overlooks = some next) :
    (∃ worker, world.phase = .scanning worker ∧ next = claim source world worker) ∨
      (∃ worker answer due, world.phase = .claiming worker answer due ∧
        next = react source world worker answer) ∨
      world.Turned next := by
  rw [move?] at h
  cases hphase : world.phase with
  | scanning worker =>
      simp only [hphase] at h
      cases h
      exact .inl ⟨worker, rfl, rfl⟩
  | claiming worker answer due =>
      simp only [hphase] at h
      split at h <;> cases h
      exact .inr (.inl ⟨worker, answer, due, rfl, rfl⟩)
  | waiting | backingOff | parked =>
      simp only [hphase] at h
      refine .inr (.inr ?_)
      rcases wait?_cases h with ⟨rfl, -, -⟩ | ⟨hresume, -⟩
      · exact ⟨rfl, rfl, rfl, id⟩
      · rcases resume?_cases hresume with ⟨_, _, -, -, rfl⟩ | ⟨_, wake, -, hwake, rfl⟩
        · exact ⟨rfl, rfl, rfl, id⟩
        · exact ⟨rfl, hwake.2, hwake.1, id⟩
  | delivering worker task =>
      simp only [hphase] at h
      exact .inr (.inr (turned_deliver h))
  | stopped =>
      simp only [hphase] at h
      cases h

/-- What happens around the scanner. -/
lemma beside_happen (world : World Site η) (event : Event η) :
    world.Beside (world.happen event) := by
  cases event with
  | offer | take | dropWake | close | shutdown => exact ⟨rfl, rfl, rfl, rfl, id⟩
  | wake =>
      rw [happen]
      split
      · exact ⟨rfl, rfl, rfl, rfl, id⟩
      · refine ⟨rfl, rfl, rfl, WakeChannel.hasReceiver_notify _, fun hp => ?_⟩
        simp [WakeChannel.notify, hp]
  | register taskType handler =>
      rw [happen]
      split <;> exact ⟨rfl, rfl, rfl, rfl, id⟩

namespace Alert

lemma fresh (clock : Micros) (channel : Channel) (registry : Registry η) (lease : Duration)
    (fallback : Option Duration) (backoff : Backoff Double) (capacity : Nat) :
    (World.fresh clock channel registry lease fallback backoff capacity).Alert where
  receiver := rfl
  quiet := Store.play_quiet clock channel []
  heard := False.elim

lemma beside (h : world.Alert) (b : world.Beside next) : next.Alert where
  receiver := b.receiver.trans h.receiver
  quiet := b.source ▸ h.quiet
  heard found := by
    rcases h.heard (b.phase ▸ found) with hpending | hclaim
    · exact .inl (b.pending hpending)
    · right
      rwa [b.claims, b.source]

/-- Somebody calls the store. -/
lemma call (h : world.Alert) (call : Call) :
    ({ world with source := world.source.call call } : World Site η).Alert where
  receiver := h.receiver
  quiet := call.quiet_next h.quiet
  heard found :=
    (h.heard found).imp_right fun ⟨claim, hclaim, told⟩ =>
      ⟨claim, hclaim, Site.told_call h.quiet call told⟩

/-- A notification arrives: the wake-up takes its place. -/
lemma deliver (h : world.Alert) {channel : Channel} {site : Site}
    (harrive : world.source.arrive? = some (channel, site)) (hs : world.wake.signals ≠ 0) :
    (if channel = site.channel then ({ world with source := site } : World Site η).happen .wake
      else { world with source := site }).Alert := by
  rw [Site.arrive?] at harrive
  split at harrive
  · cases harrive
  · rename_i head rest hflight
    cases harrive
    by_cases hc : channel = world.source.channel
    · rw [if_pos hc, happen, if_neg hs]
      exact ⟨(WakeChannel.hasReceiver_notify _).trans h.receiver, h.quiet,
        fun _ => .inl (WakeChannel.pending_notify h.receiver)⟩
    · rw [if_neg hc]
      refine ⟨h.receiver, h.quiet, fun found => ?_⟩
      refine (h.heard found).imp_right fun ⟨claim, hclaim, told⟩ => ⟨claim, hclaim, ?_⟩
      refine told.imp_left fun hmem => ?_
      rw [hflight] at hmem
      exact (List.mem_cons.mp hmem).resolve_left (Ne.symm hc)

variable {first rest : List Call} {delay : Nat} {failure : Option TaskError}

/-- A scanner that is not about to wait has nothing to hear. -/
lemma turned (h : world.Alert) (t : world.Turned next) : next.Alert :=
  ⟨t.receiver.trans h.receiver, t.source ▸ h.quiet, fun found => absurd found t.phase⟩

/-- The scanner makes a claim. -/
lemma claim (h : world.Alert) (worker : WorkerId) :
    (claim (Site.busySource first rest delay failure) world worker).Alert where
  receiver := h.receiver
  quiet := Site.quiet_claim first rest delay failure h.quiet _ worker _
  heard found := by
    right
    refine ⟨_, List.getLast?_concat, ?_⟩
    exact Site.told_of_empty first rest delay failure h.quiet (foundNothing_claiming.mp found)

/-- The scanner takes up the answer to a claim. -/
lemma react (h : world.Alert) {worker : WorkerId} {answer : Except TaskError Claim} {due : Nat}
    (hphase : world.phase = .claiming worker answer due) :
    (react (Site.busySource first rest delay failure) world worker answer).Alert := by
  cases answer with
  | error e => exact h.turned ⟨rfl, rfl, rfl, id⟩
  | ok answer =>
      cases answer with
      | contended => exact h.turned ⟨rfl, rfl, rfl, id⟩
      | empty => exact ⟨h.receiver, h.quiet, fun _ => h.heard (hphase ▸ trivial)⟩
      | claimed task =>
          rw [World.react]
          split
          · exact h.turned ⟨rfl, rfl, rfl, id⟩
          · exact ⟨h.receiver, Site.quiet_failUnhandled first rest delay failure h.quiet task _,
              False.elim⟩

/-- The scanner moves. -/
lemma move (h : world.Alert)
    (hmove : world.move? (Site.busySource first rest delay failure) = some next) : next.Alert := by
  rcases move?_cases hmove with
    ⟨worker, -, rfl⟩ | ⟨worker, answer, due, hphase, rfl⟩ | hturned
  · exact h.claim worker
  · exact h.react hphase
  · exact h.turned hturned

/-- Every step keeps the scanner alert. -/
theorem step (h : world.Alert) (hstep : world.Step next) : next.Alert := by
  cases hstep with
  | call call => exact h.call call
  | deliver harrive hs => exact h.deliver harrive hs
  | event event => exact h.beside (beside_happen world event)
  | pass now => exact h.beside ⟨rfl, rfl, rfl, rfl, id⟩
  | move first rest delay failure hmove => exact h.move hmove

/-- So a scanner is alert all the time. -/
theorem steps (h : world.Alert) (hsteps : Relation.ReflTransGen Step world next) : next.Alert := by
  induction hsteps with
  | refl => exact h
  | tail _ hstep ih => exact ih.step hstep

end Alert

/-- A scanner that waits while no wake-up is pending and no notification is on its way has seen
all the work there is: no pending task has a type that was registered when it made its last
claim. -/
theorem parked_seen {clock : Micros} {channel : Channel} {registry : Registry η}
    {lease : Duration} {fallback : Option Duration} {backoff : Backoff Double} {capacity : Nat}
    {worker : WorkerId} {due : Option Nat}
    (steps : Relation.ReflTransGen Step
      (World.fresh clock channel registry lease fallback backoff capacity) world)
    (parked : world.phase = .parked worker due) (pending : world.wake.pending = false)
    (inFlight : world.source.inFlight = []) :
    ∃ claim, world.log.claims.getLast? = some claim ∧
      ∀ row ∈ world.source.store.database.rows, row.hasStatus .pending = true →
        row.taskType ∉ claim.types := by
  have alert : world.Alert :=
    (Alert.fresh clock channel registry lease fallback backoff capacity).steps steps
  have heard : world.Heard := alert.heard (parked ▸ trivial)
  rcases heard with hpending | ⟨claim, hclaim, hflight | hnone⟩
  · rw [pending] at hpending
    cases hpending
  · rw [inFlight] at hflight
    cases hflight
  · exact ⟨claim, hclaim, hnone⟩

/-- A scanner for letters over the empty store. -/
def letters : World Site Unit :=
  fresh 0 .standard ⟨[("letter", ())]⟩ (.ofSeconds 60) none (.ofPolicy .standard) 1

/-- A parcel is created. -/
def parcelCreated : World Site Unit :=
  { letters with source := letters.source.call (.perform (.create "parcel" none)) }

/-- The notification of the parcel arrives. -/
def parcelHeard : World Site Unit :=
  ({ parcelCreated with
    source := { parcelCreated.source with inFlight := [], delivered := [.standard] } } :
      World Site Unit).happen .wake

/-- A worker is idle, and the scanner takes it. -/
def workerTaken : World Site Unit :=
  { parcelHeard.happen (.offer "worker" .held) with offers := [], phase := .scanning "worker" }

/-- It claims a letter for the worker. -/
def lettersSought : World Site Unit :=
  World.claim (Site.busySource [] [] 0 none) workerTaken "worker"

/-- There is none, and it waits. -/
def lettersAwaited : World Site Unit :=
  World.react (Site.busySource [] [] 0 none) lettersSought "worker" (.ok .empty)

/-- Then the parcel, which is no letter, is still pending. -/
theorem letters_seen :
    lettersAwaited.source.store.database.rows.map Row.status = [.known .pending] ∧
      ∃ claim, lettersAwaited.log.claims.getLast? = some claim ∧
        ∀ row ∈ lettersAwaited.source.store.database.rows, row.hasStatus .pending = true →
          row.taskType ∉ claim.types := by
  have created : Step letters parcelCreated := .call _ _
  have heard : Step parcelCreated parcelHeard := .deliver parcelCreated rfl (by decide)
  have offered : Step parcelHeard (parcelHeard.happen (.offer "worker" .held)) := .event _ _
  have taken : Step (parcelHeard.happen (.offer "worker" .held)) workerTaken :=
    .move [] [] 0 none rfl
  have sought : Step workerTaken lettersSought := .move [] [] 0 none rfl
  have awaited : Step lettersSought lettersAwaited := .move [] [] 0 none rfl
  have steps : Relation.ReflTransGen Step letters lettersAwaited :=
    .tail (.tail (.tail (.tail (.tail (.single created) heard) offered) taken) sought) awaited
  exact ⟨rfl, parked_seen steps rfl rfl rfl⟩

end Scanner.World

/-! ### A scheduler at work -/

namespace Live

open Relation

/-- A scheduler goes on by such steps, and its listener stays. -/
structure GoesTo (live next : Live) : Prop where
  steps : ReflTransGen Scanner.World.Step live.world next.world
  signals : next.world.wake.signals = live.world.wake.signals

namespace GoesTo

variable {a b c : Live}

lemma same (h : b.world = a.world) : a.GoesTo b := ⟨h ▸ .refl, by rw [h]⟩

lemma trans (h : a.GoesTo b) (h' : b.GoesTo c) : a.GoesTo c :=
  ⟨h.steps.trans h'.steps, h'.signals.trans h.signals⟩

end GoesTo

variable {live next : Live}

lemma goesTo_listen (hs : live.world.wake.signals ≠ 0) (h : live.listen? = some next) :
    live.GoesTo next := by
  rw [listen?, Option.map_eq_some_iff] at h
  obtain ⟨⟨channel, site⟩, harrive, hnext⟩ := h
  have step := Scanner.World.Step.deliver live.world harrive hs
  dsimp only at hnext
  split at hnext <;> rename_i hc <;> subst hnext
  · rw [if_pos hc] at step
    refine ⟨.single step, ?_⟩
    rw [happen, Scanner.World.happen]
    split
    · rfl
    · exact WakeChannel.signals_notify _
  · rw [if_neg hc] at step
    exact ⟨.single step, rfl⟩

lemma goesTo_move {world : Scanner.World Site Handler}
    (h : live.world.move? Site.source = some world) : live.GoesTo { live with world } := by
  rw [← Site.busySource_still] at h
  refine ⟨.single (.move [] [] 0 none h), ?_⟩
  rcases Scanner.World.move?_cases h with
    ⟨worker, -, rfl⟩ | ⟨worker, answer, due, -, rfl⟩ | hturned
  · rfl
  · exact congrArg WakeChannel.signals (Scanner.World.wake_react _ live.world worker answer)
  · exact hturned.signals

/-- The run of a handler is a call beside the scanner. -/
lemma goesTo_execute (live : Live) (handler : Handler) (task : ClaimedTask) :
    live.GoesTo (live.execute handler task) := by
  have hcall := Scanner.World.Step.call live.world (.run handler task (live.runsOf task.taskType)
    fun millis => if millis < live.lease.heartbeat.timerMillis then [] else
      [.renew live.lease.duration])
  rw [execute, renewing_eq_beating, recordRun]
  split
  · exact ⟨.tail (.single hcall) (.event _ .shutdown), rfl⟩
  · exact ⟨.single hcall, rfl⟩

lemma goesTo_work {worker : PoolWorker} (h : live.work? worker = some next) :
    live.GoesTo next := by
  rw [work?] at h
  split at h
  · cases h
  · split at h <;> cases h
    · exact .same rfl
    · exact ⟨.single (.event _ (.offer worker.id .held)), rfl⟩
  · split at h
    · cases h
      exact .same rfl
    · rw [Option.map_eq_some_iff] at h
      obtain ⟨task, -, rfl⟩ := h
      have htake : live.GoesTo ((live.happen (.take worker.id)).setPhase worker.id .offering) :=
        ⟨.single (.event _ (.take worker.id)), rfl⟩
      rw [takeTask]
      split
      · exact htake.trans (goesTo_execute _ _ task)
      · exact htake

/-- Whatever part of a scheduler goes on. -/
lemma goesTo_step (hs : live.world.wake.signals ≠ 0) (h : live.step? = some next) :
    live.GoesTo next := by
  simp only [step?, Option.orElse_eq_some, Option.map_eq_some_iff, jump?] at h
  rcases h with hlisten | ⟨-, ⟨world, hmove, rfl⟩ | ⟨-, hwork | ⟨-, time, -, rfl⟩⟩⟩
  · exact goesTo_listen hs hlisten
  · exact goesTo_move hmove
  · obtain ⟨worker, -, hworker⟩ := List.exists_of_findSome?_eq_some hwork
    exact goesTo_work hworker
  · exact ⟨.single (.pass _ time), rfl⟩

/-- A scheduler at work goes on by steps of its scanner and of those around it. -/
theorem goesTo_rest (hs : live.world.wake.signals ≠ 0) (n : Nat) : live.GoesTo (live.rest n) := by
  induction n generalizing live with
  | zero => exact .same rfl
  | succ n ih =>
      rw [rest]
      split
      · rename_i next hnext
        have hgo := goesTo_step hs hnext
        exact hgo.trans (ih (hgo.signals ▸ hs))
      · exact .same rfl

end Live

end LeaseQueue
