/-
A heartbeat keeps the lease of its task, however long the task runs.

* `HeartbeatScript.log_paced`: from the start of a heartbeat to its end, no renewal begins later
  than an interval behind the one before it;
* `Store.Sustained`: calls of a store beside a heartbeat, whose renewals take effect soon;
* `Store.Lasting`: a task runs under a worker with a lease until some time; what others do and
  what a renewal does to it;
* `Store.Sustained.keeps`: the lease lasts over every call, renewal by renewal;
* `Store.heartbeat_keeps`: hence the task is kept until the heartbeat has stopped;
* `Store.long_run_kept`, `Store.rounded_lease_lost`: a task that is kept, and one that is lost.
-/
import LeaseQueue.Proofs.Number.Exact
import LeaseQueue.Proofs.Store.Exclusion
import LeaseQueue.Scheduler.Heartbeat

namespace LeaseQueue

/-! ### The pace of a heartbeat -/

namespace HeartbeatLog

/-- The times of a heartbeat: those of its renewals, and that of its end. -/
def times (log : HeartbeatLog) : List Nat := log.renewals ++ [log.stoppedAt]

@[simp] lemma times_renewal (time : Nat) (log : HeartbeatLog) :
    (HeartbeatScript.renewal time log).times = time :: log.times := rfl

end HeartbeatLog

namespace HeartbeatScript

/-- The keeper answers every renewal with success, each time within some milliseconds. -/
def Prompt (within : Nat) (keeper : List KeeperAnswer) : Prop :=
  ∀ answer ∈ keeper, ∃ after, answer = .renewed true after ∧ after ≤ within

lemma Prompt.tail {within : Nat} {keeper : List KeeperAnswer} (h : Prompt within keeper) :
    Prompt within keeper.tail :=
  fun answer hanswer => h answer (List.mem_of_mem_tail hanswer)

/-- So is the answer that comes next, also behind the end of the answers. -/
lemma Prompt.next {within : Nat} {keeper : List KeeperAnswer} (h : Prompt within keeper) :
    ∃ after, keeper.headD (.renewed true 0) = .renewed true after ∧ after ≤ within := by
  cases keeper with
  | nil => exact ⟨0, rfl, Nat.zero_le _⟩
  | cons answer rest => exact h answer List.mem_cons_self

variable {millis : Nat}

section

variable {interval : Duration} {h : 0 < interval.nanos} {stopAt due free : Nat}
  {keeper : List KeeperAnswer}

lemma loop_stop (hs : stopAt ≤ tick due free) :
    loop interval h stopAt keeper due free = ⟨[], max stopAt free⟩ := by
  rw [loop, dif_pos hs]

lemma loop_renewed (hs : ¬ stopAt ≤ tick due free) {held : Bool} {after : Nat}
    (hanswer : keeper.headD (.renewed true 0) = .renewed held after) :
    loop interval h stopAt keeper due free =
      renewal (tick due free) (loop interval h stopAt keeper.tail
        (nextDue interval due (tick due free)) (tick due free + after)) := by
  rw [loop, dif_neg hs, hanswer]

end

/-- A renewal begins at most an interval behind one at a time `last`. -/
lemma tick_le {due free last : Nat} (hdue : due ≤ (last + millis) * Duration.nanosPerMilli)
    (hfree : free ≤ last + millis) : tick due free ≤ last + millis := by
  simp only [tick, Duration.timerMillis, Duration.nanosPerMilli] at hdue ⊢
  omega

/-- The next renewal is due at most an interval behind the one before it. -/
lemma nextDue_le {due time : Nat} (hdue : due ≤ time * Duration.nanosPerMilli) :
    nextDue (.ofMillis millis) due time ≤ (time + millis) * Duration.nanosPerMilli := by
  simp only [nextDue, Duration.ofMillis, Nat.add_mul]
  split <;> omega

/-- Every time of a heartbeat is at most an interval behind the one before it, as long as the
keeper answers within the interval: a renewal that comes late moves the schedule, and a stop
waits for no more than one renewal. -/
lemma loop_paced (h : 0 < (Duration.ofMillis millis).nanos) (stopAt : Nat)
    {keeper : List KeeperAnswer} (prompt : Prompt millis keeper) {due free last : Nat}
    (hdue : due ≤ (last + millis) * Duration.nanosPerMilli) (hfree : free ≤ last + millis) :
    (last :: (loop (.ofMillis millis) h stopAt keeper due free).times).IsChain
      fun time next => next ≤ time + millis := by
  induction keeper, due, free using loop.induct (.ofMillis millis) h stopAt generalizing last with
  | case1 keeper due free time hs =>
      have htick : time ≤ last + millis := tick_le hdue hfree
      have hstop : max stopAt free ≤ last + millis := max_le (hs.trans htick) hfree
      rw [loop_stop hs]
      exact .cons_cons hstop (.singleton _)
  | case2 keeper due free time hs _ hpanic =>
      obtain ⟨after, hanswer, -⟩ := prompt.next
      cases hanswer.symm.trans hpanic
  | case3 keeper due free time hs _ hfailed ih =>
      obtain ⟨after, hanswer, -⟩ := prompt.next
      cases hanswer.symm.trans hfailed
  | case4 keeper due free time hs held after hanswer ih =>
      have htick : time ≤ last + millis := tick_le hdue hfree
      obtain ⟨_, hsame, hafter⟩ := prompt.next
      cases hsame.symm.trans hanswer
      rw [loop_renewed hs hanswer, HeartbeatLog.times_renewal]
      exact .cons_cons htick
        (ih prompt.tail (nextDue_le (due_le_tick due free)) (Nat.add_le_add_left hafter time))

/-- The times of a whole heartbeat, from its start on. -/
theorem log_paced {script : HeartbeatScript} (hinterval : script.interval = .ofMillis millis)
    (hpos : 0 < millis) (prompt : Prompt millis script.keeper) :
    (0 :: script.log.times).IsChain fun time next => next ≤ time + millis := by
  have h : 0 < (Duration.ofMillis millis).nanos := Nat.mul_pos hpos (by decide)
  have hdue : (Duration.ofMillis millis).nanos ≤ (0 + millis) * Duration.nanosPerMilli := by
    rw [Nat.zero_add]
    rfl
  simp only [log, hinterval, dif_pos h]
  exact loop_paced h script.stopAt prompt hdue (Nat.zero_le _)

end HeartbeatScript

/-! ### A lease that is kept -/

/-- Events that do not claim a task give it to nobody. -/
lemma lastHolder?_unclaimed {events : List LeaseEvent} {task : TaskId}
    (unclaimed : ∀ worker deadline, .claimed task worker deadline ∉ events) :
    lastHolder? events task = none := by
  have h : events.filterMap (LeaseEvent.holder? task) = [] := by
    refine List.filterMap_eq_nil_iff.mpr fun event hevent => ?_
    cases event with
    | claimed other worker deadline =>
        rw [LeaseEvent.holder?, if_neg]
        rintro rfl
        exact unclaimed worker deadline hevent
    | renewed | ended => rfl
  rw [lastHolder?, h, List.getLast?_nil]

namespace Store

/-- A task runs under a worker, whose lease has not run out. -/
def KeepsLease (store : Store) (task : TaskId) (worker : WorkerId) : Prop :=
  ∃ row ∈ store.database.rows, row.id = task ∧ row.isHeldBy worker = true ∧
    ∃ deadline, row.leaseExpires = some deadline ∧ store.clock ≤ deadline

/-- A run of calls beside a heartbeat, whose renewals start at some times. Each of them takes
effect within a delay of its start and succeeds. In between come the calls of others, which
neither renew the lease of the task nor end its run. -/
inductive Sustained (channel : Channel) (task : TaskId) (worker : WorkerId) (lease : Duration)
    (delay : Nat) : Store → List Micros → List Call → Prop where
  | done (store : Store) : Sustained channel task worker lease delay store [] []
  | other {store : Store} {starts : List Micros} {call : Call} {rest : List Call}
      (renews : ∀ deadline, .renewed task deadline ∉ call.events channel store)
      (runs : 0 < (call.next channel store).database.running task)
      (h : Sustained channel task worker lease delay (call.next channel store) starts rest) :
      Sustained channel task worker lease delay store starts (call :: rest)
  | renewal {store : Store} {start : Micros} {starts : List Micros} {rest : List Call}
      (started : start ≤ store.clock) (within : store.clock ≤ start + delay)
      (succeeds : (store.renew task worker lease).answer = .ok true)
      (h : Sustained channel task worker lease delay (store.renew task worker lease).store
        starts rest) :
      Sustained channel task worker lease delay store (start :: starts)
        (.renew task worker lease :: rest)

/-- The time by which the next renewal takes effect, or else the heartbeat ends. -/
def horizon (delay : Nat) (stop : Micros) : List Micros → Micros
  | [] => stop
  | start :: _ => start + delay

/-- That is at most an interval and the delay behind the renewal before. -/
lemma horizon_le {delay interval : Nat} {start stop : Micros} {starts : List Micros}
    (paced : (start :: starts ++ [stop]).IsChain
      fun time next => next ≤ time + (interval : Micros)) :
    horizon delay stop starts ≤ start + interval + delay := by
  cases starts with
  | nil =>
      have hgap : stop ≤ start + interval := by simpa using paced
      exact hgap.trans (le_add_of_nonneg_right (Int.natCast_nonneg delay))
  | cons next starts =>
      simp only [List.cons_append, List.isChain_cons_cons] at paced
      exact add_le_add_left paced.1 _

/-- A task runs under a worker, and its lease lasts until a time. -/
structure Lasting (task : TaskId) (worker : WorkerId) (time : Micros) (history : List LeaseEvent)
    (store : Store) : Prop where
  calm : store.fault = none
  told : store.database.Told history
  runs : 0 < store.database.running task
  holder : lastHolder? history task = some worker
  lasts : ∃ deadline, lastDeadline? history task = some deadline ∧ time ≤ deadline

namespace Lasting

variable {channel : Channel} {task : TaskId} {worker : WorkerId} {time : Micros}
  {history : List LeaseEvent} {store : Store}

/-- What the row of the task says, the history tells. -/
lemma of_row (calm : store.fault = none) (told : store.database.Told history)
    (held : ∃ row ∈ store.database.rows, row.id = task ∧ row.isHeldBy worker = true ∧
      ∃ deadline, row.leaseExpires = some deadline ∧ time ≤ deadline) :
    Lasting task worker time history store := by
  obtain ⟨row, hrow, rfl, hheld, deadline, hd, hle⟩ := held
  obtain ⟨hworker, hrunning⟩ := Row.isHeldBy_iff.mp hheld
  have hrun : row.hasStatus .running = true := Row.hasStatus_iff.mpr hrunning
  obtain ⟨hholder, hdeadline⟩ := told.lease row hrow hrun
  exact ⟨calm, told, List.countP_pos_iff.mpr ⟨row, hrow, Table.only_eq_true.mpr ⟨rfl, hrun⟩⟩,
    hholder.symm.trans hworker, deadline, hdeadline.symm.trans hd, hle⟩

/-- And what the history tells, the row says. -/
lemma row (h : Lasting task worker time history store) :
    ∃ row ∈ store.database.rows, row.id = task ∧ row.isHeldBy worker = true ∧
      ∃ deadline, row.leaseExpires = some deadline ∧ time ≤ deadline := by
  obtain ⟨row, hrow, hpick⟩ := List.countP_pos_iff.mp h.runs
  obtain ⟨rfl, hrun⟩ := Table.only_eq_true.mp hpick
  obtain ⟨deadline, hd, hle⟩ := h.lasts
  obtain ⟨hworker, hlease⟩ := h.told.lease row hrow hrun
  exact ⟨row, hrow, rfl,
    Row.isHeldBy_iff.mpr ⟨hworker.trans h.holder, Row.hasStatus_iff.mp hrun⟩,
    deadline, hlease.trans hd, hle⟩

/-- Nobody can claim the task before the lease ends. -/
lemma excluded (h : Lasting task worker time history store) (hc : store.clock ≤ time)
    {types : List String} {other : WorkerId} {lease : Duration} {claimed : ClaimedTask}
    (hclaim : (store.claim types other lease).answer = .ok (.claimed claimed)) :
    claimed.id ≠ task := by
  obtain ⟨deadline, hd, hle⟩ := h.lasts
  exact claim_excluded h.told h.runs hd (hc.trans hle) hclaim

/-- A call that neither renews the lease nor ends the run of the task leaves it as it is. -/
lemma other (h : Lasting task worker time history store) (hc : store.clock ≤ time) {call : Call}
    (renews : ∀ deadline, .renewed task deadline ∉ call.events channel store)
    (runs : 0 < (call.next channel store).database.running task) :
    Lasting task worker time (history ++ call.events channel store) (call.next channel store) := by
  have unclaimed : ∀ other deadline, .claimed task other deadline ∉ call.events channel store := by
    intro other deadline hmem
    obtain ⟨types, lease, claimed, hanswer, hid⟩ := Call.answer_of_claimed_mem hmem
    exact h.excluded hc hanswer hid
  have steps := call.leaseSteps channel h.calm h.told.sound
  obtain ⟨deadline, hd, hle⟩ := h.lasts
  obtain ⟨last, hlast, hlater⟩ := lastDeadline?_le hd unclaimed
    fun next hnext => absurd hnext (renews next)
  refine ⟨PlannedFault.left_none (call.precedes_next channel store).fault h.calm,
    steps.told h.told, runs, ?_, last, hlast, hle.trans hlater⟩
  rw [lastHolder?_append, lastHolder?_unclaimed unclaimed]
  exact h.holder

/-- A renewal that succeeds lets the lease last until its deadline. -/
lemma renewal (h : Lasting task worker time history store) (channel : Channel) {lease : Duration}
    (succeeds : (store.renew task worker lease).answer = .ok true) :
    Lasting task worker (store.clock + Database.leaseMicros lease)
      (history ++ Call.events channel store (.renew task worker lease))
      (store.renew task worker lease).store := by
  have steps := Call.leaseSteps (.renew task worker lease) channel h.calm h.told.sound
  have told := steps.told h.told
  simp only [Call.next, Call.events] at told ⊢
  rcases store.renew_cases task worker lease with ⟨deadline, -, hd, hreply⟩ | ⟨hanswer, -⟩
  · have hrenewal : store.renewal? task worker lease = some ⟨store.clock, deadline⟩ := by
      simp only [renewal?, hreply, hd, Option.map_some]
    rw [hrenewal] at told ⊢
    refine ⟨?_, told, ?_, ?_, ?_⟩
    · rw [hreply]
      exact h.calm
    · rw [hreply, renewed, Database.running_renewed]
      exact h.runs
    · rw [lastHolder?_append]
      exact h.holder
    · rw [lastDeadline?_append]
      obtain ⟨-, hdeadline, -⟩ := Database.leaseDeadline?_eq_some_iff.mp hd
      exact ⟨deadline, by simp, hdeadline.ge⟩
  · exact absurd succeeds hanswer

/-- A lease that lasts longer lasts as well. -/
lemma mono {earlier : Micros} (h : Lasting task worker time history store) (hle : earlier ≤ time) :
    Lasting task worker earlier history store := by
  obtain ⟨deadline, hd, hlasts⟩ := h.lasts
  exact { h with lasts := ⟨deadline, hd, hle.trans hlasts⟩ }

end Lasting

/-- A renewal takes no time. -/
lemma clock_renew (store : Store) (task : TaskId) (worker : WorkerId) (lease : Duration) :
    (store.renew task worker lease).store.clock = store.clock := by
  rcases store.renew_cases task worker lease with
    ⟨deadline, -, -, hreply⟩ | ⟨-, -, fault, -, hstore⟩
  · rw [hreply]
    rfl
  · rw [hstore]

namespace Sustained

variable {channel : Channel} {task : TaskId} {worker : WorkerId} {lease : Duration}
  {delay : Nat} {stop : Micros} {store : Store} {starts : List Micros} {calls : List Call}

/-- Time does not pass the next renewal. -/
lemma clock_le (h : Sustained channel task worker lease delay store starts calls)
    (hstop : (store.play channel calls).clock ≤ stop) :
    store.clock ≤ horizon delay stop starts := by
  induction h with
  | done store => exact hstop
  | @other store _ call _ _ _ _ ih =>
      exact (call.precedes_next channel store).clock.trans (ih hstop)
  | renewal _ within _ _ _ => exact within

/-- A lease that lasts until the first renewal takes effect lasts all the time, if every renewal
starts soon enough behind the one before it, and so does the end of the heartbeat: at every point
of the run it lasts over the next call, and at the last one until the heartbeat ends. -/
theorem keeps {history : List LeaseEvent} {interval : Nat}
    (h : Sustained channel task worker lease delay store starts calls)
    (paced : (starts ++ [stop]).IsChain fun time next => next ≤ time + (interval : Micros))
    (hlong : interval + delay ≤ Database.leaseMicros lease)
    (hstop : (store.play channel calls).clock ≤ stop)
    (lasting : Lasting task worker (horizon delay stop starts) history store) :
    ∀ n ≤ calls.length, ∃ time history,
      (store.play channel (calls.take (n + 1))).clock ≤ time ∧ (n = calls.length → stop ≤ time) ∧
        Lasting task worker time history (store.play channel (calls.take n)) := by
  induction h generalizing history with
  | done store =>
      intro n hn
      rw [Nat.le_zero.mp hn]
      exact ⟨stop, history, hstop, fun _ => le_rfl, lasting⟩
  | @other store starts call rest renews runs h ih =>
      intro n hn
      cases n with
      | zero => exact ⟨_, history, h.clock_le hstop, (absurd · (Nat.succ_ne_zero _).symm), lasting⟩
      | succ n =>
          have hclock := clock_le (.other renews runs h) hstop
          obtain ⟨time, history, hnext, hend, hlasts⟩ :=
            ih paced hstop (lasting.other hclock renews runs) n (Nat.le_of_succ_le_succ hn)
          exact ⟨time, history, hnext, fun hn => hend (Nat.succ.inj hn), hlasts⟩
  | @renewal store start starts rest started within succeeds h ih =>
      intro n hn
      cases n with
      | zero =>
          have hclock : (store.renew task worker lease).store.clock ≤ start + delay :=
            (clock_renew ..).trans_le within
          exact ⟨_, history, hclock, (absurd · (Nat.succ_ne_zero _).symm), lasting⟩
      | succ n =>
          have hlong : (interval : Int) + delay ≤ Database.leaseMicros lease := by
            exact_mod_cast hlong
          have hnext : horizon delay stop starts ≤ store.clock + Database.leaseMicros lease :=
            calc horizon delay stop starts
                ≤ start + interval + delay := horizon_le paced
              _ ≤ store.clock + Database.leaseMicros lease := by linarith
          obtain ⟨time, history, hnext, hend, hlasts⟩ :=
            ih paced.tail hstop ((lasting.renewal channel succeeds).mono hnext) n
              (Nat.le_of_succ_le_succ hn)
          exact ⟨time, history, hnext, fun hn => hend (Nat.succ.inj hn), hlasts⟩

end Sustained

/-- The times of a heartbeat, as times of the store. -/
lemma paced_times {log : HeartbeatLog} {interval : Nat} {time : Nat → Micros} {clock : Micros}
    (htime : ∀ millis, time millis = clock + 1000 * (millis : Int))
    (paced : (0 :: log.times).IsChain fun time next => next ≤ time + interval) :
    (clock :: log.renewals.map time ++ [time log.stoppedAt]).IsChain
      fun time next => next ≤ time + ((1000 * interval : Nat) : Micros) := by
  have hmap : clock :: log.renewals.map time ++ [time log.stoppedAt] =
      (0 :: log.times).map time := by
    simp [HeartbeatLog.times, htime 0]
  rw [hmap]
  refine List.isChain_map_of_isChain time (fun a b hab => ?_) paced
  have hab : (b : Int) ≤ a + interval := by exact_mod_cast hab
  rw [htime, htime]
  push_cast
  linarith

/-- A heartbeat keeps the lease of its task. A worker holds a task, and its lease lasts for the
interval of the heartbeat and the delay of a renewal from the start of the heartbeat on. Every
renewal takes effect and succeeds within the delay, which is not above the interval; a lease as it
is written is at least as long as both together. Others neither renew the lease nor end the run of
the task. Then until the heartbeat has stopped, whenever that is, the task runs under the worker
with a lease that has not run out, and nobody can claim it. A lease of less than 285 years is
written as it is. -/
theorem heartbeat_keeps (clock : Micros) (channel : Channel) (before later : List Call)
    (task : TaskId) (worker : WorkerId) (script : HeartbeatScript) {interval length delay : Nat} :
    let store := (initial clock).play channel before
    let log := script.log
    let time (millis : Nat) : Micros := store.clock + 1000 * (millis : Int)
    (1000 * length < 2 ^ 53 → Database.leaseMicros (.ofMillis length) = 1000 * length) ∧
      (script.interval = .ofMillis interval → 0 < interval →
      delay ≤ 1000 * interval → 1000 * interval + delay ≤ Database.leaseMicros (.ofMillis length) →
      (∀ answer ∈ script.keeper, ∃ after, answer = .renewed true after ∧ 1000 * after ≤ delay) →
      (∃ row ∈ store.database.rows, row.id = task ∧ row.isHeldBy worker = true ∧
        ∃ deadline, row.leaseExpires = some deadline ∧ time interval + delay ≤ deadline) →
      Sustained channel task worker (.ofMillis length) delay store (log.renewals.map time) later →
      (store.play channel later).clock ≤ time log.stoppedAt →
      ∀ n ≤ later.length, ∀ now,
        (now ≤ (store.play channel (later.take (n + 1))).clock ∨
          n = later.length ∧ now ≤ time log.stoppedAt) →
        let seen : Store := { store.play channel (later.take n) with clock := now }
        seen.KeepsLease task worker ∧
          ∀ types other lease claimed,
            (seen.claim types other lease).answer = .ok (.claimed claimed) →
              claimed.id ≠ task) := by
  intro store log time
  refine ⟨Database.leaseMicros_ofMillis, ?_⟩
  intro hinterval hpos hshort hlong prompt held sustained hstop n hn now hnow seen
  have told : store.database.Told ((initial clock).history channel before) :=
    play_told clock channel before
  have paced : (store.clock :: log.renewals.map time ++ [time log.stoppedAt]).IsChain
      fun time next => next ≤ time + ((1000 * interval : Nat) : Micros) := by
    refine paced_times (fun _ => rfl) (HeartbeatScript.log_paced hinterval hpos fun answer h => ?_)
    obtain ⟨after, rfl, hafter⟩ := prompt answer h
    exact ⟨after, rfl, by omega⟩
  have hfirst :
      horizon delay (time log.stoppedAt) (log.renewals.map time) ≤ time interval + delay :=
    calc horizon delay (time log.stoppedAt) (log.renewals.map time)
        ≤ store.clock + ((1000 * interval : Nat) : Micros) + delay := horizon_le paced
      _ = time interval + delay := by push_cast; rfl
  have lasting := (Lasting.of_row (play_calm clock channel before) told held).mono hfirst
  obtain ⟨last, history, hnext, hend, hlasts⟩ :=
    sustained.keeps paced.tail hlong hstop lasting n hn
  have hnow : now ≤ last := by
    rcases hnow with hnow | ⟨hlast, hnow⟩
    · exact hnow.trans hnext
    · exact hnow.trans (hend hlast)
  have hseen : Lasting task worker last history seen := { hlasts with }
  refine ⟨?_, fun types other lease claimed hclaim => hseen.excluded hnow hclaim⟩
  obtain ⟨row, hrow, hid, hheld, deadline, hd, hle⟩ := hseen.row
  exact ⟨row, hrow, hid, hheld, deadline, hd, hnow.trans hle⟩

/-- A run of two seconds and a half under leases of little more than one second. -/
theorem long_run_kept :
    let store := (initial 0).play .standard
      [.perform (.create "job" none), .claim ["job"] "first" (.ofMillis 1200)]
    let later : List Call :=
      [.pass 500000, .claim ["job"] "second" (.ofSeconds 1), .pass 600000,
        .renew 1 "first" (.ofMillis 1200), .pass 1050000, .claim ["job"] "second" (.ofSeconds 1),
        .renew 1 "first" (.ofMillis 1200), .pass 350000]
    let script : HeartbeatScript :=
      ⟨.ofMillis 1000, [.renewed true 100, .renewed true 200], 2500⟩
    script.log = ⟨[1000, 2000], 2500⟩ ∧
      Sustained .standard 1 "first" (.ofMillis 1200) 200000 store [1000000, 2000000] later ∧
      (store.play .standard later).KeepsLease 1 "first" ∧
      ∀ types other lease claimed,
        ((store.play .standard later).claim types other lease).answer = .ok (.claimed claimed) →
          claimed.id ≠ 1 := by
  intro store later script
  have hlog : script.log = ⟨[1000, 2000], 2500⟩ := by
    have hpos : 0 < (Duration.ofMillis 1000).nanos := by decide
    rw [HeartbeatScript.log, dif_pos hpos, HeartbeatScript.loop_renewed (by decide) rfl,
      HeartbeatScript.loop_renewed (by decide) rfl, HeartbeatScript.loop_stop (by decide)]
    decide +kernel
  have sustained :
      Sustained .standard 1 "first" (.ofMillis 1200) 200000 store [1000000, 2000000] later := by
    have silent : ∀ {store : Store} {call : Call}, call.events .standard store = [] →
        ∀ deadline, .renewed 1 deadline ∉ call.events .standard store := by
      intro store call h deadline
      simp [h]
    exact .other (silent rfl) (by decide +kernel) <| .other (silent rfl) (by decide +kernel) <|
      .other (silent rfl) (by decide +kernel) <|
      .renewal (by decide +kernel) (by decide +kernel) rfl <|
      .other (silent rfl) (by decide +kernel) <| .other (silent rfl) (by decide +kernel) <|
      .renewal (by decide +kernel) (by decide +kernel) rfl <|
      .other (silent rfl) (by decide +kernel) <| .done _
  have kept := (@heartbeat_keeps 0 .standard
    [.perform (.create "job" none), .claim ["job"] "first" (.ofMillis 1200)] later 1 "first" script
    1000 1200 200000).2 rfl (by decide) (by decide) (by decide +kernel)
  rw [hlog] at kept
  have prompt : ∀ answer ∈ script.keeper, ∃ after, answer = .renewed true after ∧
      1000 * after ≤ 200000 := by
    simp [script]
  have held : ∃ row ∈ store.database.rows, row.id = 1 ∧ row.isHeldBy "first" = true ∧
      ∃ deadline, row.leaseExpires = some deadline ∧ 1200000 ≤ deadline :=
    ⟨_, List.mem_singleton.mpr rfl, rfl, rfl, 1200000, rfl, le_rfl⟩
  exact ⟨hlog, sustained, kept prompt held sustained (by decide +kernel) later.length le_rfl
    _ (.inl le_rfl)⟩

/-- A lease of 2283 years is written eight microseconds short. So it runs out before a renewal takes
effect that comes as late as it may, and another worker claims the task. -/
theorem rounded_lease_lost :
    let length := 72057594037929
    let interval := length - 1
    let store := (initial 0).play .standard
      [.perform (.create "job" none), .claim ["job"] "first" (.ofMillis (length + 1))]
    let later : List Call :=
      [.pass (1000 * interval), .renew 1 "first" (.ofMillis length), .pass (1000 * length),
        .renew 1 "first" (.ofMillis length)]
    let script : HeartbeatScript :=
      ⟨.ofMillis interval, [.renewed true 0, .renewed true 1], 2 * interval + 1⟩
    1000 * interval + 1000 ≤ 1000 * length ∧
      script.log = ⟨[interval, 2 * interval], 2 * interval + 1⟩ ∧
      store.database.rows.map Row.leaseExpires = [some (1000 * (interval : Micros) + 2000)] ∧
      Sustained .standard 1 "first" (.ofMillis length) 1000 store
        [1000 * interval, 1000 * (2 * interval)] later ∧
      (store.play .standard later).clock = 1000 * (2 * interval + 1) ∧
      let seen : Store :=
        { store.play .standard (later.take 2) with
          clock := (store.play .standard (later.take 3)).clock }
      (seen.claim ["job"] "second" (.ofSeconds 1)).answer =
        .ok (.claimed ⟨1, "job", Json.emptyObject, "second"⟩) := by
  intro length interval store later script
  have hlog : script.log = ⟨[interval, 2 * interval], 2 * interval + 1⟩ := by
    have hpos : 0 < (Duration.ofMillis interval).nanos := by decide
    rw [HeartbeatScript.log, dif_pos hpos, HeartbeatScript.loop_renewed (by decide) rfl,
      HeartbeatScript.loop_renewed (by decide) rfl, HeartbeatScript.loop_stop (by decide)]
    decide +kernel
  have silent : ∀ {store : Store} {call : Call}, call.events .standard store = [] →
      ∀ deadline, .renewed 1 deadline ∉ call.events .standard store := by
    intro store call h deadline
    simp [h]
  refine ⟨by decide, hlog, by decide +kernel, ?_, by decide +kernel, by decide +kernel⟩
  exact .other (silent rfl) (by decide +kernel) <|
    .renewal (by decide +kernel) (by decide +kernel) (by decide +kernel) <|
    .other (silent rfl) (by decide +kernel) <|
    .renewal (by decide +kernel) (by decide +kernel) (by decide +kernel) <| .done _

end Store
end LeaseQueue
