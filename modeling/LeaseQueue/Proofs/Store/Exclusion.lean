/-
A task has one holder at a time, and who has lost it is kept out.

* `Store.claim_found`: what a claim has found;
* `Store.claim_excluded`, `Store.unclaimed`: until its last deadline nobody else gets a task
  that runs;
* `Store.lostRenewal`, `Store.lostAnswer`: what a worker is answered that has lost its lease;
* `Store.renew_of_not_holds`, `Store.finish_of_not_holds`: a worker that does not hold a
  task can neither renew its lease nor end its run;
* `Store.lease_exclusive`: all of it over whole runs.
-/
import LeaseQueue.Proofs.Store.Lease
import LeaseQueue.Proofs.Store.Perform

namespace LeaseQueue

/-- A claim is told by no other call than a claim that gives the task. -/
lemma Call.answer_of_claimed_mem {call : Call} {channel : Channel} {store : Store} {task : TaskId}
    {worker : WorkerId} {deadline : Micros}
    (h : .claimed task worker deadline ∈ call.events channel store) :
    ∃ types lease claimed, (store.claim types worker lease).answer = .ok (.claimed claimed) ∧
      claimed.id = task := by
  have ended : ∀ events : List LeaseEvent, (∀ event ∈ events, ∃ task, event = .ended task) →
      .claimed task worker deadline ∉ events := by
    intro events told hmem
    obtain ⟨other, hother⟩ := told _ hmem
    cases hother
  cases call with
  | perform operation => exact absurd h (ended _ (LeaseEvent.ofAnswer_told _))
  | claim types other lease =>
      simp only [events] at h
      split at h
      · rename_i claimed hanswer
        obtain ⟨next, -, hevent⟩ := List.mem_map.mp h
        cases hevent
        exact ⟨types, lease, claimed, hanswer, rfl⟩
      · cases h
  | renew other holder lease => simp [events] at h
  | finish other holder outcome => exact absurd h (ended _ (LeaseEvent.ofEnd_told _))
  | run handler other earlierRuns beats =>
      rcases List.mem_append.mp h with hrenewed | hrun
      · simp at hrenewed
      · exact absurd hrun (ended _ (RunReply.events_told _))
  | transaction steps keep =>
      refine absurd h (ended _ ?_)
      simp only [events]
      split
      · intro event hevent
        obtain ⟨answer, -, htold⟩ := List.mem_flatMap.mp hevent
        exact LeaseEvent.ofAnswer_told answer event htold
      · simp
  | pass micros => cases h

namespace Store

/-! ### Claims -/

/-- A claim that gives a task has found it pending, or with a lease that has run out: the
last one that was written for it. -/
lemma claim_found {store : Store} {history : List LeaseEvent}
    (told : store.database.Told history) {types : List String} {worker : WorkerId}
    {lease : Duration} {task : ClaimedTask}
    (h : (store.claim types worker lease).answer = .ok (.claimed task)) :
    ∃ row ∈ store.database.rows, row.id = task.id ∧
      (row.status = .known .pending ∨
        row.status = .known .running ∧
          ∃ deadline, row.leaseExpires = some deadline ∧ deadline < store.clock ∧
            lastDeadline? history task.id = some deadline) := by
  rcases store.claim_cases types worker lease with
    ⟨row, deadline, state, ho, -, -, hreply⟩ | ⟨hanswer, -⟩
  · obtain ⟨hrow, he⟩ := List.mem_filter.mp (Table.oldest?_mem ho)
    rw [hreply] at h
    cases h
    refine ⟨row, hrow, rfl, ?_⟩
    rcases (Row.isEligible_iff.mp he).1 with hpending | ⟨hrunning, deadline, hl, hlt⟩
    · exact .inl hpending
    · have hlease := (told.lease row hrow (Row.hasStatus_iff.mpr hrunning)).2
      exact .inr ⟨hrunning, deadline, hl, hlt, hlease.symm.trans hl⟩
  · exact absurd h (hanswer task)

/-- While a task runs, until its last deadline no claim gives it. -/
lemma claim_excluded {store : Store} {history : List LeaseEvent}
    (told : store.database.Told history) {task : TaskId} {deadline : Micros}
    (runs : 0 < store.database.running task) (hd : lastDeadline? history task = some deadline)
    (hc : store.clock ≤ deadline) {types : List String} {worker : WorkerId} {lease : Duration}
    {claimed : ClaimedTask} (h : (store.claim types worker lease).answer = .ok (.claimed claimed)) :
    claimed.id ≠ task := by
  intro hid
  obtain ⟨row, hrow, hrid, hfound⟩ := claim_found told h
  obtain ⟨other, hother, hpick⟩ := List.countP_pos_iff.mp runs
  obtain ⟨hoid, hrun⟩ := Table.only_eq_true.mp hpick
  have : row = other := told.sound.eq_of_id hrow hother (by rw [hrid, hid, hoid])
  subst this
  rcases hfound with hpending | ⟨-, found, -, hlt, hlast⟩
  · rw [Row.hasStatus_iff, hpending] at hrun
    cases hrun
  · rw [hid, hd] at hlast
    cases hlast
    exact absurd hlt (not_lt.mpr hc)

/-- While a task runs and its renewals do not come before a deadline, no call claims it
until then. -/
lemma unclaimed {clock : Micros} {channel : Channel} {calls : List Call} {task : TaskId}
    {deadline : Micros}
    (hd : lastDeadline? ((initial clock).history channel calls) task = some deadline)
    (later : List Call)
    (runs : ∀ n ≤ later.length,
      0 < (((initial clock).play channel calls).play channel (later.take n)).database.running task)
    (renewed : ∀ next, .renewed task next ∈
      ((initial clock).play channel calls).history channel later → deadline ≤ next)
    (hc : (((initial clock).play channel calls).play channel later).clock ≤ deadline) :
    ∀ worker next,
      .claimed task worker next ∉ ((initial clock).play channel calls).history channel later := by
  induction later using List.reverseRecOn with
  | nil => simp [history]
  | append_singleton later call ih =>
      rw [history_append] at renewed ⊢
      have htake : ∀ n ≤ later.length, (later ++ [call]).take n = later.take n :=
        fun n hn => List.take_append_of_le_length hn
      have hclock : (((initial clock).play channel calls).play channel later).clock ≤ deadline := by
        rw [play_concat] at hc
        exact (call.precedes_next channel _).clock.trans hc
      have hlength : later.length ≤ (later ++ [call]).length := by simp
      have hbefore := ih (fun n hn => htake n hn ▸ runs n (hn.trans hlength))
        (fun next hnext => renewed next (List.mem_append_left _ hnext)) hclock
      intro worker next hmem
      rcases List.mem_append.mp hmem with hold | hnew
      · exact hbefore worker next hold
      · -- the task runs when the call is made, under a lease that has not run out
        obtain ⟨types, lease, claimed, hanswer, hid⟩ :=
          Call.answer_of_claimed_mem (by simpa [history] using hnew)
        obtain ⟨last, hlast, hle⟩ := lastDeadline?_le hd hbefore
          fun next hnext => renewed next (List.mem_append_left _ hnext)
        have told := play_told clock channel (calls ++ later)
        rw [play_append, history_append] at told
        have hrun := runs later.length hlength
        rw [htake _ le_rfl, List.take_length] at hrun
        exact claim_excluded told hrun hlast (hclock.trans hle) hanswer hid

/-! ### Lost leases -/

/-- The answer to a renewal of a lease that is lost. That the new lease has an interval is checked
first. -/
def lostRenewal (lease : Duration) : Except TaskError Bool :=
  if Database.IsInterval lease then .ok false else .error (.refused .datetimeOverflow)

/-- A worker that does not hold a task cannot renew its lease. -/
lemma renew_of_not_holds {store : Store} {table : Table} (calm : store.fault = none)
    (ht : store.database.tasks = some table) {task : TaskId} {worker : WorkerId}
    (h : ¬ store.database.Holds task worker) (lease : Duration) :
    store.renew task worker lease = ⟨lostRenewal lease, [], store⟩ := by
  have hany := (not_congr Table.any_only_iff).mpr h
  obtain ⟨⟨tasks, nextId, migrations⟩, clock, fault⟩ := store
  simp only at calm ht
  subst calm ht
  simp only [Database.rows, Option.getD_some, Bool.not_eq_true] at hany
  rw [renew]
  rw [autocommit_onTasks]
  simp only [begin, Transaction.faultAt, Option.bind_none, Database.renewLease, Database.onTasks,
    hany, Bool.false_eq_true, if_false, lostRenewal]
  split_ifs <;> rfl

/-- The answer to the end of a run whose lease is lost. That the outcome is one that a run
can have is checked first. -/
def lostAnswer (task : TaskId) (worker : WorkerId) (outcome : Outcome) : TaskError :=
  if outcome.status = .running then .invalidOutcome .running else .leaseLost task worker

/-- A worker that does not hold a task cannot end its run. -/
lemma finish_of_not_holds {store : Store} {table : Table} (calm : store.fault = none)
    (ht : store.database.tasks = some table) {task : TaskId} {worker : WorkerId}
    (h : ¬ store.database.Holds task worker) (channel : Channel) (outcome : Outcome) :
    store.finish channel task worker outcome =
      ⟨.error (lostAnswer task worker outcome), [], store⟩ := by
  rw [lostAnswer]
  split_ifs with hp
  · exact store.finish_improper channel task worker hp
  · exact finish_lost calm ht h channel hp

/-- A worker that has not claimed a task since another worker did does not hold it. -/
lemma not_holds_of_history {database : Database} {before after : List LeaseEvent} {task : TaskId}
    {holder lost : WorkerId} {deadline : Micros}
    (told : database.Told (before ++ .claimed task holder deadline :: after))
    (hne : lost ≠ holder) (unclaimed : ∀ next, .claimed task lost next ∉ after) :
    ¬ database.Holds task lost := by
  rintro ⟨row, hrow, hid, hheld⟩
  obtain ⟨hworker, hrunning⟩ := Row.isHeldBy_iff.mp hheld
  have hlast := (told.lease row hrow (Row.hasStatus_iff.mpr hrunning)).1
  rw [hworker, hid] at hlast
  exact lastHolder?_ne hne unclaimed hlast.symm

/-! ### Whole runs -/

/-- A task has one holder at a time, in every store that a run from the empty one reaches:

* a claim finds its task pending, or under a lease that has run out, and this is the last
  lease that was written for it;
* hence from the writing of a deadline until then no claim gives the task, as long as it
  runs and no renewal moves the deadline before;
* a worker that has lost a task to another one can neither renew the lease nor end the
  run, until it claims the task again, and its attempts change and publish nothing: a renewal
  answers that the lease is lost, if the new one has an interval, and is refused otherwise;
* no more runs of a task end than there are claims of it. -/
theorem lease_exclusive (clock : Micros) (channel : Channel) (calls : List Call) :
    let store := (initial clock).play channel calls
    let history := (initial clock).history channel calls
    (∀ types worker lease task, (store.claim types worker lease).answer = .ok (.claimed task) →
      ∃ row ∈ store.database.rows, row.id = task.id ∧
        (row.status = .known .pending ∨
          row.status = .known .running ∧
            ∃ deadline, row.leaseExpires = some deadline ∧ deadline < store.clock ∧
              lastDeadline? history task.id = some deadline)) ∧
    (∀ task deadline later, lastDeadline? history task = some deadline →
      (∀ n ≤ later.length, 0 < (store.play channel (later.take n)).database.running task) →
      (∀ next, .renewed task next ∈ store.history channel later → deadline ≤ next) →
      (store.play channel later).clock ≤ deadline →
      ∀ types worker lease claimed,
        ((store.play channel later).claim types worker lease).answer = .ok (.claimed claimed) →
        claimed.id ≠ task) ∧
    (∀ before task holder deadline after lost,
      history = before ++ .claimed task holder deadline :: after → lost ≠ holder →
      (∀ next, .claimed task lost next ∉ after) →
      (∀ lease, store.renew task lost lease = ⟨lostRenewal lease, [], store⟩) ∧
      ∀ outcome, store.finish channel task lost outcome =
        ⟨.error (lostAnswer task lost outcome), [], store⟩) ∧
    ∀ task, ends history task ≤ claims history task := by
  intro store history
  have told : store.database.Told history := play_told clock channel calls
  refine ⟨?_, ?_, ?_, ?_⟩
  · exact fun types worker lease task h => claim_found told h
  · intro task deadline later hd runs renewed hc types worker lease claimed h
    have hunclaimed := unclaimed hd later runs renewed hc
    obtain ⟨last, hlast, hle⟩ := lastDeadline?_le hd hunclaimed renewed
    have told' := play_told clock channel (calls ++ later)
    rw [play_append, history_append] at told'
    have hrun := runs later.length le_rfl
    rw [List.take_length] at hrun
    exact claim_excluded told' hrun hlast (hc.trans hle) h
  · intro before task holder deadline after lost hhistory hne hunclaimed
    have hholds := not_holds_of_history (hhistory ▸ told) hne hunclaimed
    have calm := play_calm clock channel calls
    obtain ⟨table, ht⟩ := play_tasks clock channel calls
    exact ⟨fun lease => renew_of_not_holds calm ht hholds lease,
      fun outcome => finish_of_not_holds calm ht hholds channel outcome⟩
  · intro task
    have := told.paid task
    omega

/-- An outcome that no run can have is refused as such, even if the lease is lost, and so is a
renewal whose lease has no interval. -/
theorem lost_worker_refused :
    let calls : List Call :=
      [.perform (.create "job" none), .claim ["job"] "first" (.ofSeconds 1), .pass 2000000,
        .claim ["job"] "second" (.ofSeconds 1)]
    let store := (initial 0).play .standard calls
    (initial 0).history .standard calls =
        [.claimed 1 "first" 1000000, .claimed 1 "second" 3000000] ∧
      (store.finish .standard 1 "first" ⟨none, .running, none⟩).answer ≠
        .error (.leaseLost 1 "first") ∧
      (store.renew 1 "first" (.ofMillis 9223372036854776)).answer ≠ .ok false := by
  intro calls store
  refine ⟨rfl, ?_, by decide +kernel⟩
  simp only [store, finish, transact, TaskAction.run_finish_improper]
  simp

end Store
end LeaseQueue
