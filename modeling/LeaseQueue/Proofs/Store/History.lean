/-
The history of the leases: what claims, renewals and ends of runs have answered.

* `LeaseEvent`: a claim or a renewal that succeeded, or the end of a run;
* `Call.events`, `Store.history`: the events of a call and of a run of calls, read off
  the answers;
* `lastDeadline?`, `lastHolder?`: what the latest events say of the lease of a task;
* `claims`, `ends`: how often a task was claimed, and how often a run of it ended.
-/
import LeaseQueue.Proofs.Store.Call

namespace LeaseQueue

/-- What happens to the lease of a task. -/
inductive LeaseEvent where
  | claimed (task : TaskId) (worker : WorkerId) (deadline : Micros)
  | renewed (task : TaskId) (deadline : Micros)
  | ended (task : TaskId)
  deriving DecidableEq

namespace LeaseEvent

/-- The deadline that the event writes for a task. -/
def deadline? (task : TaskId) : LeaseEvent → Option Micros
  | claimed other _ deadline | renewed other deadline =>
    if other = task then some deadline else none
  | ended _ => none

/-- The worker to which the event gives a task. -/
def holder? (task : TaskId) : LeaseEvent → Option WorkerId
  | claimed other worker _ => if other = task then some worker else none
  | renewed _ _ | ended _ => none

/-- The end of a run, in the answer to an operation. -/
def ofAnswer : Except TaskError Answer → List LeaseEvent
  | .ok (.finished transition) => [ended transition.task]
  | _ => []

/-- The end of a run, on the way of a program. -/
def ofTrace : TraceEvent → List LeaseEvent
  | .answered answer => ofAnswer answer
  | .paused _ | .stopped => []

/-- The end of a run, in the answer to its final write. -/
def ofEnd : Except TaskError Transition → List LeaseEvent
  | .ok transition => [ended transition.task]
  | .error _ => []

end LeaseEvent

/-- The events of a run that counts once it is committed. -/
def RunReply.events (reply : RunReply) : List LeaseEvent :=
  if reply.answer.toBool then
    reply.trace.flatMap LeaseEvent.ofTrace ++ LeaseEvent.ofEnd reply.answer
  else []

namespace LeaseEvent

lemma ofAnswer_told (answer : Except TaskError Answer) :
    ∀ event ∈ ofAnswer answer, ∃ task, event = ended task := by
  unfold ofAnswer
  split <;> simp

lemma ofTrace_told (event : TraceEvent) : ∀ told ∈ ofTrace event, ∃ task, told = ended task := by
  cases event with
  | answered answer => exact ofAnswer_told answer
  | paused | stopped => simp [ofTrace]

lemma ofEnd_told (answer : Except TaskError Transition) :
    ∀ event ∈ ofEnd answer, ∃ task, event = ended task := by
  cases answer <;> simp [ofEnd]

end LeaseEvent

lemma RunReply.events_told (reply : RunReply) :
    ∀ event ∈ reply.events, ∃ task, event = .ended task := by
  intro event hevent
  rw [events] at hevent
  split at hevent
  · rcases List.mem_append.mp hevent with htrace | hend
    · obtain ⟨traced, -, htold⟩ := List.mem_flatMap.mp htrace
      exact LeaseEvent.ofTrace_told traced event htold
    · exact LeaseEvent.ofEnd_told _ event hend
  · cases hevent

open LeaseEvent in
/-- The events of a call. What a run or an explicit transaction has answered counts once
it is committed; the renewals beside a run count either way. -/
def Call.events (channel : Channel) (store : Store) : Call → List LeaseEvent
  | .perform operation => ofAnswer (store.perform channel operation).answer
  | .claim types worker lease =>
    match (store.claim types worker lease).answer with
    | .ok (.claimed task) =>
      (Database.leaseDeadline? store.clock lease).toList.map (claimed task.id worker)
    | _ => []
  | .renew task worker lease =>
    (store.renewal? task worker lease).toList.map fun renewal => renewed task renewal.deadline
  | .finish task worker outcome => ofEnd (store.finish channel task worker outcome).answer
  | .run handler task earlierRuns beats =>
    let reply := store.runBeating channel handler task earlierRuns beats
    (store.renewals channel handler task earlierRuns beats).map
        (fun renewal => renewed task.id renewal.deadline) ++ reply.events
  | .transaction steps keep =>
    if store.lands channel steps keep then
      ((Session.mk store channel none).begin.through steps).1.flatMap ofAnswer
    else []
  | .pass _ => []

/-- The events of a run of calls, the oldest first. -/
def Store.history (store : Store) (channel : Channel) : List Call → List LeaseEvent
  | [] => []
  | call :: rest => call.events channel store ++ (call.next channel store).history channel rest

lemma Store.history_append (store : Store) (channel : Channel) (first rest : List Call) :
    store.history channel (first ++ rest) =
      store.history channel first ++ (store.play channel first).history channel rest := by
  induction first generalizing store with
  | nil => rfl
  | cons call first ih => simp only [List.cons_append, history, ih, List.append_assoc]; rfl

lemma Store.history_concat (store : Store) (channel : Channel) (calls : List Call) (call : Call) :
    store.history channel (calls ++ [call]) =
      store.history channel calls ++ call.events channel (store.play channel calls) := by
  rw [history_append]
  simp [history]

/-! ### What a history says of a task -/

/-- The deadline that was written last. -/
def lastDeadline? (history : List LeaseEvent) (task : TaskId) : Option Micros :=
  (history.filterMap (LeaseEvent.deadline? task)).getLast?

/-- The worker that has claimed the task last. -/
def lastHolder? (history : List LeaseEvent) (task : TaskId) : Option WorkerId :=
  (history.filterMap (LeaseEvent.holder? task)).getLast?

/-- How often the task was claimed. -/
def claims (history : List LeaseEvent) (task : TaskId) : Nat :=
  history.countP fun event => (event.holder? task).isSome

/-- How often a run of the task ended. -/
def ends (history : List LeaseEvent) (task : TaskId) : Nat := history.count (.ended task)

lemma lastDeadline?_append (first rest : List LeaseEvent) (task : TaskId) :
    lastDeadline? (first ++ rest) task =
      (lastDeadline? rest task).or (lastDeadline? first task) := by
  simp [lastDeadline?]

lemma lastHolder?_append (first rest : List LeaseEvent) (task : TaskId) :
    lastHolder? (first ++ rest) task =
      (lastHolder? rest task).or (lastHolder? first task) := by
  simp [lastHolder?]

lemma claims_append (first rest : List LeaseEvent) (task : TaskId) :
    claims (first ++ rest) task = claims first task + claims rest task := by
  simp [claims]

lemma ends_append (first rest : List LeaseEvent) (task : TaskId) :
    ends (first ++ rest) task = ends first task + ends rest task := by
  simp [ends]

section

variable (other task : TaskId) (worker : WorkerId) (deadline : Micros)

@[simp] lemma lastDeadline?_claimed :
    lastDeadline? [.claimed other worker deadline] task =
      if other = task then some deadline else none := by
  by_cases h : other = task <;> simp [lastDeadline?, LeaseEvent.deadline?, h]

@[simp] lemma lastDeadline?_renewed :
    lastDeadline? [.renewed other deadline] task =
      if other = task then some deadline else none := by
  by_cases h : other = task <;> simp [lastDeadline?, LeaseEvent.deadline?, h]

@[simp] lemma lastHolder?_claimed :
    lastHolder? [.claimed other worker deadline] task =
      if other = task then some worker else none := by
  by_cases h : other = task <;> simp [lastHolder?, LeaseEvent.holder?, h]

@[simp] lemma lastHolder?_renewed : lastHolder? [.renewed other deadline] task = none := rfl

@[simp] lemma claims_claimed :
    claims [.claimed other worker deadline] task = if other = task then 1 else 0 := by
  by_cases h : other = task <;> simp [claims, LeaseEvent.holder?, h]

@[simp] lemma claims_renewed : claims [.renewed other deadline] task = 0 := rfl

@[simp] lemma ends_claimed : ends [.claimed other worker deadline] task = 0 := by
  simp [ends]

@[simp] lemma ends_renewed : ends [.renewed other deadline] task = 0 := by
  simp [ends]

@[simp] lemma ends_ended : ends [.ended other] task = if other = task then 1 else 0 := by
  simp [ends, List.count_singleton]

variable {events : List LeaseEvent} (told : ∀ event ∈ events, ∃ task, event = .ended task)
include told

/-- Ends of runs write no deadline. -/
lemma lastDeadline?_of_ended : lastDeadline? events task = none := by
  have h : events.filterMap (LeaseEvent.deadline? task) = [] := by
    refine List.filterMap_eq_nil_iff.mpr fun event hevent => ?_
    obtain ⟨ended, rfl⟩ := told event hevent
    rfl
  rw [lastDeadline?, h, List.getLast?_nil]

/-- Ends of runs give no task to a worker. -/
lemma lastHolder?_of_ended : lastHolder? events task = none := by
  have h : events.filterMap (LeaseEvent.holder? task) = [] := by
    refine List.filterMap_eq_nil_iff.mpr fun event hevent => ?_
    obtain ⟨ended, rfl⟩ := told event hevent
    rfl
  rw [lastHolder?, h, List.getLast?_nil]

lemma claims_of_ended : claims events task = 0 := by
  refine List.countP_eq_zero.mpr fun event hevent => ?_
  obtain ⟨ended, rfl⟩ := told event hevent
  simp [LeaseEvent.holder?]

end

/-- Events that claim a task not, and renew it not before a deadline, leave it a deadline
that is not before. -/
lemma lastDeadline?_le {history events : List LeaseEvent} {task : TaskId} {deadline : Micros}
    (hd : lastDeadline? history task = some deadline)
    (unclaimed : ∀ worker next, .claimed task worker next ∉ events)
    (renewed : ∀ next, .renewed task next ∈ events → deadline ≤ next) :
    ∃ last, lastDeadline? (history ++ events) task = some last ∧ deadline ≤ last := by
  rw [lastDeadline?_append]
  cases hl : lastDeadline? events task with
  | none => exact ⟨deadline, hd, le_rfl⟩
  | some last =>
      refine ⟨last, rfl, ?_⟩
      obtain ⟨event, hevent, hlast⟩ := List.mem_filterMap.mp (List.mem_of_getLast? hl)
      cases event with
      | claimed other worker next =>
          simp only [LeaseEvent.deadline?] at hlast
          split at hlast
          · rename_i hid
            exact absurd (hid ▸ hevent) (unclaimed worker next)
          · cases hlast
      | renewed other next =>
          simp only [LeaseEvent.deadline?] at hlast
          split at hlast
          · rename_i hid
            cases hlast
            exact renewed _ (hid ▸ hevent)
          · cases hlast
      | ended other => cases hlast

/-- A worker that has not claimed a task since another worker did is not the last one. -/
lemma lastHolder?_ne {before after : List LeaseEvent} {task : TaskId} {holder lost : WorkerId}
    {deadline : Micros} (hne : lost ≠ holder)
    (unclaimed : ∀ next, .claimed task lost next ∉ after) :
    lastHolder? (before ++ .claimed task holder deadline :: after) task ≠ some lost := by
  have hsplit : before ++ .claimed task holder deadline :: after =
      before ++ [.claimed task holder deadline] ++ after := by simp
  rw [hsplit, lastHolder?_append, lastHolder?_append, lastHolder?_claimed, if_pos rfl]
  cases hl : lastHolder? after task with
  | none => simpa using hne.symm
  | some last =>
      rintro ⟨⟩
      obtain ⟨event, hevent, hlast⟩ := List.mem_filterMap.mp (List.mem_of_getLast? hl)
      cases event with
      | claimed other worker next =>
          simp only [LeaseEvent.holder?] at hlast
          split at hlast
          · rename_i hid
            cases hlast
            exact unclaimed next (hid ▸ hevent)
          · cases hlast
      | renewed other next => cases hlast
      | ended other => cases hlast

end LeaseQueue
