/-
What a worker was given of a task that it holds.

* `Store.lastGiven?`: what claims have given last of a task to a worker;
* `Store.lastGiven?_present`: a task that was given is there;
* `Store.Handed`: whoever holds the task was given what its state is read as;
* `Store.Handed.claim`, `Handed.untouched`: claims keep this, and so do acts that do not touch
  the task.
-/
import LeaseQueue.Proofs.Store.Exclusion
import LeaseQueue.Proofs.Store.Untouched

namespace LeaseQueue

/-! ### What a worker was given -/

/-- What a call gives of a task to a worker. -/
def Call.given? (store : Store) (task : TaskId) (worker : WorkerId) : Call → Option ClaimedTask
  | .claim types claimant lease =>
    match (store.claim types claimant lease).answer with
    | .ok (.claimed claimed) =>
      if claimed.id = task ∧ claimed.worker = worker then some claimed else none
    | _ => none
  | _ => none

namespace Store

/-- What a run of calls has given last of a task to a worker. -/
def lastGiven? (store : Store) (channel : Channel) (task : TaskId) (worker : WorkerId) :
    List Call → Option ClaimedTask
  | [] => none
  | call :: rest =>
    ((call.next channel store).lastGiven? channel task worker rest).or
      (call.given? store task worker)

lemma lastGiven?_concat (store : Store) (channel : Channel) (task : TaskId) (worker : WorkerId)
    (calls : List Call) (call : Call) :
    store.lastGiven? channel task worker (calls ++ [call]) =
      (call.given? (store.play channel calls) task worker).or
        (store.lastGiven? channel task worker calls) := by
  induction calls generalizing store with
  | nil => simp [lastGiven?]
  | cons first rest ih =>
      rw [List.cons_append, lastGiven?, ih, lastGiven?, Option.or_assoc]
      rfl

/-- A task that was given is there. -/
lemma lastGiven?_present {clock : Micros} {channel : Channel} {task : TaskId} {worker : WorkerId}
    {calls : List Call} :
    ∀ {claimed}, (initial clock).lastGiven? channel task worker calls = some claimed →
      ∃ row ∈ ((initial clock).play channel calls).database.rows, row.id = task := by
  induction calls using List.reverseRecOn with
  | nil => exact fun h => by cases h
  | append_singleton calls call ih =>
      intro claimed h
      have moves : Table.Moves _ (call.acts channel _) _ :=
        call.moves_next (play_quiet clock channel calls) (play_known clock channel calls)
      have hbefore : ∃ row ∈ ((initial clock).play channel calls).database.rows, row.id = task := by
        rw [lastGiven?_concat, Option.or_eq_some_iff] at h
        rcases h with hgiven | ⟨-, hlast⟩
        · cases call with
          | claim types claimant lease =>
              simp only [Call.given?] at hgiven
              split at hgiven
              · rename_i found hanswer
                split at hgiven
                · rename_i hfound
                  obtain ⟨row, hrow, hid, -⟩ :=
                    claim_found (play_told clock channel calls) hanswer
                  exact ⟨row, hrow, hid.trans hfound.1⟩
                · cases hgiven
              · cases hgiven
          | _ => cases hgiven
        · exact ih hlast
      obtain ⟨row, hrow, rfl⟩ := hbefore
      obtain ⟨next, hnext, hsame, -⟩ := moves.persists row hrow
      rw [play_concat]
      exact ⟨next, hnext, hsame.1⟩

end Store

/-! ### Who holds the task -/

/-- Only a claim gives a task to a worker. -/
lemma Call.lastHolder?_events {call : Call} (channel : Channel) (store : Store)
    (h : ∀ types worker lease, call ≠ .claim types worker lease) (task : TaskId) :
    lastHolder? (call.events channel store) task = none := by
  have hrenewed : ∀ {α : Type} (other : TaskId) (deadline : α → Micros) (list : List α),
      lastHolder? (list.map fun a => .renewed other (deadline a)) task = none := by
    intro α other deadline list
    have hnone : (list.map fun a => LeaseEvent.renewed other (deadline a)).filterMap
        (LeaseEvent.holder? task) = [] := by
      refine List.filterMap_eq_nil_iff.mpr fun event hevent => ?_
      obtain ⟨a, -, rfl⟩ := List.mem_map.mp hevent
      rfl
    rw [lastHolder?, hnone, List.getLast?_nil]
  cases call with
  | claim types worker lease => exact absurd rfl (h types worker lease)
  | perform operation => exact lastHolder?_of_ended _ (LeaseEvent.ofAnswer_told _)
  | renew other worker lease => exact hrenewed other Renewal.deadline _
  | finish other worker outcome => exact lastHolder?_of_ended _ (LeaseEvent.ofEnd_told _)
  | run handler claimed earlierRuns beats =>
      rw [events, lastHolder?_append, lastHolder?_of_ended _ (RunReply.events_told _)]
      exact hrenewed claimed.id Renewal.deadline _
  | transaction steps keep =>
      rw [events]
      split
      · refine lastHolder?_of_ended _ fun event hevent => ?_
        obtain ⟨answer, -, htold⟩ := List.mem_flatMap.mp hevent
        exact LeaseEvent.ofAnswer_told answer event htold
      · rfl
  | pass micros => rfl

namespace Store

variable (clock : Micros) (channel : Channel) (task : TaskId)

/-- Whoever holds a task was given what its state is read as. -/
def Handed (calls : List Call) : Prop :=
  ∀ row ∈ ((initial clock).play channel calls).database.rows, row.id = task →
    ∀ worker, row.isHeldBy worker = true → ∃ claimed,
      (initial clock).lastGiven? channel task worker calls = some claimed ∧
        row.readState = .ok claimed.state

variable {clock channel task} {calls : List Call}

/-- A claim gives the state of the task to the worker that holds it then. -/
lemma Handed.claim (h : Handed clock channel task calls) (types : List String)
    (worker : WorkerId) (lease : Duration) :
    Handed clock channel task (calls ++ [.claim types worker lease]) := by
  have hs := play_sound clock channel calls
  intro row hrow hid holder hheld
  rw [play_concat] at hrow
  rw [lastGiven?_concat]
  rcases ((initial clock).play channel calls).claim_cases types worker lease with
    ⟨found, deadline, state, hfound, -, hstate, hreply⟩ | ⟨hnone, -, fault, -, hstore⟩
  · have hfound := (List.mem_filter.mp (Table.oldest?_mem hfound)).1
    simp only [Call.next, hreply] at hrow
    simp only [Call.given?, hreply]
    rcases Database.mem_change.mp hrow with ⟨hold, hp⟩ | ⟨old, hold, hp, rfl⟩
    · have hother : ¬ (found.id = task ∧ worker = holder) := by
        rintro ⟨hfid, -⟩
        simp [Table.only, hid, hfid] at hp
      rw [if_neg hother, Option.none_or]
      exact h row hold hid holder hheld
    · have hsame : old = found := hs.eq_of_id hold hfound (Table.only_eq_true.mp hp).1
      subst hsame
      have hworker : worker = holder := by
        simpa [Row.claimed] using (Row.isHeldBy_iff.mp hheld).1
      rw [if_pos ⟨hid, hworker⟩, Option.some_or]
      exact ⟨_, rfl, hstate⟩
  · have hgiven : Call.given? ((initial clock).play channel calls) task holder
        (.claim types worker lease) = none := by
      -- no answer gives a task
      simp only [Call.given?]
    simp only [Call.next, hstore] at hrow
    rw [hgiven, Option.none_or]
    exact h row hrow hid holder hheld

/-- Acts that do not touch the task, in a call that is no claim. -/
lemma Handed.untouched (h : Handed clock channel task calls) {call : Call}
    (hcall : ∀ types worker lease, call ≠ .claim types worker lease) {acts : List Act}
    (moves : Table.Moves ((initial clock).play channel calls).database.rows acts
      ((initial clock).play channel (calls ++ [call])).database.rows)
    (spares : ∀ act ∈ acts, ¬ act.Touches task) (unclaimed : ∀ act ∈ acts, ¬ act.IsClaim) :
    Handed clock channel task (calls ++ [call]) := by
  have hs := play_sound clock channel (calls ++ [call])
  have told := play_told clock channel calls
  have told' := play_told clock channel (calls ++ [call])
  intro row hrow hid worker hheld
  obtain ⟨hworker, hrunning⟩ := Row.isHeldBy_iff.mp hheld
  obtain ⟨old, hold, holdRunning, hbecomes⟩ :=
    moves.running spares unclaimed row hrow hid hrunning
  have holdid : old.id = task := hbecomes.same.1.symm.trans hid
  obtain ⟨next, hnext, hnextBecomes, hstate⟩ := moves.kept spares old hold holdid
  obtain rfl : next = row :=
    hs.eq_of_id hnext hrow (hnextBecomes.same.1.trans hbecomes.same.1.symm)
  have hholder : old.worker = some worker := by
    have hbefore := (told.lease old hold (Row.hasStatus_iff.mpr holdRunning)).1
    have hbehind := (told'.lease next hnext (Row.hasStatus_iff.mpr hrunning)).1
    rw [history_concat, lastHolder?_append, Call.lastHolder?_events channel _ hcall,
      Option.none_or, hbecomes.same.1] at hbehind
    rw [hbefore, ← hbehind, hworker]
  obtain ⟨claimed, hgiven, hclaimed⟩ :=
    h old hold holdid worker (Row.isHeldBy_iff.mpr ⟨hholder, holdRunning⟩)
  have hnone : ∀ store : Store, call.given? store task worker = none := by
    intro store
    cases call with
    | claim types worker lease => exact absurd rfl (hcall types worker lease)
    | _ => rfl
  rw [lastGiven?_concat, hnone, Option.none_or]
  exact ⟨claimed, hgiven, (Row.readState_congr hstate).trans hclaimed⟩

end Store

end LeaseQueue
