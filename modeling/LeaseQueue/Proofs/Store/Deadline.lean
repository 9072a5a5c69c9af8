/-
Where the ends of the leases come from.

* `Database.Granted`: an end of a lease that the database has computed between two times;
* `OpenRun.granted_renewals`, `Program.granted_renewals`: the renewals beside a run;
* `Call.granted_events`: the events of a call;
* `Store.play_granted`: every lease of every row was granted during the run that leads there.
-/
import LeaseQueue.Proofs.Store.Lease
import LeaseQueue.Proofs.Store.RowShape

namespace LeaseQueue

namespace Database

/-- A lease that was given between two times ends at the deadline. -/
def Granted (first last deadline : Micros) : Prop :=
  ∃ now lease, (first ≤ now ∧ now ≤ last) ∧ leaseDeadline? now lease = some deadline

lemma Granted.widen {first last first' last' deadline : Micros} (h : Granted first last deadline)
    (hfirst : first' ≤ first) (hlast : last ≤ last') : Granted first' last' deadline := by
  obtain ⟨now, lease, ⟨hafter, hbefore⟩, hd⟩ := h
  exact ⟨now, lease, ⟨hfirst.trans hafter, hbefore.trans hlast⟩, hd⟩

/-- A lease that is given now. -/
lemma Granted.now {now deadline : Micros} {lease : Duration}
    (h : leaseDeadline? now lease = some deadline) : Granted now now deadline :=
  ⟨now, lease, ⟨le_rfl, le_rfl⟩, h⟩

end Database

/-! ### Renewals beside a run -/

lemma Store.granted_renewal {store : Store} {task : TaskId} {worker : WorkerId} {lease : Duration}
    {renewal : Renewal} (h : store.renewal? task worker lease = some renewal) :
    Database.Granted store.clock store.clock renewal.deadline := by
  rw [renewal?] at h
  split at h
  · obtain ⟨deadline, hd, rfl⟩ := Option.map_eq_some_iff.mp h
    exact .now hd
  · cases h

namespace OpenRun

variable {task : ClaimedTask}

/-- The renewals that some beats make. -/
lemma granted_renewals (beats : List Beat) :
    ∀ run : OpenRun, run.store.fault = none → ∀ renewal ∈ run.renewals task beats,
      Database.Granted run.store.clock (beats.foldl (OpenRun.beat task) run).store.clock
        renewal.deadline := by
  induction beats with
  | nil => exact fun run _ renewal h => absurd h List.not_mem_nil
  | cons beat rest ih =>
      intro run calm renewal hmem
      have hbeat := beside_beat task calm beat
      have hrest := beside_beats task hbeat.calm rest
      rcases List.mem_append.mp hmem with hfirst | hlater
      · refine Database.Granted.widen ?_ le_rfl (hbeat.clock.trans hrest.clock)
        rw [Option.mem_toList] at hfirst
        cases beat with
        | pass micros => cases hfirst
        | renew lease =>
            rw [renewal?] at hfirst
            split at hfirst
            · cases hfirst
            · exact Store.granted_renewal hfirst
      · exact (ih _ hbeat.calm renewal hlater).widen hbeat.clock le_rfl

end OpenRun

/-- The renewals that are made beside a program. -/
theorem Program.granted_renewals {task : ClaimedTask} (beats : Nat → List Beat)
    (channel : Channel) (program : Program) :
    ∀ run : OpenRun, run.store.fault = none →
      ∀ renewal ∈ program.renewals task beats channel run,
        Database.Granted run.store.clock
          (program.execute (.beating task beats) channel run).run.store.clock
          renewal.deadline := by
  induction program with
  | finish outcome => exact fun run _ renewal h => absurd h List.not_mem_nil
  | panic text => exact fun run _ renewal h => absurd h List.not_mem_nil
  | perform operation next ih =>
      exact fun run calm =>
        ih (run.perform channel operation).1 (run.perform channel operation).2 calm
  | pause millis next ih =>
      intro run calm renewal hmem
      have hbeats := OpenRun.beside_beats task calm (beats millis)
      have hrest : Store.Beside task.id task.worker _ _ _ :=
        OpenRun.beside_execute beats channel next _ hbeats.calm
      rcases List.mem_append.mp hmem with hfirst | hlater
      · exact (OpenRun.granted_renewals (beats millis) run calm renewal hfirst).widen le_rfl
          hrest.clock
      · exact (ih _ hbeats.calm renewal hlater).widen hbeats.clock le_rfl
  | stop next ih => exact ih

/-! ### Calls -/

/-- Every deadline that a call writes was granted while the call was under way. -/
theorem Call.granted_events (call : Call) (channel : Channel) (store : Store) {event : LeaseEvent}
    (hevent : event ∈ call.events channel store) {task : TaskId} {deadline : Micros}
    (hd : event.deadline? task = some deadline) :
    Database.Granted store.clock (call.next channel store).clock deadline := by
  have hended : ∀ {events : List LeaseEvent}, (∀ event ∈ events, ∃ task, event = .ended task) →
      event ∉ events := by
    intro events told hmem
    obtain ⟨ended, rfl⟩ := told event hmem
    cases hd
  have hclock := (call.precedes_next channel store).clock
  have hwritten : ∀ {other deadline' : Micros}, (if other = task then some deadline' else none) =
      some deadline → deadline' = deadline := by
    intro other deadline' h
    split at h
    · exact Option.some.inj h
    · cases h
  cases call with
  | perform operation => exact absurd hevent (hended (LeaseEvent.ofAnswer_told _))
  | claim types worker lease =>
      rw [events] at hevent
      split at hevent
      · obtain ⟨written, hmem, rfl⟩ := List.mem_map.mp hevent
        obtain rfl := hwritten hd
        exact (Database.Granted.now (Option.mem_toList.mp hmem)).widen le_rfl hclock
      · cases hevent
  | renew other worker lease =>
      obtain ⟨renewal, hmem, rfl⟩ := List.mem_map.mp hevent
      obtain rfl := hwritten hd
      exact (Store.granted_renewal (Option.mem_toList.mp hmem)).widen le_rfl hclock
  | finish other worker outcome => exact absurd hevent (hended (LeaseEvent.ofEnd_told _))
  | run handler claimed earlierRuns beats =>
      rcases List.mem_append.mp hevent with hrenewed | hend
      · obtain ⟨renewal, hmem, rfl⟩ := List.mem_map.mp hrenewed
        obtain rfl := hwritten hd
        have hgranted := Program.granted_renewals beats channel _ (.start store) rfl renewal hmem
        refine hgranted.widen le_rfl (le_of_eq ?_)
        rcases store.runBeating_cases channel handler claimed earlierRuns beats with
          ⟨outcome, hc, hspared⟩ | ⟨-, -, nextId, fault, -, -, hstore⟩
        · rw [next,
            store.runBeating_of_commits channel handler claimed earlierRuns beats hc hspared]
          rfl
        · rw [next, hstore]
          rfl
      · exact absurd hend (hended (RunReply.events_told _))
  | transaction steps keep =>
      rw [events] at hevent
      split at hevent
      · obtain ⟨answer, -, hmem⟩ := List.mem_flatMap.mp hevent
        exact absurd hmem (hended (LeaseEvent.ofAnswer_told answer))
      · cases hevent
  | pass micros => cases hevent

/-! ### Whole runs -/

namespace Store

variable (clock : Micros) (channel : Channel) (calls : List Call)

/-- Every deadline that a run tells was granted during the run. -/
lemma history_granted {event : LeaseEvent} (hevent : event ∈ (initial clock).history channel calls)
    {task : TaskId} {deadline : Micros} (hd : event.deadline? task = some deadline) :
    Database.Granted clock ((initial clock).play channel calls).clock deadline := by
  induction calls using List.reverseRecOn with
  | nil => cases hevent
  | append_singleton calls call ih =>
      rw [history_concat] at hevent
      rw [play_concat]
      have hbefore := (precedes_play (initial clock) channel calls).clock
      have hafter := (call.precedes_next channel ((initial clock).play channel calls)).clock
      rcases List.mem_append.mp hevent with hearlier | hnow
      · exact (ih hearlier).widen le_rfl hafter
      · exact (call.granted_events channel _ hnow hd).widen hbefore le_rfl

/-- Every lease of every row was granted during the run that leads there. -/
theorem play_granted : ∀ row ∈ ((initial clock).play channel calls).database.rows,
    ∀ deadline ∈ row.leaseExpires,
      Database.Granted clock ((initial clock).play channel calls).clock deadline := by
  intro row hrow deadline hdeadline
  have hshape := play_wellFormed clock channel calls row hrow
  have hrunning := hshape.lease.mp (Option.isSome_iff_exists.mpr ⟨deadline, hdeadline⟩)
  have htold := ((play_told clock channel calls).lease row hrow (Row.hasStatus_iff.mpr hrunning)).2
  rw [Option.mem_def.mp hdeadline] at htold
  have hlast := List.mem_of_getLast? htold.symm
  obtain ⟨event, hevent, hd⟩ := List.mem_filterMap.mp hlast
  exact history_granted clock channel calls hevent hd

end Store
end LeaseQueue
