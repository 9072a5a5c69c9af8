/-
What happens beside the transaction of a run: time passes, and the lease of its task is
renewed on another connection.

* `Beat`, `Surroundings.beating`: some beats in every pause of the handler;
* `Program.renewals`: the renewals that succeed beside a program;
* `Program.execute_keeps`: what operations and surroundings keep, a program keeps;
* `OpenRun.beside_execute`: nothing but time and these renewals come over the store.
-/
import LeaseQueue.Proofs.Store.Claim
import LeaseQueue.Proofs.Store.Finish
import LeaseQueue.Scheduler.Live

namespace LeaseQueue

/-! ### Beats -/

/-- What happens beside a run while its handler pauses. -/
inductive Beat where
  | pass (micros : Nat)
  | renew (lease : Duration)

/-- The run behind a beat. -/
def OpenRun.beat (task : ClaimedTask) (run : OpenRun) : Beat → OpenRun
  | .pass micros => run.advance micros
  | .renew lease => run.renew task.id task.worker lease

/-- In every pause some beats happen around the run of a task. -/
def Surroundings.beating (task : ClaimedTask) (beats : Nat → List Beat) : Surroundings :=
  fun millis run => (beats millis).foldl (OpenRun.beat task) run

/-- The heartbeat of a scheduler is such a beat. -/
theorem Live.renewing_eq_beating (lease : LeaseSettings) (task : ClaimedTask) :
    Live.renewing lease task =
      .beating task fun millis =>
        if millis < lease.heartbeat.timerMillis then [] else [.renew lease.duration] := by
  funext millis run
  rw [Live.renewing, Surroundings.beating]
  by_cases h : millis < lease.heartbeat.timerMillis
  · simp only [if_pos h, List.foldl_nil]
  · simp only [if_neg h, List.foldl_cons, List.foldl_nil, OpenRun.beat]

/-! ### Renewals -/

/-- A renewal that was made. -/
structure Renewal where
  time : Micros
  deadline : Micros
  deriving DecidableEq

/-- The renewal that a call makes, if it succeeds. -/
def Store.renewal? (store : Store) (task : TaskId) (worker : WorkerId) (lease : Duration) :
    Option Renewal :=
  match (store.renew task worker lease).answer with
  | .ok true =>
    (Database.leaseDeadline? store.clock lease).map fun deadline => ⟨store.clock, deadline⟩
  | _ => none

/-- The renewal that a beat makes. One of a row that the transaction has written has
to wait, and comes too late. -/
def OpenRun.renewal? (task : ClaimedTask) (run : OpenRun) : Beat → Option Renewal
  | .pass _ => none
  | .renew lease =>
    if run.holdsRow task.id then none else run.store.renewal? task.id task.worker lease

/-- The renewals that some beats make. -/
def OpenRun.renewals (task : ClaimedTask) : OpenRun → List Beat → List Renewal
  | _, [] => []
  | run, beat :: rest => (run.renewal? task beat).toList ++ renewals task (run.beat task beat) rest

/-- The renewals that are made beside a program. -/
def Program.renewals (task : ClaimedTask) (beats : Nat → List Beat) (channel : Channel) :
    Program → OpenRun → List Renewal
  | .finish _, _ | .panic _, _ => []
  | .perform operation next, run =>
    let (answer, run) := run.perform channel operation
    renewals task beats channel (next answer) run
  | .pause millis next, run =>
    run.renewals task (beats millis) ++
      renewals task beats channel next (Surroundings.beating task beats millis run)
  | .stop next, run => renewals task beats channel next run

namespace Store

variable (store : Store) (channel : Channel) (handler : Handler) (task : ClaimedTask)
  (earlierRuns : Nat) (beats : Nat → List Beat)

/-- Runs a handler while its lease is renewed. -/
def runBeating : RunReply := store.run (.beating task beats) handler ⟨task, channel, earlierRuns⟩

/-- The way of a handler through its transaction, behind which its outcome is still to be
written. -/
def executed : Execution :=
  (handler ⟨task, channel, earlierRuns⟩).execute (.beating task beats) channel (.start store)

/-- The renewals that are made beside the run of a handler. -/
def renewals : List Renewal :=
  (handler ⟨task, channel, earlierRuns⟩).renewals task beats channel (.start store)

end Store

/-- The database behind some renewals of a task by a worker. -/
def Database.renewAll (database : Database) (task : TaskId) (worker : WorkerId)
    (renewals : List Renewal) : Database :=
  renewals.foldl (fun database renewal =>
    database.change (Table.only task (Row.isHeldBy worker))
      (Row.renewed renewal.time renewal.deadline)) database

namespace Database

lemma renewAll_append (database : Database) (task : TaskId) (worker : WorkerId)
    (first rest : List Renewal) :
    database.renewAll task worker (first ++ rest) =
      (database.renewAll task worker first).renewAll task worker rest :=
  List.foldl_append

@[simp] lemma nextId_renewAll (database : Database) (task : TaskId) (worker : WorkerId)
    (renewals : List Renewal) :
    (database.renewAll task worker renewals).nextId = database.nextId := by
  induction renewals generalizing database with
  | nil => rfl
  | cons renewal rest ih => exact ih _

lemma steps_renewAll (database : Database) (task : TaskId) (worker : WorkerId)
    (renewals : List Renewal) : database.Steps (database.renewAll task worker renewals) := by
  induction renewals generalizing database with
  | nil => exact .refl
  | cons renewal rest ih => exact .head (.renew task worker _ _) (ih _)

lemma holds_renewed {database : Database} {task : TaskId} {worker : WorkerId}
    {now deadline : Micros} :
    (database.change (Table.only task (Row.isHeldBy worker)) (Row.renewed now deadline)).Holds
      task worker ↔ database.Holds task worker := by
  constructor
  · rintro ⟨row, hrow, hid, hheld⟩
    rcases mem_change.mp hrow with ⟨hold, -⟩ | ⟨old, hold, -, rfl⟩
    · exact ⟨row, hold, hid, hheld⟩
    · exact ⟨old, hold, hid, hheld⟩
  · rintro ⟨row, hrow, hid, hheld⟩
    refine ⟨row.renewed now deadline, ?_, hid, hheld⟩
    exact mem_change.mpr (.inr ⟨row, hrow, Table.only_eq_true.mpr ⟨hid, hheld⟩, rfl⟩)

/-- Renewals touch no row of another task. -/
lemma mem_renewAll {database : Database} {task : TaskId} {worker : WorkerId}
    {renewals : List Renewal} {row : Row} (hrow : row ∈ database.rows) (hid : row.id ≠ task) :
    row ∈ (database.renewAll task worker renewals).rows := by
  induction renewals generalizing database with
  | nil => exact hrow
  | cons renewal rest ih =>
      refine ih ?_
      exact mem_change.mpr (.inl ⟨hrow, by simp [Table.only, hid]⟩)

/-- Renewals give no lease and take none away. -/
lemma holds_renewAll {database : Database} {task : TaskId} {worker : WorkerId}
    (renewals : List Renewal) :
    (database.renewAll task worker renewals).Holds task worker ↔ database.Holds task worker := by
  induction renewals generalizing database with
  | nil => exact Iff.rfl
  | cons renewal rest ih => exact Iff.trans ih holds_renewed

end Database

/-! ### What a program keeps -/

/-- What operations and the surroundings keep of an open run, a program keeps. -/
theorem Program.execute_keeps {P : OpenRun → Prop} {around : Surroundings} {channel : Channel}
    (perform : ∀ run operation, P run → P (run.perform channel operation).2)
    (surround : ∀ millis run, P run → P (around millis run)) (program : Program) :
    ∀ run, P run → P (program.execute around channel run).run := by
  induction program with
  | finish outcome => exact fun run h => h
  | panic text => exact fun run h => h
  | perform operation next ih =>
      exact fun run h => ih _ _ (perform run operation h)
  | pause millis next ih => exact fun run h => ih _ (surround millis run h)
  | stop next ih => exact ih

/-- What time and renewals keep of an open run, its surroundings keep. -/
lemma Surroundings.beating_keeps {P : OpenRun → Prop} {task : ClaimedTask}
    (advance : ∀ run (micros : Nat), P run → P (run.advance micros))
    (renew : ∀ run lease, P run → P (run.renew task.id task.worker lease))
    (beats : Nat → List Beat) (millis : Nat) :
    ∀ run, P run → P (Surroundings.beating task beats millis run) := by
  unfold beating
  induction beats millis with
  | nil => exact fun run h => h
  | cons beat rest ih =>
      intro run h
      refine ih _ ?_
      cases beat with
      | pass micros => exact advance run micros h
      | renew lease => exact renew run lease h

/-! ### The store beside a program -/

/-- Nothing but time and some renewals of a task, if the worker holds it, has come over a
store, which has no failure to come. -/
structure Store.Beside (task : TaskId) (worker : WorkerId) (before : Store)
    (renewals : List Renewal) (after : Store) : Prop where
  calm : after.fault = none
  clock : before.clock ≤ after.clock
  held : renewals ≠ [] → before.database.Holds task worker
  database : after.database = before.database.renewAll task worker renewals

namespace Store

variable {task : TaskId} {worker : WorkerId}

lemma Beside.refl {store : Store} (calm : store.fault = none) :
    Beside task worker store [] store :=
  ⟨calm, le_rfl, fun h => absurd rfl h, rfl⟩

lemma Beside.trans {a b c : Store} {first rest : List Renewal}
    (h : Beside task worker a first b) (h' : Beside task worker b rest c) :
    Beside task worker a (first ++ rest) c where
  calm := h'.calm
  clock := h.clock.trans h'.clock
  held := fun hne => by
    by_cases hf : first = []
    · have hrest := h'.held fun hr => hne (by rw [hf, hr]; rfl)
      rw [h.database] at hrest
      exact (Database.holds_renewAll first).mp hrest
    · exact h.held hf
  database := by rw [h'.database, h.database, Database.renewAll_append]

/-- A call that renews a lease, by the renewal that it makes. -/
lemma beside_renew {store : Store} (calm : store.fault = none) (task : TaskId)
    (worker : WorkerId) (lease : Duration) :
    Beside task worker store (store.renewal? task worker lease).toList
      (store.renew task worker lease).store := by
  rcases store.renew_cases task worker lease with
    ⟨deadline, held, hd, hreply⟩ | ⟨hanswer, -, fault, hfault, hstore⟩
  · simp only [renewal?, hreply, hd, Option.map_some, Option.toList_some]
    exact ⟨calm, le_rfl, fun _ => held, rfl⟩
  · have hnone : store.renewal? task worker lease = none := by
      rw [renewal?]
      split
      · exact absurd ‹_› hanswer
      · rfl
    rw [hnone, hstore]
    exact ⟨PlannedFault.left_none hfault calm, le_rfl, fun h => absurd rfl h, rfl⟩

end Store

namespace OpenRun

variable {task : ClaimedTask} {run : OpenRun}

/-- The store beside a transaction in which a lease is renewed. -/
lemma renew_store (calm : run.store.fault = none) (task : TaskId) (worker : WorkerId)
    (lease : Duration) :
    (run.renew task worker lease).store =
      if run.holdsRow task then run.store else (run.store.renew task worker lease).store := by
  rw [renew]
  by_cases hh : run.holdsRow task = true
  · rw [if_pos hh, if_pos hh]
  rw [if_neg hh, if_neg hh]
  dsimp only
  split
  · rfl
  · rename_i hfind
    -- a renewal that succeeds leaves the row where it was
    rcases run.store.renew_cases task worker lease with
      ⟨deadline, ⟨row, hrow, hid, -⟩, -, hreply⟩ | ⟨-, -, fault, hfault, hstore⟩
    · have hids : ∀ row : Row, (row.renewed run.store.clock deadline).id = row.id := fun _ => rfl
      rw [hreply] at hfind
      simp only [Store.renewed, Database.rows_change] at hfind
      rw [Table.find?_update hids, Option.map_eq_none_iff] at hfind
      exact absurd (List.find?_eq_none.mp hfind row hrow) (by simp [hid])
    · rw [hstore, PlannedFault.left_none hfault calm, ← calm]

lemma beside_beat (task : ClaimedTask) (calm : run.store.fault = none) (beat : Beat) :
    run.store.Beside task.id task.worker (run.renewal? task beat).toList
      (run.beat task beat).store := by
  cases beat with
  | pass micros =>
      exact ⟨calm, Int.le_add_of_nonneg_right (Int.natCast_nonneg micros),
        fun h => absurd rfl h, rfl⟩
  | renew lease =>
      simp only [renewal?, OpenRun.beat]
      rw [renew_store calm]
      by_cases hh : run.holdsRow task.id = true
      · rw [if_pos hh, if_pos hh]
        exact .refl calm
      · rw [if_neg hh, if_neg hh]
        exact Store.beside_renew calm task.id task.worker lease

lemma beside_beats (task : ClaimedTask) (calm : run.store.fault = none) (beats : List Beat) :
    run.store.Beside task.id task.worker (run.renewals task beats)
      (beats.foldl (OpenRun.beat task) run).store := by
  induction beats generalizing run with
  | nil => exact .refl calm
  | cons beat rest ih =>
      have hbeat := beside_beat task calm beat
      exact hbeat.trans (ih hbeat.calm)

/-- Beside a program nothing but time and renewals come over the store. -/
theorem beside_execute (beats : Nat → List Beat) (channel : Channel) (program : Program) :
    ∀ run : OpenRun, run.store.fault = none →
      run.store.Beside task.id task.worker (program.renewals task beats channel run)
        (program.execute (.beating task beats) channel run).run.store := by
  induction program with
  | finish outcome => exact fun run calm => .refl calm
  | panic text => exact fun run calm => .refl calm
  | perform operation next ih =>
      intro run calm
      exact ih (run.perform channel operation).1 (run.perform channel operation).2 calm
  | pause millis next ih =>
      intro run calm
      have hbeats := beside_beats task calm (beats millis)
      exact hbeats.trans (ih _ hbeats.calm)
  | stop next ih => exact ih

end OpenRun
end LeaseQueue
