/-
How far settings that are found to be valid lead to a lease that works.

* `Database.Accepts`, `Database.leaseDeadline?_eq`: the leases that the database can write, and
  their ends;
* `LeaseSettings.Covers`: the lease as it is written reaches to the first heartbeat;
* `HeartbeatScript.first_renewal`: when a heartbeat renews the lease for the first time;
* `Store.claim_workable`: the claim of a task with valid settings, and the first renewal;
* `Store.standard_workable`, `Store.valid_unworkable`: settings that work, and two that do not.

The settings are compared to the nanosecond. The database counts a lease in whole milliseconds,
and it does not write every lease.
-/
import LeaseQueue.Proofs.Scheduler.KeptLease
import LeaseQueue.Settings.Scheduler

namespace LeaseQueue

/-! ### Leases that can be written -/

namespace Database

/-- The lease has an interval, and ends before the end of time. -/
def Accepts (now : Micros) (lease : Duration) : Prop :=
  IsInterval lease ∧ now + leaseMicros lease < endOfTime

instance (now : Micros) (lease : Duration) : Decidable (Accepts now lease) :=
  inferInstanceAs (Decidable (_ ∧ _))

lemma leaseDeadline?_eq (now : Micros) (lease : Duration) :
    leaseDeadline? now lease =
      if Accepts now lease then some (now + leaseMicros lease) else none :=
  rfl

end Database

/-! ### Heartbeats -/

/-- The lease as it is written reaches to the first heartbeat. -/
def LeaseSettings.Covers (lease : LeaseSettings) : Prop :=
  lease.heartbeat.nanos ≤ 1000 * Database.leaseMicros lease.duration

instance (lease : LeaseSettings) : Decidable lease.Covers :=
  inferInstanceAs (Decidable (_ ≤ _))

namespace SchedulerSettings

variable {settings : SchedulerSettings}

/-- Valid settings have a heartbeat that is shorter than the lease. -/
lemma heartbeat_lt (valid : settings.validate = .ok ()) :
    0 < settings.lease.heartbeat.nanos ∧
      settings.lease.heartbeat.nanos < settings.lease.duration.nanos := by
  have hnone : settings.fault? = none := by
    rw [validate] at valid
    split at valid
    · cases valid
    · assumption
  rw [fault?] at hnone
  split_ifs at hnone
  omega

/-- The whole milliseconds of the lease fail to cover the heartbeat by less than one, -/
lemma heartbeat_lt_succ (valid : settings.validate = .ok ()) :
    settings.lease.heartbeat.nanos <
      (settings.lease.duration.wholeMillis + 1) * Duration.nanosPerMilli := by
  have hlt := (heartbeat_lt valid).2
  simp only [Duration.wholeMillis, Duration.nanosPerMilli]
  omega

/-- and only if neither the lease nor the heartbeat is one of whole milliseconds. -/
lemma heartbeat_le_of_whole (valid : settings.validate = .ok ())
    (whole : settings.lease.duration.nanos % Duration.nanosPerMilli = 0 ∨
      settings.lease.heartbeat.nanos % Duration.nanosPerMilli = 0) :
    settings.lease.heartbeat.nanos ≤
      settings.lease.duration.wholeMillis * Duration.nanosPerMilli := by
  have hlt := (heartbeat_lt valid).2
  simp only [Duration.wholeMillis, Duration.nanosPerMilli] at *
  omega

end SchedulerSettings

/-- The first renewal of a heartbeat begins at the first millisecond by which an interval has
passed. -/
lemma HeartbeatScript.first_renewal {script : HeartbeatScript} {first : Nat}
    (h : script.log.renewals.head? = some first) : first = script.interval.timerMillis := by
  rw [log] at h
  split at h
  · rename_i hpos
    have htick : tick script.interval.nanos 0 = script.interval.timerMillis := Nat.zero_max _
    rw [loop] at h
    split at h
    · cases h
    · split at h <;> exact (Option.some.inj h).symm.trans htick
  · cases h

/-! ### Claims -/

namespace Store

/-- Behind a claim the row of the task is found claimed. -/
lemma find?_leased {store : Store} (hs : store.database.Sound) {row : Row}
    (hrow : row ∈ store.database.rows) (worker : WorkerId) (deadline : Micros) :
    (store.leased row worker deadline).database.rows.find? row.id =
      some (row.claimed store.clock worker deadline) := by
  have hids : ∀ old : Row, (old.claimed store.clock worker deadline).id = old.id := fun _ => rfl
  simp only [leased, Database.rows_change]
  rw [Table.find?_update hids, hs.find?_eq hrow, Option.map_some,
    if_pos (Table.only_eq_true.mpr ⟨rfl, rfl⟩)]

/-- What valid settings promise of a lease. In every store that calls reach from the empty one, and
at every time, the claim of a task does not fail because of the lease of the settings exactly if the
database accepts the lease: then it looks at the state of a task, gives it if that comes back, and
writes the end of the lease. Otherwise it fails and changes nothing. The lease does not end before
the first heartbeat is due exactly if it covers the heartbeat as it is written. A lease of less than
285 years is written in its whole milliseconds. It ends less than a millisecond before the first
heartbeat is due at the earliest, it covers the heartbeat if one of the two has no other parts, and
exactly if it does the first renewal is not late. -/
theorem claim_workable {settings : SchedulerSettings} (valid : settings.validate = .ok ())
    (start : Micros) (channel : Channel) (calls : List Call) {types : List String}
    (eligible : ∃ row ∈ ((initial start).play channel calls).database.rows,
      row.isEligible ((initial start).play channel calls).clock types = true)
    (worker : WorkerId) :
    let store := (initial start).play channel calls
    let lease := settings.lease
    let reply := store.claim types worker lease.duration
    let deadline : Micros := store.clock + Database.leaseMicros lease.duration
    (if Database.Accepts store.clock lease.duration then
      ∃ row ∈ store.database.rows, reply.answer = (row.given worker).map .claimed ∧
        (row.isRead = true →
          reply.store.database.rows.find? row.id = some (row.claimed store.clock worker deadline))
    else reply = ⟨.error (.refused .datetimeOverflow), [], store⟩) ∧
    (1000 * store.clock + lease.heartbeat.nanos ≤ 1000 * deadline ↔ lease.Covers) ∧
    (1000 * lease.duration.wholeMillis < 2 ^ 53 →
      deadline = store.clock + 1000 * lease.duration.wholeMillis ∧
      1000 * store.clock + lease.heartbeat.nanos < 1000 * deadline + Duration.nanosPerMilli ∧
      (lease.duration.nanos % Duration.nanosPerMilli = 0 ∨
        lease.heartbeat.nanos % Duration.nanosPerMilli = 0 → lease.Covers) ∧
      ∀ script : HeartbeatScript, script.interval = lease.heartbeat →
        ∀ first, script.log.renewals.head? = some first →
          (store.clock + 1000 * (first : Micros) ≤ deadline ↔ lease.Covers)) := by
  intro store lease reply deadline
  have quiet : store.begin.Quiet := play_quiet start channel calls
  refine ⟨?_, ?_, fun hshort => ?_⟩
  · cases holdest : Table.oldest? (store.database.rows.filter
        (Row.isEligible store.clock types)) with
    | none =>
        obtain ⟨row, hrow, he⟩ := eligible
        have hnone := List.filter_eq_nil_iff.mp (Table.oldest?_eq_none_iff.mp holdest) row hrow
        exact absurd he hnone
    | some row =>
        have hrow := (List.mem_filter.mp (Table.oldest?_mem holdest)).1
        have hclaim : reply = _ := claim_oldest quiet holdest worker lease.duration
        rw [Database.leaseDeadline?_eq] at hclaim
        split
        · rename_i haccepts
          rw [if_pos haccepts] at hclaim
          refine ⟨row, hrow, by rw [hclaim], fun hread => ?_⟩
          rw [hclaim]
          dsimp only
          rw [if_pos hread]
          exact find?_leased quiet.sound hrow worker deadline
        · rename_i haccepts
          rw [if_neg haccepts] at hclaim
          exact hclaim
  · simp only [lease, deadline, LeaseSettings.Covers]
    grind
  · have hmicros : Database.leaseMicros lease.duration = 1000 * lease.duration.wholeMillis :=
      Database.leaseMicros_eq_whole hshort
    refine ⟨by simp only [deadline, hmicros]; push_cast; rfl, ?_, fun whole => ?_, ?_⟩
    · have hlt := settings.heartbeat_lt_succ valid
      simp only [deadline, hmicros, lease, Duration.nanosPerMilli] at hlt ⊢
      grind
    · have hle := settings.heartbeat_le_of_whole valid whole
      simp only [LeaseSettings.Covers, hmicros, lease, Duration.nanosPerMilli] at hle ⊢
      grind
    · intro script hinterval first hfirst
      rw [HeartbeatScript.first_renewal hfirst, hinterval]
      simp only [deadline, LeaseSettings.Covers, hmicros, lease, Duration.timerMillis,
        Duration.nanosPerMilli]
      grind

/-- The standard settings work for a task that has just been created. -/
theorem standard_workable :
    let store := (initial 0).play .standard [.perform (.create "job" none)]
    ∃ row ∈ store.database.rows,
      (store.claim ["job"] "worker" SchedulerSettings.standard.lease.duration).answer =
        (row.given "worker").map .claimed := by
  intro store
  have hclaim := (claim_workable (rfl : SchedulerSettings.standard.validate = .ok ()) 0 .standard
    [.perform (.create "job" none)]
    (by decide +kernel : ∃ row ∈ _, Row.isEligible _ ["job"] row = true) "worker").1
  rw [if_pos (by decide +kernel)] at hclaim
  obtain ⟨row, hrow, hanswer, -⟩ := hclaim
  exact ⟨row, hrow, hanswer⟩

/-- Of two valid settings one has a lease that the database refuses. The other one has a lease that
ends before the first heartbeat is due. -/
theorem valid_unworkable :
    let store := (initial 0).play .standard [.perform (.create "job" none)]
    let endless := SchedulerSettings.standard.apply (.lease (.ofSeconds 18446744073709551615))
    let hasty := SchedulerSettings.standard.applyAll [.lease ⟨1500000⟩, .heartbeat ⟨1200000⟩]
    (endless.validate = .ok () ∧
      (store.claim ["job"] "worker" endless.lease.duration).answer =
        .error (.refused .datetimeOverflow)) ∧
      hasty.validate = .ok () ∧
      (store.claim ["job"] "worker" hasty.lease.duration).store.database.rows.map
        Row.leaseExpires = [some 1000] ∧
      1000 * 1000 < hasty.lease.heartbeat.nanos := by
  intro store endless hasty
  exact ⟨⟨rfl, by decide +kernel⟩, rfl, by decide +kernel, by decide +kernel⟩

end Store
end LeaseQueue
