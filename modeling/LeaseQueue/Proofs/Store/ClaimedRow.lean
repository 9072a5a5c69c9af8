/-
What a claim makes of the table.

* `Table.First`: the row that a claim is to give, of all that can be claimed the first that was
  created;
* `Database.Sound.first_of_oldest?`: the row that it does give;
* `Store.claim_refused`, `Store.claim_empty`, `Store.claim_first`: a claim whose lease is too long
  for an interval, one that finds nothing, and one that finds a row;
* `Store.claim_exact`: what a claim answers and leaves, in every reachable store;
* `Store.empty_table_refused`: a claim of nothing that is refused.

The interval of the lease is looked at before the rows, and its end behind the choice of the row.
-/
import LeaseQueue.Proofs.Number.Exact
import LeaseQueue.Proofs.Store.Drain

namespace LeaseQueue

/-! ### The choice of the row -/

/-- The row can be claimed, and was created before all others that can: earlier, or at the same
time under a smaller number. -/
structure Table.First (table : Table) (now : Micros) (types : List String) (row : Row) :
    Prop where
  mem : row ∈ table
  claimable : row.Claimable now types
  before : ∀ other ∈ table, other.Claimable now types → other ≠ row →
    row.created < other.created ∨ row.created = other.created ∧ row.id < other.id

namespace Database

variable {database : Database} {now : Micros} {types : List String} {row : Row}

/-- The oldest of the rows that can be claimed is the first. -/
lemma Sound.first_of_oldest? (sound : database.Sound)
    (h : Table.oldest? (database.rows.filter (Row.isEligible now types)) = some row) :
    database.rows.First now types row := by
  obtain ⟨hrow, he⟩ := List.mem_filter.mp (Table.oldest?_mem h)
  refine ⟨hrow, Row.isEligible_iff.mp he, fun other hother hclaimable hne => ?_⟩
  have hmem : other ∈ database.rows.filter (Row.isEligible now types) :=
    List.mem_filter.mpr ⟨hother, Row.isEligible_iff.mpr hclaimable⟩
  have hdifferent : row.id ≠ other.id := fun hid => hne (sound.eq_of_id hother hrow hid.symm)
  exact Row.before_iff.mp (Row.before_total hdifferent (Table.not_before_oldest? h other hmem))

/-- There is no oldest row where none can be claimed. -/
lemma oldest?_eq_none (h : ∀ row ∈ database.rows, ¬ row.Claimable now types) :
    Table.oldest? (database.rows.filter (Row.isEligible now types)) = none := by
  refine Table.oldest?_eq_none_iff.mpr (List.filter_eq_nil_iff.mpr fun row hrow he => ?_)
  exact h row hrow (Row.isEligible_iff.mp he)

end Database

/-! ### The call -/

namespace Store

variable {store : Store} {types : List String}

/-- A lease without an interval is refused, whether or not there is a row to claim. -/
lemma claim_refused (quiet : store.begin.Quiet) (worker : WorkerId) {lease : Duration}
    (htypes : types ≠ []) (hlease : ¬ Database.IsInterval lease) :
    store.claim types worker lease = ⟨.error (.refused .datetimeOverflow), [], store⟩ := by
  rw [claim_quiet quiet, if_neg htypes, if_pos hlease]

/-- A claim that finds nothing answers so and changes nothing. -/
lemma claim_empty (quiet : store.begin.Quiet) (worker : WorkerId) {lease : Duration}
    (hlease : Database.IsInterval lease)
    (h : ∀ row ∈ store.database.rows, ¬ row.Claimable store.clock types) :
    store.claim types worker lease = ⟨.ok .empty, [], store⟩ := by
  rw [claim_quiet quiet, Database.oldest?_eq_none h, if_neg (not_not.mpr hlease)]
  exact ite_self _

/-- A claim that finds rows looks at the first of them. It gives this row if the lease has a
deadline and the state comes back. -/
lemma claim_first (quiet : store.begin.Quiet) (worker : WorkerId) (lease : Duration)
    (h : ∃ row ∈ store.database.rows, row.Claimable store.clock types) :
    ∃ row, store.database.rows.First store.clock types row ∧
      store.claim types worker lease =
        match Database.leaseDeadline? store.clock lease with
        | none => ⟨.error (.refused .datetimeOverflow), [], store⟩
        | some deadline =>
          ⟨(row.given worker).map .claimed, [],
            if row.isRead then store.leased row worker deadline else store⟩ := by
  obtain ⟨other, hother, hclaimable⟩ := h
  have hmem : other ∈ store.database.rows.filter (Row.isEligible store.clock types) :=
    List.mem_filter.mpr ⟨hother, Row.isEligible_iff.mpr hclaimable⟩
  cases ho : Table.oldest? (store.database.rows.filter (Row.isEligible store.clock types)) with
  | none =>
      rw [Table.oldest?_eq_none_iff.mp ho] at hmem
      cases hmem
  | some row => exact ⟨row, quiet.sound.first_of_oldest? ho, claim_oldest quiet ho worker lease⟩

/-- The row that a claim gives is changed, and no other. -/
lemma leased_eq (quiet : store.begin.Quiet) {row : Row} (hrow : row ∈ store.database.rows)
    (worker : WorkerId) (deadline : Micros) :
    store.leased row worker deadline =
      { store with
        database := { store.database with
          tasks := some (store.database.rows.map fun other =>
            if other = row then row.claimed store.clock worker deadline else other) } } := by
  have sound : store.database.Sound := quiet.sound
  rw [leased, sound.change_only quiet.tasks hrow rfl]

/-- The exact effect of a claim in every reachable store and at every time. A claim of no type finds
nothing, whatever the lease. Any other is refused if 64 bits cannot count the microseconds of the
lease, whether or not there is anything to claim; then nothing changes. Otherwise it finds nothing
if no row can be claimed. If one can, it looks at the first of them. If the lease ends behind the
end of time, then the claim is refused and nothing changes. Otherwise, as soon as the state comes
back from its column, the row runs under the worker until that deadline, and nothing else of it, of
the table or of the store changes. A state that is kept comes back as it was stored. The
microseconds are those of the whole milliseconds of the lease, as many as 64 bits can count, and
are rounded behind 285 years only. A claim never publishes. -/
theorem claim_exact (start now : Micros) (channel : Channel) (calls : List Call)
    (types : List String) (worker : WorkerId) (lease : Duration) :
    let store : Store := { (initial start).play channel calls with clock := now }
    let table := store.database.rows
    let reply := store.claim types worker lease
    let millis := min (lease.nanos / 1000000) Text.maxInt64.toNat
    let micros := Database.leaseMicros lease
    (types = [] → reply = ⟨.ok .empty, [], store⟩) ∧
      (types ≠ [] → Text.maxInt64 < micros →
        reply = ⟨.error (.refused .datetimeOverflow), [], store⟩) ∧
      (micros ≤ Text.maxInt64 → (∀ row ∈ table, ¬ row.Claimable now types) →
        reply = ⟨.ok .empty, [], store⟩) ∧
      (micros ≤ Text.maxInt64 → (∃ row ∈ table, row.Claimable now types) →
        ∃ row, table.First now types row ∧
          (Database.endOfTime ≤ now + micros →
            reply = ⟨.error (.refused .datetimeOverflow), [], store⟩) ∧
          (now + micros < Database.endOfTime → ∀ state, row.readState = .ok state →
            reply =
              { answer := .ok (.claimed { id := row.id, taskType := row.taskType, state, worker })
                published := []
                store := { store with
                  database := { store.database with
                    tasks := some (table.map fun other =>
                      if other = row then { row with
                        status := .known .running
                        worker := some worker
                        leaseExpires := some (now + micros)
                        updated := now }
                      else other) } } }) ∧
          (row.state.Kept Json.depthLimit → row.readState = .ok row.state)) ∧
      (1000 * millis < 2 ^ 53 → micros = 1000 * millis) := by
  intro store table reply millis micros
  have played := play_quiet start channel calls
  have quiet : store.begin.Quiet := ⟨played.fault, played.tasks, played.sound⟩
  refine ⟨?_, fun htypes hlong => claim_refused quiet worker htypes hlong.not_ge,
    fun hlease hnone => claim_empty quiet worker hlease hnone, fun hlease hsome => ?_,
    Database.leaseMicros_eq⟩
  · rintro rfl
    rfl
  · obtain ⟨row, hfirst, hreply⟩ := claim_first quiet worker lease hsome
    refine ⟨row, hfirst, fun hlate => ?_, fun hend state hstate => ?_, Row.readState_of_kept⟩
    · have hnone : Database.leaseDeadline? store.clock lease = none :=
        Database.leaseDeadline?_eq_none hlate
      rw [hnone] at hreply
      exact hreply
    · have hdeadline : Database.leaseDeadline? store.clock lease = some (now + micros) :=
        Database.leaseDeadline?_eq_some_iff.mpr ⟨hlease, rfl, hend⟩
      have hread : row.isRead = true := row.isRead_iff.mpr ⟨state, hstate⟩
      rw [hdeadline, Row.given, hstate, hread] at hreply
      refine hreply.trans ?_
      dsimp only
      rw [if_pos rfl, leased_eq quiet hfirst.mem]
      rfl

/-- Nothing can be claimed, and a claim is refused all the same. -/
theorem empty_table_refused :
    let store := (initial 0).play .standard []
    let lease := Duration.ofMillis 9223372036854776
    (∀ row ∈ store.database.rows, ¬ row.Claimable 0 ["job"]) ∧
      (store.claim ["job"] "w" lease).answer = .error (.refused .datetimeOverflow) := by
  intro store lease
  have hempty : store.database.rows = [] := rfl
  exact ⟨by simp [hempty], by decide +kernel⟩

end Store
end LeaseQueue
