/-
Operations in one transaction do what they do in transactions of their own.

* `Store.performEach`: operations one behind the other, each in a transaction of its own;
* `Store.begun`: a transaction that sees a store, and has asked for a notification or not;
* `Store.run_begun`: an operation leads from the transaction that sees a store to the one that sees
  the store behind it;
* `Store.through_begun`: so do all operations;
* `Store.batch_transparent`: all of them in one explicit transaction that is committed.

A refused statement ends a transaction for good, so the operations must not be refused. All other
errors leave the transaction as it is, and it goes on.
-/
import LeaseQueue.Proofs.Store.Publication

namespace LeaseQueue

namespace Store

variable {ε α : Type} {store : Store} {channel : Channel}

/-! ### Operations one behind the other -/

/-- What operations leave, each in a transaction of its own, and the store behind the last. -/
def performEach (store : Store) (channel : Channel) :
    List Operation → List (Reply TaskError Answer) × Store
  | [] => ([], store)
  | operation :: rest =>
    let reply := store.perform channel operation
    let (replies, last) := reply.store.performEach channel rest
    (reply :: replies, last)

/-- Behind them no failure is to come either, and no time has passed. -/
lemma performEach_quiet (channel : Channel) (operations : List Operation) :
    ∀ store : Store, store.begin.Quiet →
      (store.performEach channel operations).2.begin.Quiet ∧
        (store.performEach channel operations).2.clock = store.clock := by
  induction operations with
  | nil => exact fun store quiet => ⟨quiet, rfl⟩
  | cons operation rest ih =>
      intro store quiet
      have hclock : (store.perform channel operation).store.clock = store.clock := by
        rw [perform_quiet quiet]
      obtain ⟨hquiet, hrest⟩ := ih (store.perform channel operation).store
        ((Call.perform operation).quiet_next quiet)
      exact ⟨hquiet, hrest.trans hclock⟩

/-- Something was published. -/
def Reply.tells (reply : Reply ε α) : Bool := !reply.published.isEmpty

/-- The transaction that sees a store, and has asked for a notification or not. -/
def begun (store : Store) (channel : Channel) (told : Bool) : Transaction :=
  { store.begin with published := if told then [channel] else [] }

/-- An operation that is not refused leads from the transaction that sees a store to the one that
sees the store behind it. -/
lemma run_begun (quiet : store.begin.Quiet) (channel : Channel) (told : Bool)
    {operation : Operation} (taken : ¬ store.database.Refuses operation) :
    let reply := store.perform channel operation
    (operation.action channel).run (store.begun channel told) =
      (reply.answer, reply.store.begun channel (told || reply.tells)) := by
  intro reply
  have hquiet : (store.begun channel told).Quiet := ⟨quiet.fault, quiet.tasks, quiet.sound⟩
  have hreply : reply = _ := perform_quiet quiet channel operation
  have htells : reply.tells = decide (store.database.Announces store.clock operation) := by
    rw [hreply]
    by_cases hannounces : store.database.Announces store.clock operation <;>
      simp [Reply.tells, hannounces]
  have hpublished : ((store.begun channel told).performed channel operation).published =
      if (told || reply.tells) = true then [channel] else [] := by
    rw [htells]
    change (if store.database.Announces store.clock operation then
      ((store.begun channel told).publish channel).published else _) = _
    rw [Transaction.publish_published]
    by_cases hannounces : store.database.Announces store.clock operation <;>
      cases told <;> simp [begun, hannounces]
  have hbegun : reply.store.begun channel (told || reply.tells) =
      { reply.store.begin with
        published := ((store.begun channel told).performed channel operation).published } := by
    rw [hpublished, begun]
  rw [Operation.run_answered hquiet rfl taken, hbegun, hreply]
  rfl

/-- Operations in the transaction that sees a store, as long as each of them on its own meets no
error of the database. -/
lemma through_begun (channel : Channel) (operations : List Operation) :
    ∀ (store first : Store) (told : Bool), store.begin.Quiet →
      let alone := store.performEach channel operations
      (∀ reply ∈ alone.1, ∀ e, reply.answer ≠ .error (.database e)) →
        (Session.mk first channel (some (store.begun channel told))).through
            (operations.map .perform) =
          (alone.1.map Reply.answer,
            ⟨first, channel, some (alone.2.begun channel (told || alone.1.any Reply.tells))⟩) := by
  induction operations with
  | nil =>
      intro store first told _ alone _
      simp [alone, performEach, Session.through]
  | cons operation rest ih =>
      intro store first told quiet alone sane
      simp only [alone, performEach, List.forall_mem_cons] at sane
      -- what is refused alone meets an error of the database
      have taken : ¬ store.database.Refuses operation := by
        intro refused
        refine sane.1 (.refused .foreignKeyViolation) ?_
        rw [perform_refused quiet channel refused]
        rfl
      have hrun := run_begun quiet channel told taken
      have hrest := ih (store.perform channel operation).store first
        (told || (store.perform channel operation).tells)
        ((Call.perform operation).quiet_next quiet) sane.2
      simp only [alone, List.map_cons, Session.through, Session.perform, hrun, performEach,
        List.any_cons, ← Bool.or_assoc]
      rw [hrest]

/-! ### All in one transaction -/

/-- Operations in an explicit transaction that is committed answer what they answer in transactions
of their own at the same time, and leave the same store, as long as none of them alone meets an
error of the database. One notification is published, if any of them publishes alone, and
otherwise none. -/
theorem batch_transparent (reached : store.Reached channel) (now : Micros)
    (operations : List Operation) :
    let store := { store with clock := now, fault := none }
    let alone := store.performEach channel operations
    let batch := (Session.mk store channel none).begin.through (operations.map .perform)
    (∀ reply ∈ alone.1, ∀ e, reply.answer ≠ .error (.database e)) →
      batch.1 = alone.1.map Reply.answer ∧
        batch.2.commit =
          ⟨.ok (), if ∃ reply ∈ alone.1, reply.published ≠ [] then [channel] else [],
            ⟨alone.2, channel, none⟩⟩ := by
  intro store alone batch sane
  have quiet : store.begin.Quiet := ⟨rfl, reached.tasks, reached.sound⟩
  have hbatch : batch = _ := through_begun channel operations store store false quiet sane
  obtain ⟨hquiet, hclock⟩ := performEach_quiet channel operations store quiet
  rw [hbatch]
  refine ⟨rfl, ?_⟩
  have hcommit : store.commit (alone.2.begun channel (false || alone.1.any Reply.tells)) = _ :=
    store.commit_of_lands ⟨rfl, hquiet.faultAt _⟩
  have htells : (∃ reply ∈ alone.1, reply.published ≠ []) ↔ alone.1.any Reply.tells = true := by
    simp [Reply.tells]
  have hlast : { store with database := alone.2.database, fault := alone.2.fault } = alone.2 := by
    rw [← hclock]
  simp only [Session.commit, Session.call]
  rw [hcommit, if_congr htells rfl rfl]
  exact congrArg (fun store => Session.Reply.mk _ _ (Session.mk store channel none)) hlast

/-- A parent that waits for its child, and a task that runs. One list with steps that build on each
other, and that answer that nothing was done or an error of tasks. -/
theorem errands_batched :
    let store : Store := { watched with clock := 7, fault := none }
    let errands : List Operation :=
      [.create "batch" none, .createChild 4 "part" none, .resume 2, .resume 1,
        .resumeWith 1 .null, .cancel 9, .finish 3 "first" .completed,
        .finish 3 "second" ⟨none, .running, none⟩, .finish 3 "second" (.waiting none), .resume 3,
        .cancel 5, .cancel 5, .notify]
    let alone := store.performEach .standard errands
    let batch := (Session.mk store .standard none).begin.through (errands.map .perform)
    (∀ reply ∈ alone.1, ∀ e, reply.answer ≠ .error (.database e)) ∧
      alone.1.map Reply.answer =
        [.ok (.created 4), .ok (.created 5), .ok (.resumed false), .ok (.resumed true),
          .ok (.resumed false), .error (.notFound 9), .error (.leaseLost 3 "first"),
          .error (.invalidOutcome .running), .ok (.finished ⟨3, .waiting, none⟩),
          .ok (.resumed true), .ok (.cancelled 1), .ok (.cancelled 0), .ok .notified] ∧
      batch.1 = alone.1.map Reply.answer ∧
      batch.2.commit = ⟨.ok (), [.standard], ⟨alone.2, .standard, none⟩⟩ := by
  intro store errands alone batch
  have reached : watched.Reached .standard := .play (.initial 0) _
  have hanswers : alone.1.map Reply.answer =
      [.ok (.created 4), .ok (.created 5), .ok (.resumed false), .ok (.resumed true),
        .ok (.resumed false), .error (.notFound 9), .error (.leaseLost 3 "first"),
        .error (.invalidOutcome .running), .ok (.finished ⟨3, .waiting, none⟩),
        .ok (.resumed true), .ok (.cancelled 1), .ok (.cancelled 0), .ok .notified] := by
    decide +kernel
  have sane : ∀ reply ∈ alone.1, ∀ e, reply.answer ≠ .error (.database e) := by
    intro reply hreply e herror
    have hmem := List.mem_map_of_mem (f := Reply.answer) hreply
    rw [hanswers, herror] at hmem
    simp at hmem
  obtain ⟨hbatch, hcommit⟩ := batch_transparent reached 7 errands sane
  refine ⟨sane, hanswers, hbatch, hcommit.trans ?_⟩
  exact congrArg (Session.Reply.mk _ · _) (if_pos (by decide +kernel))

end Store
end LeaseQueue
