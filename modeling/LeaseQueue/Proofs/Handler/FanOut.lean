/-
A fan-out creates its children once, and completes with what has become of them.

* `FanOutState.Tells`: a state that comes back as one that tells the states of children to be;
* `Table.Fanned`: what a fan-out and its children are at any point of a run;
* `Table.Grown`: the children stay, or they are created by a first run;
* `Table.Fanned.untouched`, `Fanned.settled`: acts that do not touch the task keep this, and so
  does the end of a run of the fan-out;
* `Call.LeavesToFanOut`: a call leaves the task to runs of the fan-out;
* `Store.FanOutAt.next`: every such call keeps a fan-out what it is;
* `Store.fanOut_once`: the life of a fan-out;
* `Store.twins_created_once`, `Store.embedded_summarized`: one with two children, and one whose
  child ends with a state that embeds a value.
-/
import LeaseQueue.Proofs.Handler.Spawn
import LeaseQueue.Proofs.Store.Handed
import LeaseQueue.Proofs.Store.Waiting

namespace LeaseQueue

/-! ### The invariant -/

/-- A state that comes back as one that tells the states of children to be. -/
def FanOutState.Tells (first : Json) (states : List Json) : Prop :=
  ∃ given, Json.readColumn? Json.depthLimit first = some given ∧ ofJson given = .ok ⟨states, false⟩

namespace Table

/-- The value is the summary of some rows, with the states that come back from their columns. -/
def SummedUp (children : List Row) (value : Json) : Prop :=
  ∃ states, ShownAs children states ∧ value = summary children states

/-- What a fan-out and its children are. The task is none of its children, and these are all of
one time of creation. While the task is not at its end its state tells whether there are children;
when it is completed they are all at an end, and its state is the summary of them. -/
structure Fanned (first : Json) (states : List Json) (task : TaskId) (table : Table) : Prop where
  present : ∃ row ∈ table, row.id = task
  apart : ¬ table.IsOwnParent task
  born : ∃ now, ∀ child ∈ table.offspring task, child.created = now
  state : ∀ row ∈ table, row.id = task → row.isLive = true →
    row.state = if table.offspring task = [] then first else FanOutState.toJson ⟨states, true⟩
  done : ∀ row ∈ table, row.id = task → row.status = .known .completed →
    (∀ child ∈ table.offspring task, child.isLive = false) ∧
      SummedUp (table.offspring task) row.state

/-- The children of a task stay, or they are created for some states. -/
def Grown (states : List Json) (task : TaskId) (a b : Table) : Prop :=
  Become (a.offspring task) (b.offspring task) ∨
    a.offspring task = [] ∧ (b.offspring task).map Row.state = states ∧
      ∀ child ∈ b.offspring task, child.taskType = Builtin.echoType

end Table

/-! ### The end of a run -/

/-- The row of a task that ends its run holds the outcome behind the end as well. -/
lemma Database.finished_mem_settled {database : Database} {row : Row} {worker : WorkerId}
    (hrow : row ∈ database.rows) (held : row.isHeldBy worker = true) (now : Micros)
    (outcome : Outcome) :
    row.finished now outcome ∈ (database.settled now row.id worker outcome).rows := by
  have hfinished := finished_mem hrow held now outcome
  rw [settled]
  split
  · rename_i hterm
    rw [parentResumed_eq_change]
    refine mem_change.mpr (.inl ⟨hfinished, ?_⟩)
    simp [Row.not_waiting_of_ended (row.finished_ended now hterm)]
  · exact hfinished

/-- The end of a run keeps the children of the task, and their states. -/
lemma Database.offspring_settled {database : Database} (hs : database.Sound) {task : TaskId}
    (apart : ¬ database.rows.IsOwnParent task) {worker : WorkerId}
    (held : database.Holds task worker) (now : Micros) {outcome : Outcome}
    (proper : outcome.status ≠ .running) :
    List.Forall₂ (fun row next => row.Becomes next ∧ next.state = row.state)
      (database.rows.offspring task)
      ((database.settled now task worker outcome).rows.offspring task) := by
  have hmoved := moved_settled hs held now proper
  have hother : ∀ child ∈ database.rows.offspring task,
      ¬ (Act.operation (.finish task worker outcome)).Touches child.id := by
    intro child hchild htouches
    obtain ⟨hrow, hparent⟩ := Table.mem_offspring.mp hchild
    have hid : task = child.id := htouches
    exact apart ⟨child, hrow, hid.symm, hparent⟩
  have hkept := (List.forall₂_and_left ..).mpr ⟨hother, hmoved.offspring fun _ _ => by simp⟩
  exact hkept.imp fun _ _ h => ⟨h.2.1, h.2.2 h.1⟩

/-- What has become of new children is of their time and type, and has their states. -/
lemma Table.brood_kept {now : Micros} {parent first : TaskId} {states : List Json}
    {next : List Row}
    (h : List.Forall₂ (fun row next => row.Becomes next ∧ next.state = row.state)
      (brood now parent first states) next) :
    (∀ child ∈ next, child.created = now ∧ child.taskType = Builtin.echoType) ∧
      next.map Row.state = states := by
  have become : Become (brood now parent first states) next := h.imp fun _ _ h => h.1
  constructor
  · intro child hchild
    obtain ⟨old, hold, hbecomes⟩ := become.origin child hchild
    obtain ⟨-, state, hfresh⟩ := mem_brood hold
    rw [hbecomes.same.2.1, hbecomes.same.2.2.2, hfresh]
    exact ⟨rfl, rfl⟩
  · have heq : List.Forall₂ (fun a b => a = b)
        ((brood now parent first states).map Row.state) (next.map Row.state) := by
      rw [List.forall₂_map_left_iff, List.forall₂_map_right_iff]
      exact h.imp fun _ _ h => h.2.symm
    rw [List.forall₂_eq_eq_eq] at heq
    rw [← heq, states_brood]

namespace Table.Fanned

variable {first : Json} {states : List Json} {task : TaskId}

/-- The fan-out in a table that has one row for its task. -/
lemma ofRow {rows : Table} {row : Row} (hrow : row ∈ rows) (hid : row.id = task)
    (only : ∀ other ∈ rows, other.id = task → other = row) (apart : row.parent ≠ some task)
    (born : ∃ now, ∀ child ∈ rows.offspring task, child.created = now)
    (state : row.isLive = true →
      row.state = if rows.offspring task = [] then first else FanOutState.toJson ⟨states, true⟩)
    (done : row.status = .known .completed →
      (∀ child ∈ rows.offspring task, child.isLive = false) ∧
        SummedUp (rows.offspring task) row.state) :
    Fanned first states task rows where
  present := ⟨row, hrow, hid⟩
  apart := by
    rintro ⟨other, hother, hother_id, hparent⟩
    exact apart (only other hother hother_id ▸ hparent)
  born := born
  state other hother hother_id := only other hother hother_id ▸ state
  done other hother hother_id := only other hother hother_id ▸ done

/-- Acts that do not touch the task. -/
lemma untouched {a : Table} {after : Database} {acts : List Act} (h : Fanned first states task a)
    (hs : after.Sound) (moves : Moves a acts after.rows)
    (spares : ∀ act ∈ acts, ¬ act.Touches task) : Fanned first states task after.rows := by
  have become := moves.offspring spares
  obtain ⟨row, hrow, rfl⟩ := h.present
  obtain ⟨next, hnext, hbecomes, hstate⟩ := moves.kept spares row hrow rfl
  have only : ∀ other ∈ after.rows, other.id = row.id → other = next := fun other hother hid =>
    hs.eq_of_id hother hnext (hid.trans hbecomes.same.1.symm)
  have hparent : next.parent ≠ some row.id := fun hown =>
    h.apart ⟨row, hrow, rfl, hbecomes.same.2.2.1.symm.trans hown⟩
  obtain ⟨now, hborn⟩ := h.born
  refine ofRow hnext hbecomes.same.1 only hparent ⟨now, become.created hborn⟩ (fun hlive => ?_)
    fun hdone => ?_
  · have hrowLive : row.isLive = true := by
      by_contra hended
      have hsame := hbecomes.ended (by simpa using hended)
      rw [hsame] at hlive
      exact hended hlive
    rw [hstate, h.state row hrow rfl hrowLive]
    exact if_congr become.eq_nil_iff.symm rfl rfl
  · obtain ⟨hended, hsummary⟩ :=
      h.done next (moves.completed spares next hnext hbecomes.same.1 hdone) hbecomes.same.1 hdone
    rw [become.eq_of_ended hended]
    exact ⟨hended, hsummary⟩

/-- Whether the state of the task says that its children are created. -/
lemma decodes {rows : Table} (h : Fanned first states task rows)
    (hfirst : FanOutState.Tells first states) {row : Row} (hrow : row ∈ rows)
    (hid : row.id = task) (hlive : row.isLive = true) {given : Json} {state : FanOutState}
    (hgiven : row.readState = .ok given) (hstate : FanOutState.ofJson given = .ok state) :
    if state.spawned = true then rows.offspring task ≠ [] ∧
        row.state = FanOutState.toJson ⟨states, true⟩
      else rows.offspring task = [] ∧ state.children = states := by
  have hrowState := h.state row hrow hid hlive
  by_cases hnone : rows.offspring task = []
  · rw [if_pos hnone] at hrowState
    obtain ⟨told, htold, hdecodes⟩ := hfirst
    obtain rfl : told = given := by
      rw [← hrowState, Row.readState_eq_ok_iff.mp hgiven] at htold
      exact (Option.some.inj htold).symm
    rw [hdecodes] at hstate
    cases hstate
    exact ⟨hnone, rfl⟩
  · rw [if_neg hnone] at hrowState
    have hread := Row.readState_eq_ok_iff.mp hgiven
    rw [hrowState] at hread
    rw [if_pos (FanOutState.spawned_of_toJson hread hstate)]
    exact ⟨hnone, hrowState⟩

/-- The end of a run of the fan-out, by the worker that holds the task and was given what its state
is read as. -/
lemma settled {a : Table} {view : Database} (h : Fanned first states task a)
    (hfirst : FanOutState.Tells first states)
    (ordered : a.Pairwise fun a b => a.id < b.id) {row : Row} (hrow : row ∈ a)
    {claimed : ClaimedTask} (hid : row.id = task) (hclaimed : claimed.id = task)
    (held : row.isHeldBy claimed.worker = true) (hgiven : row.readState = .ok claimed.state)
    {now number : Int} {outcome : Outcome} {added : List Row}
    (fans : Builtin.Fans now number a claimed outcome added) (hview : view.rows = a ++ added)
    (hs : view.Sound) {after : Database}
    (hafter : after = view.settled now task claimed.worker outcome)
    (hsound : after.Sound) :
    (Fanned first states task after.rows ∧ Grown states task a after.rows) ∧
      ∀ other ∈ after.rows, other.id = task → other.status ≠ .known .running := by
  subst hclaimed
  have hlive : row.isLive = true := Row.isLive_of_held held
  have hmem : row ∈ view.rows := hview ▸ List.mem_append_left _ hrow
  have hfinished : row.finished now outcome ∈ after.rows := by
    rw [hafter, ← hid]
    exact Database.finished_mem_settled hmem held now outcome
  have only : ∀ other ∈ after.rows, other.id = claimed.id →
      other = row.finished now outcome := fun other hother hother_id =>
    hsound.eq_of_id hother hfinished (hother_id.trans hid.symm)
  have proper : outcome.status ≠ .running := by
    cases fans <;> exact Status.noConfusion
  have hparent : row.parent ≠ some claimed.id := fun hown => h.apart ⟨row, hrow, hid, hown⟩
  have hapart : ¬ view.rows.IsOwnParent claimed.id := by
    rintro ⟨other, hother, hother_id, hown⟩
    exact hparent (hs.eq_of_id hother hmem (hother_id.trans hid.symm) ▸ hown)
  have hkept := Database.offspring_settled hs hapart ⟨row, hmem, hid, held⟩ now proper
  rw [← hafter, hview, offspring_append] at hkept
  have become : Become (a.offspring claimed.id ++ Table.offspring added claimed.id)
      (after.rows.offspring claimed.id) := hkept.imp fun _ _ h => h.1
  have hstops : ∀ other ∈ after.rows, other.id = claimed.id → other.status ≠ .known .running := by
    intro other hother hother_id hrunning
    rw [only other hother hother_id] at hrunning
    exact proper (StatusColumn.known.inj hrunning)
  refine ⟨?_, hstops⟩
  obtain ⟨time, hborn⟩ := h.born
  cases fans with
  | undecoded | unreadable =>
      rw [Table.offspring_nil, List.append_nil] at become
      exact ⟨ofRow hfinished hid only hparent ⟨time, become.created hborn⟩
        (fun hlive => by cases hlive) (fun hdone => by cases hdone), .inl become⟩
  | childless hstate =>
      obtain ⟨hnone, hchildren⟩ := h.decodes hfirst hrow hid hlive hgiven hstate
      rw [Table.offspring_nil, List.append_nil, hnone] at become
      have hempty := become.eq_nil_iff.mpr rfl
      refine ⟨ofRow hfinished hid only hparent ⟨time, by simp [hempty]⟩
        (fun hlive => by cases hlive) fun _ => ?_, .inl ?_⟩
      · rw [hempty]
        exact ⟨fun _ h => absurd h List.not_mem_nil, [], .nil, rfl⟩
      · rw [hnone]
        exact become
  | unfinished hstate =>
      obtain ⟨hsome, hrowState⟩ := h.decodes hfirst hrow hid hlive hgiven hstate
      rw [Table.offspring_nil, List.append_nil] at become
      refine ⟨ofRow hfinished hid only hparent ⟨time, become.created hborn⟩ (fun _ => ?_)
        (fun hdone => by cases hdone), .inl become⟩
      rw [if_neg (mt become.eq_nil_iff.mp hsome)]
      exact hrowState
  | @finished _ _ hended shown hshown =>
      rw [Table.offspring_nil, List.append_nil] at become
      have hsame := children_eq_offspring ordered hborn
      rw [hsame] at hended hshown
      refine ⟨ofRow hfinished hid only hparent ⟨time, become.created hborn⟩
        (fun hlive => by cases hlive) fun _ => ?_, .inl become⟩
      rw [become.eq_of_ended hended]
      exact ⟨hended, shown, hshown, congrArg (summary · shown) hsame⟩
  | @spawned children hstate hne =>
      obtain ⟨hnone, rfl⟩ := h.decodes hfirst hrow hid hlive hgiven hstate
      rw [hnone, List.nil_append, offspring_brood] at hkept
      obtain ⟨hnew, hstates⟩ := brood_kept hkept
      have hsome : after.rows.offspring claimed.id ≠ [] := by
        intro hempty
        rw [hempty] at hstates
        exact hne hstates.symm
      refine ⟨ofRow hfinished hid only hparent ⟨now, fun child hchild => (hnew child hchild).1⟩
        (fun _ => ?_) (fun hdone => by cases hdone),
        .inr ⟨hnone, hstates, fun child hchild => (hnew child hchild).2⟩⟩
      rw [if_neg hsome]
      rfl

end Table.Fanned

/-! ### Calls -/

/-- A call leaves a task to the fan-out: it does not touch the task, or it is a run of the
fan-out for what its worker was given last. A worker runs one task at a time, so that it has
nothing at hand that it was given before. -/
def Call.LeavesToFanOut (channel : Channel) (store : Store) (task : TaskId)
    (given? : WorkerId → Option ClaimedTask) (call : Call) : Prop :=
  (∀ act ∈ call.acts channel store, ¬ act.Touches task) ∨
    ∃ claimed earlierRuns beats, call = .run Builtin.fanOut claimed earlierRuns beats ∧
      claimed.id = task ∧ given? claimed.worker = some claimed

namespace Store

variable {clock : Micros} {channel : Channel} {task : TaskId} {first : Json} {states : List Json}
  {calls : List Call} {call : Call}

/-- A fan-out at a point of a run. -/
structure FanOutAt (clock : Micros) (channel : Channel) (task : TaskId) (first : Json)
    (states : List Json) (calls : List Call) : Prop where
  fanned : ((initial clock).play channel calls).database.rows.Fanned first states task
  handed : Handed clock channel task calls

/-- Behind one more call it is still one, and its children stay or are created. -/
def FanOutNext (clock : Micros) (channel : Channel) (task : TaskId) (first : Json)
    (states : List Json) (calls : List Call) (call : Call) : Prop :=
  FanOutAt clock channel task first states (calls ++ [call]) ∧
    Table.Grown states task ((initial clock).play channel calls).database.rows
      ((initial clock).play channel (calls ++ [call])).database.rows

namespace FanOutAt

/-- A call that acts on the table without touching the task. -/
lemma untouched (h : FanOutAt clock channel task first states calls) {acts : List Act}
    (moves : Table.Moves ((initial clock).play channel calls).database.rows acts
      ((initial clock).play channel (calls ++ [call])).database.rows)
    (spares : ∀ act ∈ acts, ¬ act.Touches task)
    (unclaimed : (∀ types worker lease, call ≠ .claim types worker lease) →
      ∀ act ∈ acts, ¬ act.IsClaim) :
    FanOutNext clock channel task first states calls call := by
  refine ⟨⟨h.fanned.untouched (play_sound clock channel _) moves spares, ?_⟩,
    .inl (moves.offspring spares)⟩
  by_cases hclaim : ∃ types worker lease, call = .claim types worker lease
  · obtain ⟨types, worker, lease, rfl⟩ := hclaim
    exact h.handed.claim types worker lease
  · have hcall : ∀ types worker lease, call ≠ .claim types worker lease :=
      fun types worker lease heq => hclaim ⟨types, worker, lease, heq⟩
    exact h.handed.untouched hcall moves spares (unclaimed hcall)

/-- A run of the fan-out that commits, by the worker that holds the task. -/
lemma run (h : FanOutAt clock channel task first states calls)
    (hfirst : FanOutState.Tells first states) {claimed : ClaimedTask}
    (earlierRuns : Nat) (beats : Nat → List Beat) (hid : claimed.id = task)
    (hgiven : (initial clock).lastGiven? channel task claimed.worker calls = some claimed)
    {outcome : Outcome}
    (commits : (((initial clock).play channel calls).executed channel Builtin.fanOut claimed
      earlierRuns beats).Commits claimed outcome)
    (spared : (((initial clock).play channel calls).executed channel Builtin.fanOut claimed
      earlierRuns beats).Spared claimed outcome) :
    FanOutNext clock channel task first states calls
      (.run Builtin.fanOut claimed earlierRuns beats) := by
  subst hid
  have quiet := play_quiet clock channel calls
  have sound := play_sound clock channel calls
  have hsound := play_sound clock channel (calls ++ [.run Builtin.fanOut claimed earlierRuns beats])
  have hview := ((OpenRun.Follows.start ((initial clock).play channel calls)).execute sound channel
    claimed beats (Builtin.fanOut ⟨claimed, channel, earlierRuns⟩)).inside.sound sound
  -- what the run makes of its transaction
  obtain ⟨ended, added, hended, hrows, fans⟩ := executed_fanOut quiet channel
    (Table.has_iff.mpr h.fanned.present) earlierRuns beats
  have houtcome : ended = outcome := Ending.finished.inj (hended.symm.trans commits.ended)
  subst houtcome
  -- the worker holds the task, and was given its state
  obtain ⟨row, hrow, hrid, hheld⟩ := commits.applies.held
  have hold : row ∈ ((initial clock).play channel calls).database.rows := by
    rcases List.mem_append.mp (hrows ▸ hrow) with hold | hnew
    · exact hold
    · have hpending := fans.pending row hnew
      rw [(Row.isHeldBy_iff.mp hheld).2] at hpending
      cases hpending
  obtain ⟨given, hlast, hstate⟩ := h.handed row hold hrid claimed.worker hheld
  obtain rfl : claimed = given := Option.some.inj (hgiven.symm.trans hlast)
  -- what it leaves
  have hafter : ((initial clock).play channel
      (calls ++ [.run Builtin.fanOut claimed earlierRuns beats])).database =
      (((initial clock).play channel calls).executed channel Builtin.fanOut claimed earlierRuns
        beats).run.tx.database.settled ((initial clock).play channel calls).clock claimed.id
          claimed.worker ended := by
    rw [play_concat]
    have hreply := runBeating_of_commits _ channel Builtin.fanOut claimed earlierRuns beats commits
      spared
    simp only [Call.next, hreply]
  obtain ⟨⟨hfanned, hgrown⟩, hstops⟩ := h.fanned.settled hfirst sound.ordered hold hrid rfl hheld
    hstate fans hrows hview hafter hsound
  refine ⟨⟨hfanned, fun other hother hother_id worker hother_held => ?_⟩, hgrown⟩
  exact absurd (Row.isHeldBy_iff.mp hother_held).2 (hstops other hother hother_id)

/-- A call that leaves the task to the fan-out. -/
theorem next (h : FanOutAt clock channel task first states calls)
    (hfirst : FanOutState.Tells first states)
    (left : call.LeavesToFanOut channel ((initial clock).play channel calls) task fun worker =>
      (initial clock).lastGiven? channel task worker calls) :
    FanOutNext clock channel task first states calls call := by
  rcases left with spares | ⟨claimed, earlierRuns, beats, rfl, hid, hgiven⟩
  · refine h.untouched ?_ spares fun hcall => Call.acts_unclaimed channel _ hcall
    rw [play_concat]
    exact call.moves_next (play_quiet clock channel calls) (play_known clock channel calls)
  · rcases ((initial clock).play channel calls).runBeating_cases channel Builtin.fanOut claimed
      earlierRuns beats with ⟨outcome, commits, spared⟩ | ⟨-, -, nextId, fault, -, -, hstore⟩
    · exact h.run hfirst earlierRuns beats hid hgiven commits spared
    · -- a run that is undone leaves the renewals beside it
      have hrenewed : ∀ act ∈ (((initial clock).play channel calls).renewals channel Builtin.fanOut
            claimed earlierRuns beats).map fun _ => Act.renew claimed.id claimed.worker,
          ¬ act.Touches task ∧ ¬ act.IsClaim := by
        intro act hact
        obtain ⟨renewal, -, rfl⟩ := List.mem_map.mp hact
        exact ⟨id, id⟩
      refine h.untouched ?_ (fun act hact => (hrenewed act hact).1)
        fun _ act hact => (hrenewed act hact).2
      rw [play_concat]
      simp only [Call.next, hstore]
      exact moves_renewAll _ _ _ _

/-- A task that runs behind a call was there before it. -/
lemma running_before {store : Store} {after : Table}
    (moves : Table.Moves store.database.rows (call.acts channel store) after)
    (spares : ∀ act ∈ call.acts channel store, ¬ act.Touches task) {row : Row} (hrow : row ∈ after)
    (hid : row.id = task) (hrunning : row.status = .known .running) :
    ∃ old ∈ store.database.rows, old.id = task := by
  by_cases hclaim : ∃ types worker lease, call = .claim types worker lease
  · obtain ⟨types, worker, lease, rfl⟩ := hclaim
    cases moves with
    | cons hmoved hrest =>
        cases hrest
        rcases hmoved.origin row hrow with ⟨old, hold, hlawful⟩ | hcreated
        · exact ⟨old, hold, hlawful.same.1.symm.trans hid⟩
        · cases hcreated
  · have unclaimed := Call.acts_unclaimed channel store
      fun types worker lease heq => hclaim ⟨types, worker, lease, heq⟩
    obtain ⟨old, hold, -, hbecomes⟩ := moves.running spares unclaimed row hrow hid hrunning
    exact ⟨old, hold, hbecomes.same.1.symm.trans hid⟩

/-- The creation of the task. -/
lemma created {row : Row}
    (absent : ((initial clock).play channel calls).database.rows.find? task = none)
    (present : ((initial clock).play channel (calls ++ [call])).database.rows.find? task = some row)
    (left : call.LeavesToFanOut channel ((initial clock).play channel calls) task fun worker =>
      (initial clock).lastGiven? channel task worker calls) :
    FanOutAt clock channel task row.state states (calls ++ [call]) ∧
      ((initial clock).play channel (calls ++ [call])).database.rows.offspring task = [] := by
  have sound := play_sound clock channel calls
  have hsound := play_sound clock channel (calls ++ [call])
  have habsent : ∀ old ∈ ((initial clock).play channel calls).database.rows, old.id ≠ task := by
    intro old hold hid
    have hnone := List.find?_eq_none.mp absent old hold
    simp [hid] at hnone
  obtain ⟨hrow, hid⟩ := Table.find?_eq_some_mem present
  have moves : Table.Moves _ (call.acts channel _) _ :=
    call.moves_next (play_quiet clock channel calls) (play_known clock channel calls)
  rw [← play_concat] at moves
  rcases left with spares | ⟨claimed, earlierRuns, beats, -, -, hgiven⟩
  · have hnone : ((initial clock).play channel calls).database.rows.offspring task = [] := by
      refine List.filter_eq_nil_iff.mpr fun child hchild hparent => ?_
      obtain ⟨-, parent, hparentMem, hpid⟩ :=
        sound.rooted child hchild task (by simpa using hparent)
      exact habsent parent hparentMem hpid
    have hoffspring := (moves.offspring spares).eq_nil_iff.mpr hnone
    have only : ∀ other ∈ ((initial clock).play channel (calls ++ [call])).database.rows,
        other.id = task → other = row := fun other hother hother_id =>
      hsound.eq_of_id hother hrow (hother_id.trans hid.symm)
    have hparent : row.parent ≠ some task := fun hown =>
      List.ne_nil_of_mem (Table.mem_offspring.mpr ⟨hrow, hown⟩) hoffspring
    refine ⟨⟨?_, fun other hother hother_id worker hheld => ?_⟩, hoffspring⟩
    · refine .ofRow hrow hid only hparent ⟨0, by simp [hoffspring]⟩ (fun _ => ?_) fun hdone => ?_
      · rw [if_pos hoffspring]
      · exact absurd hid (habsent row (moves.completed spares row hrow hid hdone))
    · obtain ⟨old, hold, hold_id⟩ := running_before moves spares hother hother_id
        (Row.isHeldBy_iff.mp hheld).2
      exact absurd hold_id (habsent old hold)
  · obtain ⟨old, hold, hold_id⟩ := lastGiven?_present hgiven
    exact absurd hold_id (habsent old hold)

end FanOutAt

/-! ### Whole runs -/

/-- Children that stay once they are there have been created at one point, or never. -/
lemma grown_at_once (rows : Nat → Table) {born : Nat}
    (start : (rows (born + 1)).offspring task = [])
    (grown : ∀ n, born < n → Table.Grown states task (rows n) (rows (n + 1))) :
    (∀ n, born < n → (rows n).offspring task = []) ∨
      ∃ spawn, born < spawn ∧ (∀ n, born < n → n ≤ spawn → (rows n).offspring task = []) ∧
        ((rows (spawn + 1)).offspring task).map Row.state = states ∧
        (∀ child ∈ (rows (spawn + 1)).offspring task, child.taskType = Builtin.echoType) ∧
        ∀ n, spawn < n →
          Table.Become ((rows (spawn + 1)).offspring task) ((rows n).offspring task) := by
  classical
  refine or_iff_not_imp_left.mpr fun hsome => ?_
  have hexists : ∃ n, born < n ∧ (rows n).offspring task ≠ [] := by
    simpa using hsome
  -- the first point at which there are children
  obtain ⟨hbefore, hthere⟩ := Nat.find_spec hexists
  have hleast := fun n => @Nat.find_min _ _ hexists n
  generalize Nat.find hexists = point at hbefore hthere hleast
  obtain ⟨spawn, rfl⟩ : ∃ spawn, point = spawn + 1 := ⟨point - 1, by omega⟩
  have hborn : born < spawn := by
    rcases Nat.lt_or_ge born spawn with hlt | hge
    · exact hlt
    · have : spawn = born := by omega
      exact absurd (this ▸ start) hthere
  have hnone : ∀ n, born < n → n ≤ spawn → (rows n).offspring task = [] := by
    intro n hn hle
    by_contra hne
    exact hleast n (by omega) ⟨hn, hne⟩
  have hspawn := (grown spawn hborn).resolve_left fun become =>
    hthere (become.eq_nil_iff.mpr (hnone spawn hborn le_rfl))
  refine ⟨spawn, hborn, hnone, hspawn.2.1, hspawn.2.2, fun n hn => ?_⟩
  induction n, hn using Nat.le_induction with
  | base => exact .refl _
  | succ n hle ih =>
      rcases grown n (by omega) with become | ⟨hempty, -⟩
      · exact ih.trans become
      · exact absurd (ih.eq_nil_iff.mp hempty) hthere

/-- One more call of a run, or its end. -/
lemma take_succ_cases (calls : List Call) (n : Nat) :
    (∃ call, calls[n]? = some call ∧ calls.take (n + 1) = calls.take n ++ [call]) ∨
      calls.take (n + 1) = calls.take n := by
  rw [List.take_add_one]
  cases calls[n]? with
  | none => exact .inr (List.append_nil _)
  | some call => exact .inl ⟨call, rfl, rfl⟩

/-- The life of a fan-out. A task is created with a state that comes back from its column as one
that tells the states of its children to be, and from then on nobody else creates a child of it,
writes its state or ends a run of it than runs of the fan-out, each for what its worker was given
last.
Then it has no children until one run creates them all, one of the echo type for each of the states
and in their order; from then on it has these children and no others. Whenever the task is completed
they are all at their end, and its state is the summary of them, in the order in which they were
created, with the states that came back from their columns. These are the states as they are
stored, if their columns keep them. -/
theorem fanOut_once (clock : Micros) (channel : Channel) (calls : List Call) (task : TaskId)
    {born : Nat} {row : Row} {given : Json} {states : List Json} :
    let store (n : Nat) := (initial clock).play channel (calls.take n)
    let children (n : Nat) := (store n).database.rows.children task
    (store born).database.rows.find? task = none →
    (store (born + 1)).database.rows.find? task = some row →
    row.readState = .ok given → FanOutState.ofJson given = .ok ⟨states, false⟩ →
    (∀ n call, born ≤ n → calls[n]? = some call →
      call.LeavesToFanOut channel (store n) task fun worker =>
        (initial clock).lastGiven? channel task worker (calls.take n)) →
    ((∀ n, born < n → children n = []) ∨
      ∃ spawn, born < spawn ∧ (∀ n, born < n → n ≤ spawn → children n = []) ∧
        (children (spawn + 1)).map Row.state = states ∧
        ∀ n, spawn < n →
          (children n).map Row.id = (children (spawn + 1)).map Row.id ∧
          (children n).Pairwise (fun a b => a.id < b.id) ∧
          ∀ child ∈ children n, child.taskType = Builtin.echoType) ∧
      ∀ n, born < n → ∀ parent ∈ (store n).database.rows, parent.id = task →
        parent.status = .known .completed →
          (∀ child ∈ children n, child.isLive = false) ∧
            ∃ shown, Table.ShownAs (children n) shown ∧
              parent.state = Table.summary (children n) shown ∧
              ((∀ child ∈ children n, child.state.Kept Json.depthLimit) →
                shown = (children n).map Row.state) := by
  intro store children absent present hread hdecodes left
  have decodes : FanOutState.Tells row.state states :=
    ⟨given, Row.readState_eq_ok_iff.mp hread, hdecodes⟩
  have hcreated : FanOutAt clock channel task row.state states (calls.take (born + 1)) ∧
      (store (born + 1)).database.rows.offspring task = [] := by
    rcases take_succ_cases calls born with ⟨call, hcall, htake⟩ | htake
    · simp only [store, htake] at present ⊢
      exact FanOutAt.created absent present (left born call le_rfl hcall)
    · simp only [store, htake] at present
      cases absent.symm.trans present
  have hnext : ∀ n, born < n → FanOutAt clock channel task row.state states (calls.take n) →
      FanOutAt clock channel task row.state states (calls.take (n + 1)) ∧
        Table.Grown states task (store n).database.rows (store (n + 1)).database.rows := by
    intro n hn h
    rcases take_succ_cases calls n with ⟨call, hcall, htake⟩ | htake
    · simp only [store, htake]
      exact h.next decodes (left n call (le_of_lt hn) hcall)
    · simp only [store, htake]
      exact ⟨h, .inl (.refl _)⟩
  have hall : ∀ n, born < n → FanOutAt clock channel task row.state states (calls.take n) := by
    intro n hn
    induction n, hn using Nat.le_induction with
    | base => exact hcreated.1
    | succ n hle ih => exact (hnext n hle ih).1
  have hsame : ∀ n, born < n → children n = (store n).database.rows.offspring task := by
    intro n hn
    obtain ⟨now, hborn⟩ := (hall n hn).fanned.born
    exact Table.children_eq_offspring (play_sound clock channel _).ordered hborn
  refine ⟨?_, fun n hn parent hparent hid hdone => ?_⟩
  · rcases grown_at_once (fun n => (store n).database.rows) hcreated.2
      fun n hn => (hnext n hn (hall n hn)).2 with
      hnone | ⟨spawn, hborn, hnone, hstates, htypes, hkept⟩
    · exact .inl fun n hn => (hsame n hn).trans (hnone n hn)
    · refine .inr ⟨spawn, hborn, fun n hn hle => (hsame n hn).trans (hnone n hn hle), ?_,
        fun n hn => ?_⟩
      · rw [hsame _ (by omega)]
        exact hstates
      · rw [hsame n (by omega), hsame (spawn + 1) (by omega)]
        have become := hkept n hn
        refine ⟨become.ids, (play_sound clock channel _).ordered.filter _, fun child hchild => ?_⟩
        obtain ⟨old, hold, hbecomes⟩ := become.origin child hchild
        exact hbecomes.same.2.1.trans (htypes old hold)
  · rw [hsame n hn]
    obtain ⟨hended, shown, hshown, hsummary⟩ := (hall n hn).fanned.done parent hparent hid hdone
    exact ⟨hended, shown, hshown, hsummary, hshown.eq_of_kept⟩

/-- A fan-out with two children, of which one completes and the other one fails. -/
def twins : List Call :=
  let state : Json := .object [("children", .array [.null, .bool true])]
  [.perform (.create "fan_out" (some state)),
    .claim ["fan_out"] "first" (.ofSeconds 60),
    .run Builtin.fanOut ⟨1, "fan_out", state, "first"⟩ 0 fun _ => [],
    .claim ["echo"] "second" (.ofSeconds 60),
    .claim ["echo"] "third" (.ofSeconds 60),
    .finish 2 "second" .completed,
    .finish 3 "third" (.failed "no stamp"),
    .claim ["fan_out"] "second" (.ofSeconds 60),
    .run Builtin.fanOut
      ⟨1, "fan_out", FanOutState.toJson ⟨[.null, .bool true], true⟩, "second"⟩ 0 fun _ => []]

/-- It has its two children from its first run on. -/
theorem twins_created_once :
    let children (n : Nat) :=
      ((initial 0).play .standard (twins.take n)).database.rows.children 1
    ∃ spawn, (∀ n, 0 < n → n ≤ spawn → children n = []) ∧
      (children (spawn + 1)).map Row.state = [.null, .bool true] ∧
      ∀ n, spawn < n → (children n).map Row.id = (children (spawn + 1)).map Row.id := by
  intro children
  have left : ∀ n call, 0 ≤ n → twins[n]? = some call →
      call.LeavesToFanOut .standard ((initial 0).play .standard (twins.take n)) 1 fun worker =>
        (initial 0).lastGiven? .standard 1 worker (twins.take n) := by
    intro n call _ hcall
    match n with
    | 0 | 1 | 3 | 4 | 5 | 6 | 7 => cases hcall; exact .inl (by decide)
    | 2 | 8 => cases hcall; exact .inr ⟨_, _, _, rfl, rfl, rfl⟩
    | n + 9 => cases hcall
  have life := fanOut_once 0 .standard twins 1 rfl rfl rfl rfl left
  have there : children 3 ≠ [] := by
    simp only [children, Table.children, ← List.length_pos_iff, List.length_mergeSort]
    decide
  rcases life.1 with hnone | ⟨spawn, -, hnone, hstates, hkept⟩
  · exact absurd (hnone 3 (by decide)) there
  · exact ⟨spawn, hnone, hstates, fun n hn => (hkept n hn).1⟩

/-- A fan-out with one child, which completes with a state that embeds a value. -/
def embedding : List Call :=
  let state : Json := .object [("children", .array [.null])]
  [.perform (.create "fan_out" (some state)),
    .claim ["fan_out"] "first" (.ofSeconds 60),
    .run Builtin.fanOut ⟨1, "fan_out", state, "first"⟩ 0 fun _ => [],
    .claim ["echo"] "second" (.ofSeconds 60),
    .finish 2 "second" (.completedWith (.object [(Json.mark, .string "[1, 2]")])),
    .claim ["fan_out"] "third" (.ofSeconds 60),
    .run Builtin.fanOut
      ⟨1, "fan_out", FanOutState.toJson ⟨[.null], true⟩, "third"⟩ 0 fun _ => []]

/-- Its summary shows the embedded value, and not the state of the child as it is stored. -/
theorem embedded_summarized :
    let rows := ((initial 0).play .standard embedding).database.rows
    (∀ n (call : Call), embedding[n]? = some call →
      call.LeavesToFanOut .standard ((initial 0).play .standard (embedding.take n)) 1 fun worker =>
        (initial 0).lastGiven? .standard 1 worker (embedding.take n)) ∧
      rows.map Row.status = [.known .completed, .known .completed] ∧
      (rows.find? 1).map Row.state =
        some (Table.summary (rows.children 1) [.array [.int 1, .int 2]]) ∧
      (rows.find? 1).map Row.state ≠
        some (Table.summary (rows.children 1) ((rows.children 1).map Row.state)) := by
  intro rows
  refine ⟨fun n call hcall => ?_, by decide +kernel⟩
  match n with
  | 0 | 1 | 3 | 4 | 5 => cases hcall; exact .inl (by decide)
  | 2 | 6 => cases hcall; exact .inr ⟨_, _, _, rfl, rfl, rfl⟩
  | n + 7 => cases hcall

end Store

end LeaseQueue
