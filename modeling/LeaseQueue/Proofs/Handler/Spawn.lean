/-
One run of the fan-out, whatever happens beside it.

* `FanOutState.ofJson_toJson`, `readColumn?_toJson`: what is read of a state that was written;
* `Table.brood`: new children of a task with some states;
* `Table.ShownAs`, `Table.summary`, `summarize_eq`: what the states of children come back as, and
  what a summary says of them;
* `Program.execute_spawn`, `execute_look`: children are created one behind the other, and looked
  at;
* `Builtin.Fans`: the outcomes of a run, each with the children that it creates;
* `Store.executed_fanOut`: a run goes one of these ways.
-/
import LeaseQueue.Handler.Builtin
import LeaseQueue.Proofs.Handler.Commit
import LeaseQueue.Proofs.Store.Untouched

namespace LeaseQueue

/-! ### The state of a fan-out -/

namespace FanOutState

lemma toJson_eq (children : List Json) (spawned : Bool) :
    toJson ⟨children, spawned⟩ =
      .object [("children", .array children), ("spawned", .bool spawned)] := by
  have horder : ¬ "spawned" < "children" := by decide
  have hne : "spawned" ≠ "children" := by decide
  simp only [toJson, Json.ofEntries, List.foldl_cons, List.foldl_nil, Json.insert, if_neg horder,
    if_neg hne]

/-- A state that is written is read back, with the texts that are embedded in it resolved. -/
lemma ofJson_toJson (state : FanOutState) :
    ofJson state.toJson =
      (Json.resolveItems state.children).map fun children => ⟨children, state.spawned⟩ := by
  obtain ⟨children, spawned⟩ := state
  have hchildren : Kind.array.ofJson (.array children) = Json.resolveItems children := rfl
  have hspawned : Kind.boolean.ofJson (.bool spawned) = .ok spawned := rfl
  rw [toJson_eq, ofJson, Shape.ofJson]
  cases hitems : Json.resolveItems children <;>
    simp [shape, Shape.addEntries, Shape.addEntry, Shape.Found.none, hchildren, hspawned, hitems,
      Shape.complete, Except.map, ofValues]

/-- A state that comes back from its column is one with the states of children that come back. -/
lemma readColumn?_toJson (children : List Json) (spawned : Bool) :
    Json.readColumn? Json.depthLimit (toJson ⟨children, spawned⟩) =
      (Json.readColumnItems? (Json.depthLimit - 2) children).map fun items =>
        toJson ⟨items, spawned⟩ := by
  have hmark : Json.atColumnMark? [("children", .array children), ("spawned", .bool spawned)] =
      none := by
    have hlookup : Json.lookup Json.mark
        [("children", .array children), ("spawned", .bool spawned)] = none := rfl
    rw [Json.atColumnMark?, hlookup, ite_self]
  have hdepth : ¬ Json.depthLimit - 1 ≤ 1 := by decide
  rw [toJson_eq, Json.readColumn?, if_neg (by decide), hmark]
  simp only [Json.readColumnEntries?, Json.readColumn?, if_neg hdepth]
  cases Json.readColumnItems? (Json.depthLimit - 1 - 1) children with
  | none => rfl
  | some items => simp [toJson_eq]

/-- A state in which the children are created stays one. -/
lemma spawned_of_toJson {children : List Json} {given : Json} {state : FanOutState}
    (hgiven : Json.readColumn? Json.depthLimit (toJson ⟨children, true⟩) = some given)
    (h : ofJson given = .ok state) : state.spawned = true := by
  rw [readColumn?_toJson] at hgiven
  obtain ⟨items, -, rfl⟩ := Option.map_eq_some_iff.mp hgiven
  rw [ofJson_toJson] at h
  cases hitems : Json.resolveItems items with
  | error why => rw [hitems] at h; cases h
  | ok items => rw [hitems] at h; cases h; rfl

end FanOutState

/-! ### Children -/

namespace Table

/-- New children of a task with some states, numbered from a number on. -/
def brood (now : Micros) (parent : TaskId) : TaskId → List Json → List Row
  | _, [] => []
  | id, state :: rest =>
    Row.fresh now id Builtin.echoType state (some parent) :: brood now parent (id + 1) rest

lemma mem_brood {now : Micros} {parent : TaskId} {states : List Json} {row : Row} :
    ∀ {first}, row ∈ brood now parent first states →
      first ≤ row.id ∧ ∃ state, row = .fresh now row.id Builtin.echoType state (some parent) := by
  induction states with
  | nil => exact fun h => absurd h List.not_mem_nil
  | cons state rest ih =>
      intro first h
      rcases List.mem_cons.mp h with rfl | hrest
      · exact ⟨le_rfl, state, rfl⟩
      · obtain ⟨hle, hfresh⟩ := ih hrest
        exact ⟨(Int.le_add_of_nonneg_right Int.one_nonneg).trans hle, hfresh⟩

@[simp] lemma states_brood (now : Micros) (parent : TaskId) (states : List Json) :
    ∀ first, (brood now parent first states).map Row.state = states := by
  induction states with
  | nil => exact fun _ => rfl
  | cons state rest ih => exact fun first => congrArg _ (ih (first + 1))

/-- New children are children. -/
lemma offspring_brood (now : Micros) (parent first : TaskId) (states : List Json) :
    Table.offspring (brood now parent first states) parent = brood now parent first states := by
  refine List.filter_eq_self.mpr fun row hrow => ?_
  obtain ⟨-, state, hfresh⟩ := mem_brood hrow
  rw [hfresh]
  exact beq_self_eq_true _

/-! ### Summaries of rows -/

/-- What a summary says of the row of a child and its state. -/
def summaryOf (row : Row) (state : Json) : Json :=
  .ofEntries [
    ("id", .int row.id),
    ("status", .string row.status.text),
    ("state", state),
    ("error", .ofOption .string row.error)]

/-- What a summary says of the rows of children and their states. -/
def summary (children : List Row) (states : List Json) : Json :=
  .ofEntries [
    ("children", .int children.length),
    ("failed", .int (children.countP (·.hasStatus .failed))),
    ("results", .array (List.zipWith summaryOf children states))]

/-- The states of some rows come back from their columns as these. -/
def ShownAs (rows : List Row) (states : List Json) : Prop :=
  List.Forall₂ (fun row state => row.readState = .ok state) rows states

/-- States that their columns keep come back as they were stored. -/
lemma ShownAs.eq_of_kept {rows : List Row} {states : List Json} (h : ShownAs rows states)
    (kept : ∀ row ∈ rows, row.state.Kept Json.depthLimit) : states = rows.map Row.state := by
  induction h with
  | nil => rfl
  | cons hread _ ih =>
      obtain ⟨hrow, hrest⟩ := List.forall_mem_cons.mp kept
      rw [List.map_cons, ← ih hrest, Except.ok.inj (hread.symm.trans (Row.readState_of_kept hrow))]

end Table

/-- The task is what a summary sees of the row. -/
structure Row.ReadAs (row : Row) (task : Task) : Prop where
  id : task.id = row.id
  state : row.readState = .ok task.state
  status : row.status = .known task.status
  error : task.error = row.error

namespace Row.ReadAs

lemma ofTask {row : Row} {task : Task} (h : row.task = .ok task) : row.ReadAs task := by
  simp only [Row.task, bind, Except.bind] at h
  split at h
  · cases h
  rename_i state hstate
  split at h
  · cases h
  rename_i status hstatus
  split at h
  · cases h
  split at h
  · cases h
  split at h
  · cases h
  cases h
  refine ⟨rfl, hstate, ?_, rfl⟩
  cases hrow : row.status with
  | known known =>
      rw [hrow] at hstatus
      cases hstatus
      rfl
  | foreign text =>
      rw [hrow] at hstatus
      cases hstatus

/-- The tasks of some rows that can all be read. -/
lemma ofTasks {rows : List Row} : ∀ {tasks : List Task}, rows.mapM Row.task = .ok tasks →
    List.Forall₂ ReadAs rows tasks := by
  induction rows with
  | nil =>
      intro tasks h
      cases h
      exact .nil
  | cons row rest ih =>
      intro tasks h
      rw [List.mapM_cons] at h
      cases hrow : row.task with
      | error e => rw [hrow] at h; cases h
      | ok task =>
          cases hrest : rest.mapM Row.task with
          | error e => rw [hrow, hrest] at h; cases h
          | ok tasks =>
              rw [hrow, hrest] at h
              cases h
              exact .cons (ofTask hrow) (ih hrest)

variable {row : Row} {task : Task}

lemma isLive (h : row.ReadAs task) : row.isLive = !task.isTerminal := by
  rw [Row.isLive, h.status]
  rfl

lemma summaryEntry (h : row.ReadAs task) :
    summaryEntry task = Table.summaryOf row task.state := by
  rw [LeaseQueue.summaryEntry, Table.summaryOf, h.id, h.error, h.status]
  rfl

lemma failed (h : row.ReadAs task) : (task.status == .failed) = row.hasStatus .failed := by
  rw [Row.hasStatus, h.status]
  cases task.status <;> rfl

end Row.ReadAs

/-- The summary of tasks is the summary of the rows that they were read from, with the states that
came back, and there is one just when all of them are at an end. -/
lemma summarize_eq {rows : List Row} {tasks : List Task} (h : List.Forall₂ Row.ReadAs rows tasks) :
    summarize tasks =
      if ∀ row ∈ rows, row.isLive = false then some (Table.summary rows (tasks.map Task.state))
      else none := by
  have hlive : (∀ row ∈ rows, row.isLive = false) ↔ tasks.all Task.isTerminal = true := by
    induction h with
    | nil => simp
    | cons hread _ ih => simp [hread.isLive, ih]
  have hcount : tasks.countP (fun task => task.status == .failed) =
      rows.countP (·.hasStatus .failed) := by
    clear hlive
    induction h with
    | nil => rfl
    | cons hread _ ih => rw [List.countP_cons, List.countP_cons, ih, hread.failed]
  have hentries : tasks.map summaryEntry =
      List.zipWith Table.summaryOf rows (tasks.map Task.state) := by
    clear hlive hcount
    induction h with
    | nil => rfl
    | cons hread _ ih =>
        rw [List.map_cons, List.map_cons, List.zipWith_cons_cons, ih, hread.summaryEntry]
  rw [summarize, Table.summary, hcount, hentries, h.length_eq]
  exact if_congr hlive.symm rfl rfl

/-! ### The creation of children -/

namespace Program

/-- The creation of a child. -/
lemma insertTask_child {database : Database} (table : database.tasks.isSome = true)
    {parent : TaskId} (present : database.rows.has parent = true) (now : Micros) (state : Json) :
    (database.insertTask now Builtin.echoType state (some parent)).2 =
      { database with
        tasks := some
          (database.rows ++ [.fresh now database.nextId Builtin.echoType state (some parent)])
        nextId := database.nextId + 1 } := by
  obtain ⟨rows, hrows⟩ := Option.isSome_iff_exists.mp table
  rw [Database.insertTask_eq hrows, if_pos (Database.admits_of_has present)]
  simp only [Database.rows, hrows, Option.getD_some]

/-- Children are created one behind the other. -/
lemma execute_spawn (around : Surroundings) (channel : Channel) (parent : TaskId)
    (next : Except TaskError Unit → Program) (states : List Json) :
    ∀ run : OpenRun, run.tx.Quiet → run.tx.aborted = false →
      run.tx.database.rows.has parent = true →
      ∃ (after : OpenRun) (trace : List TraceEvent),
        (performAll next
            (states.map fun state => .createChild parent Builtin.echoType (some state))).execute
          around channel run =
            { (next (.ok ())).execute around channel after with trace } ∧
        after.tx.database.rows = run.tx.database.rows ++
          Table.brood run.tx.now parent run.tx.database.nextId states := by
  induction states with
  | nil => exact fun run _ _ _ => ⟨run, _, rfl, (List.append_nil _).symm⟩
  | cons state rest ih =>
      intro run quiet usable present
      -- what the first child leaves
      let first : Operation := .createChild parent Builtin.echoType (some state)
      have hinsert := insertTask_child quiet.tasks present run.tx.now state
      have hcreate : (first.action channel).run run.tx =
          (.ok (.created run.tx.database.nextId),
            { run.tx with
              database := (run.tx.database.insertTask run.tx.now Builtin.echoType state
                (some parent)).2
              published := (run.tx.publish channel).published }) := by
        rw [Operation.action, Action.run_map, TaskAction.run_create channel quiet usable
          Builtin.echoType (some state) (Database.admits_of_has present)]
        rfl
      have hquiet := quiet.extend (first.extends channel run.tx)
      rw [hcreate, hinsert] at hquiet
      rw [hinsert] at hcreate
      obtain ⟨after, trace, hrun, hrows⟩ := ih { run with tx := _ } hquiet usable (by
        rw [Table.has_iff] at present ⊢
        obtain ⟨row, hrow, hid⟩ := present
        exact ⟨row, List.mem_append_left _ hrow, hid⟩)
      refine ⟨after, .answered (.ok (.created run.tx.database.nextId)) :: trace, ?_, ?_⟩
      · rw [List.map_cons, performAll, execute]
        simp only [OpenRun.perform]
        rw [show (Operation.createChild parent Builtin.echoType (some state)) = first from rfl]
        rw [hcreate]
        dsimp only
        rw [hrun]
        rfl
      · rw [hrows]
        simp [Database.rows, Table.brood]

/-- The children are looked at. -/
lemma execute_look (around : Surroundings) (channel : Channel) (parent : TaskId)
    (next : Except TaskError Answer → Program) (run : OpenRun) (quiet : run.tx.Quiet)
    (usable : run.tx.aborted = false) :
    let answer := ((run.tx.database.rows.children parent).mapM Row.task).map Answer.tasks
    (perform (.lockChildren parent) next).execute around channel run =
      ((next answer).execute around channel run).after (.answered answer) := by
  intro answer
  have hask : Action.run (Action.onTasks fun _ database => database.childRows parent) run.tx =
      (.ok (run.tx.database.rows.children parent), run.tx) :=
    TaskAction.run_ask quiet usable fun table => table.children parent
  have hanswer : ((Operation.lockChildren parent).action channel).run run.tx =
      (answer, run.tx) := by
    rw [Operation.action, Action.run_map, TaskAction.children, Action.run_bind, hask]
    rfl
  rw [execute, OpenRun.perform, hanswer]

end Program

/-! ### A run -/

namespace Builtin

/-- The outcomes of a run of the fan-out over some rows, each with the children that it creates:
a state that is none fails it; a first run creates the children and waits, or completes at once
when there are none to create; a later one completes when all children are at an end, and
else waits, but fails where a child cannot be read. -/
inductive Fans (now first : Int) (rows : Table) (task : ClaimedTask) :
    Outcome → List Row → Prop where
  | undecoded {why : Json.Mismatch} (h : FanOutState.ofJson task.state = .error why) :
      Fans now first rows task (.failed s!"invalid fan_out state: {why.message}") []
  | spawned {states : List Json} (h : FanOutState.ofJson task.state = .ok ⟨states, false⟩)
      (hne : states ≠ []) :
      Fans now first rows task (.waiting (some (FanOutState.toJson ⟨states, true⟩)))
        (Table.brood now task.id first states)
  | childless (h : FanOutState.ofJson task.state = .ok ⟨[], false⟩) :
      Fans now first rows task (.completedWith (Table.summary [] [])) []
  | unreadable {states : List Json} (h : FanOutState.ofJson task.state = .ok ⟨states, true⟩)
      {e : TaskError} (hread : (rows.children task.id).mapM Row.task = .error e) :
      Fans now first rows task (.failed s!"failed to list children: {e.message}") []
  | unfinished {states : List Json} (h : FanOutState.ofJson task.state = .ok ⟨states, true⟩)
      {child : Row} (hchild : child ∈ rows.children task.id) (live : child.isLive = true) :
      Fans now first rows task (.waiting none) []
  | finished {states : List Json} (h : FanOutState.ofJson task.state = .ok ⟨states, true⟩)
      (ended : ∀ child ∈ rows.children task.id, child.isLive = false) {shown : List Json}
      (hshown : Table.ShownAs (rows.children task.id) shown) :
      Fans now first rows task (.completedWith (Table.summary (rows.children task.id) shown)) []

/-- The children that a run creates are pending. -/
lemma Fans.pending {now first : Int} {rows : Table} {task : ClaimedTask} {outcome : Outcome}
    {added : List Row} (h : Fans now first rows task outcome added) :
    ∀ row ∈ added, row.status = .known .pending := by
  cases h with
  | spawned =>
      intro row hrow
      obtain ⟨-, state, hfresh⟩ := Table.mem_brood hrow
      rw [hfresh]
      rfl
  | _ => exact fun row hrow => absurd hrow List.not_mem_nil

end Builtin

/-- A run of the fan-out goes one of these ways, whatever happens beside it. -/
theorem Store.executed_fanOut {store : Store} (quiet : store.begin.Quiet) (channel : Channel)
    {task : ClaimedTask} (present : store.database.rows.has task.id = true) (earlierRuns : Nat)
    (beats : Nat → List Beat) :
    let execution := store.executed channel Builtin.fanOut task earlierRuns beats
    ∃ outcome added, execution.ending = .finished outcome ∧
      execution.run.tx.database.rows = store.database.rows ++ added ∧
      Builtin.Fans store.clock store.database.nextId store.database.rows task outcome added := by
  intro execution
  have hexecution : execution = (Builtin.fanOut ⟨task, channel, earlierRuns⟩).execute
      (.beating task beats) channel (.start store) := rfl
  rw [Builtin.fanOut] at hexecution
  dsimp only at hexecution
  cases hstate : FanOutState.ofJson task.state with
  | error why =>
      rw [hstate] at hexecution
      rw [hexecution]
      exact ⟨_, [], rfl, (List.append_nil _).symm, .undecoded hstate⟩
  | ok state =>
      rw [hstate] at hexecution
      obtain ⟨states, spawned⟩ := state
      cases spawned with
      | false =>
          obtain ⟨after, trace, hspawn, hrows⟩ := Program.execute_spawn (.beating task beats)
            channel task.id (Builtin.afterSpawn ⟨states, false⟩) states (.start store) quiet rfl
            present
          have hend : execution = _ := hexecution.trans hspawn
          rw [hend]
          cases states with
          | nil => exact ⟨_, _, rfl, hrows, .childless hstate⟩
          | cons state rest => exact ⟨_, _, rfl, hrows, .spawned hstate (List.cons_ne_nil _ _)⟩
      | true =>
          have hlook := Program.execute_look (.beating task beats) channel task.id
            Builtin.afterChildren (.start store) quiet rfl
          have hend : execution = _ := hexecution.trans hlook
          have hrows : (OpenRun.start store).tx.database.rows = store.database.rows := rfl
          rw [hend, hrows]
          cases htasks : (store.database.rows.children task.id).mapM Row.task with
          | error e => exact ⟨_, [], rfl, (List.append_nil _).symm, .unreadable hstate htasks⟩
          | ok tasks =>
              have hread := Row.ReadAs.ofTasks htasks
              have hshown : Table.ShownAs (store.database.rows.children task.id)
                  (tasks.map Task.state) :=
                List.forall₂_map_right_iff.mpr (hread.imp fun _ _ h => h.state)
              have hsummary := summarize_eq hread
              simp only [Except.map, Builtin.afterChildren, hsummary]
              by_cases hended : ∀ child ∈ store.database.rows.children task.id,
                  child.isLive = false
              · rw [if_pos hended]
                exact ⟨_, [], rfl, (List.append_nil _).symm, .finished hstate hended hshown⟩
              · rw [if_neg hended]
                obtain ⟨child, hchild, hlive⟩ : ∃ child ∈ store.database.rows.children task.id,
                    child.isLive = true := by simpa using hended
                exact ⟨_, [], rfl, (List.append_nil _).symm, .unfinished hstate hchild hlive⟩

end LeaseQueue
