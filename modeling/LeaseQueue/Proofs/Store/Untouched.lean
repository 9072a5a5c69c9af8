/-
What acts leave of a task that they do not touch, and of its children.

* `Act.Touches`: an act creates a child of a task, writes its state or ends a run of it;
* `Row.Becomes`, `Table.Become`: what becomes of a row and of some rows;
* `Table.offspring`, `Table.children_eq_offspring`: the children of a task, in the order of
  their numbers;
* `Table.Moved.offspring`: an act that creates no child of a task keeps its children;
* `Table.Moves.kept`, `completed`, `running`: acts that do not touch a task keep its state, do
  not complete it, and run it only by a claim;
* `Call.acts_unclaimed`: only a claim acts by a claim.
-/
import LeaseQueue.Proofs.Store.Lifecycle

namespace LeaseQueue

/-! ### Acts that leave a task alone -/

namespace Act

/-- The act is a claim. -/
def IsClaim : Act → Prop
  | .claim _ _ _ => True
  | _ => False

/-- The act creates a child of a task, resumes it with another state, or ends a run of it. -/
def Touches (task : TaskId) : Act → Prop
  | .operation (.createChild parent _ _) => parent = task
  | .operation (.resumeWith id _) | .operation (.finish id _ _) => id = task
  | _ => False

instance (task : TaskId) : ∀ act : Act, Decidable (act.Touches task)
  | .operation (.createChild parent _ _) => inferInstanceAs (Decidable (parent = task))
  | .operation (.resumeWith id _) | .operation (.finish id _ _) =>
    inferInstanceAs (Decidable (id = task))
  | .operation (.create _ _) | .operation (.resume _) | .operation (.get _)
  | .operation (.children _) | .operation (.lockChildren _) | .operation (.cancel _)
  | .operation .notify | .claim _ _ _ | .renew _ _ => .isFalse id

end Act

namespace Row

/-- What has become of a row: the same task, and the same row if that was at its end. -/
structure Becomes (row next : Row) : Prop where
  same : next.id = row.id ∧ next.taskType = row.taskType ∧ next.parent = row.parent ∧
    next.created = row.created
  ended : row.isLive = false → next = row

namespace Becomes

lemma refl (row : Row) : row.Becomes row := ⟨⟨rfl, rfl, rfl, rfl⟩, fun _ => rfl⟩

lemma trans {a b c : Row} (h : a.Becomes b) (h' : b.Becomes c) : a.Becomes c where
  same :=
    ⟨h'.same.1.trans h.same.1, h'.same.2.1.trans h.same.2.1, h'.same.2.2.1.trans h.same.2.2.1,
      h'.same.2.2.2.trans h.same.2.2.2⟩
  ended hends := by
    have hb := h.ended hends
    rw [h'.ended (hb ▸ hends), hb]

end Becomes

namespace Lawful

variable {act : Act} {before after : Table} {row next : Row}

lemma becomes (h : row.Lawful act before after next) : row.Becomes next := ⟨h.same, h.frozen⟩

variable (h : row.Lawful act before after next) (spares : ¬ act.Touches row.id)
include h spares

/-- A row that is not touched keeps its state. -/
lemma state_eq : next.state = row.state := by
  rcases h.state with hsame | ⟨worker, outcome, rfl, -⟩ | ⟨state, rfl, -⟩
  · exact hsame
  · exact absurd rfl spares
  · exact absurd rfl spares

/-- It does not complete. -/
lemma completed (hnext : next.status = .known .completed) : next = row := by
  rcases h.passes with hstays | ⟨old, new, -, hnew, hpass⟩
  · exact hstays
  · rw [hnext] at hnew
    cases hpass with
    | finished => exact absurd rfl spares
    | _ => cases hnew

/-- It runs only by a claim. -/
lemma running (hclaim : ¬ act.IsClaim) (hnext : next.status = .known .running) :
    row.status = .known .running := by
  rcases h.passes with rfl | ⟨old, new, hold, hnew, hpass⟩
  · exact hnext
  · rw [hnext] at hnew
    cases hpass with
    | claimed | reclaimed => exact absurd trivial hclaim
    | renewed => exact hold
    | finished => exact absurd rfl spares
    | _ => cases hnew

end Lawful
end Row

namespace Table

/-! ### Children -/

/-- The children of a task, in the order of their numbers. -/
def offspring (table : Table) (parent : TaskId) : List Row :=
  table.filter fun row => row.parent == some parent

lemma mem_offspring {table : Table} {parent : TaskId} {row : Row} :
    row ∈ table.offspring parent ↔ row ∈ table ∧ row.parent = some parent := by
  rw [offspring, List.mem_filter, beq_iff_eq]

lemma offspring_nil (parent : TaskId) : Table.offspring [] parent = [] := rfl

lemma offspring_append (first rest : Table) (parent : TaskId) :
    Table.offspring (first ++ rest) parent = first.offspring parent ++ rest.offspring parent :=
  List.filter_append ..

/-- Children of one time of creation are told in the order of their numbers. -/
lemma children_eq_offspring {table : Table} {parent : TaskId} {now : Micros}
    (ordered : table.Pairwise fun a b => a.id < b.id)
    (h : ∀ child ∈ table.offspring parent, child.created = now) :
    table.children parent = table.offspring parent := by
  refine List.mergeSort_of_pairwise ?_
  refine (ordered.filter _).imp_of_mem fun {a b} ha hb hlt => ?_
  have hcreated : a.created = b.created := (h a ha).trans (h b hb).symm
  have hnot : ¬ b.id < a.id := not_lt.mpr (le_of_lt hlt)
  simp [Row.before, hcreated, hnot]

/-! ### What becomes of rows -/

/-- What becomes of rows in order, one by one. -/
abbrev Become (rows next : List Row) : Prop := List.Forall₂ Row.Becomes rows next

lemma Become.refl (rows : List Row) : Become rows rows :=
  List.forall₂_same.mpr fun row _ => .refl row

lemma Become.trans {a b c : List Row} (h : Become a b) (h' : Become b c) : Become a c := by
  induction h generalizing c with
  | nil => exact h'
  | cons hrow _ ih =>
      cases h' with
      | cons hrow' hrest => exact .cons (hrow.trans hrow') (ih hrest)

/-- Each row comes from one. -/
lemma Become.origin {rows next : List Row} (h : Become rows next) :
    ∀ row ∈ next, ∃ old ∈ rows, old.Becomes row := by
  induction h with
  | nil => exact fun _ h => absurd h List.not_mem_nil
  | cons hrow _ ih =>
      intro row hmem
      rcases List.mem_cons.mp hmem with rfl | hrest
      · exact ⟨_, List.mem_cons_self, hrow⟩
      · obtain ⟨old, hold, hbecomes⟩ := ih row hrest
        exact ⟨old, List.mem_cons_of_mem _ hold, hbecomes⟩

/-- Rows at their end stay what they are. -/
lemma Become.eq_of_ended {rows next : List Row} (h : Become rows next)
    (ended : ∀ row ∈ rows, row.isLive = false) : next = rows := by
  induction h with
  | nil => rfl
  | cons hrow _ ih =>
      rw [hrow.ended (ended _ List.mem_cons_self),
        ih fun row hmem => ended row (List.mem_cons_of_mem _ hmem)]

lemma Become.ids {rows next : List Row} (h : Become rows next) :
    next.map Row.id = rows.map Row.id := by
  induction h with
  | nil => rfl
  | cons hrow _ ih => rw [List.map_cons, List.map_cons, hrow.same.1, ih]

lemma Become.created {rows next : List Row} (h : Become rows next) {now : Micros}
    (hrows : ∀ row ∈ rows, row.created = now) : ∀ row ∈ next, row.created = now := by
  intro row hrow
  obtain ⟨old, hold, hbecomes⟩ := h.origin row hrow
  exact hbecomes.same.2.2.2.trans (hrows old hold)

lemma Become.eq_nil_iff {rows next : List Row} (h : Become rows next) : next = [] ↔ rows = [] := by
  rw [← List.length_eq_zero_iff, ← List.length_eq_zero_iff, h.length_eq]

/-! ### Acts one after another -/

variable {act : Act} {a b : Table} {task : TaskId}

/-- An act that creates no child of a task keeps the children of the task. -/
lemma Moved.offspring (h : Moved act a b)
    (hact : ∀ taskType state, act ≠ .operation (.createChild task taskType state)) :
    List.Forall₂
      (fun row next => row.Becomes next ∧ (¬ act.Touches row.id → next.state = row.state))
      (a.offspring task) (b.offspring task) := by
  obtain ⟨f, added, rfl, lawful, created⟩ := h
  have hadded : Table.offspring added task = [] := by
    refine List.filter_eq_nil_iff.mpr fun row hrow hparent => ?_
    cases created row hrow with
    | create => cases hparent
    | createChild now id parent taskType state =>
        have hp : parent = task := by simpa [Row.fresh] using hparent
        exact hact taskType state (hp ▸ rfl)
  have hkept : Table.offspring (a.map f) task = (a.offspring task).map f := by
    rw [Table.offspring, List.filter_map]
    refine congrArg _ (List.filter_congr fun row hrow => ?_)
    rw [Function.comp_apply, (lawful row hrow).same.2.2.1]
  rw [offspring_append, hadded, List.append_nil, hkept, List.forall₂_map_right_iff]
  refine List.forall₂_same.mpr fun row hrow => ?_
  have hlawful := lawful row (mem_offspring.mp hrow).1
  exact ⟨hlawful.becomes, hlawful.state_eq⟩

/-- A row comes from one before the act, or is created by it. -/
lemma Moved.origin (h : Moved act a b) :
    ∀ next ∈ b, (∃ row ∈ a, row.Lawful act a b next) ∨ Row.Created act next := by
  obtain ⟨f, added, rfl, lawful, created⟩ := h
  intro next hnext
  rcases List.mem_append.mp hnext with hold | hnew
  · obtain ⟨row, hrow, rfl⟩ := List.mem_map.mp hold
    exact .inl ⟨row, hrow, lawful row hrow⟩
  · exact .inr (created next hnew)

namespace Moves

variable {acts : List Act} (moves : Moves a acts b) (spares : ∀ act ∈ acts, ¬ act.Touches task)
include moves spares

/-- Acts that do not touch a task keep its children. -/
lemma offspring : Become (a.offspring task) (b.offspring task) := by
  induction moves with
  | refl => exact .refl _
  | @cons a b c act rest hmoved _ ih =>
      have hact := spares act List.mem_cons_self
      have hfirst : Become (a.offspring task) (b.offspring task) :=
        (hmoved.offspring fun taskType state heq => hact (heq ▸ rfl)).imp fun _ _ h => h.1
      exact hfirst.trans
        (ih fun act hmem => spares act (List.mem_cons_of_mem _ hmem))

/-- They keep its state. -/
lemma kept : ∀ row ∈ a, row.id = task →
    ∃ next ∈ b, row.Becomes next ∧ next.state = row.state := by
  induction moves with
  | refl => exact fun row hrow _ => ⟨row, hrow, .refl row, rfl⟩
  | @cons a b c act rest hmoved _ ih =>
      rintro row hrow rfl
      obtain ⟨f, added, rfl, lawful, -⟩ := hmoved
      have hlawful := lawful row hrow
      obtain ⟨next, hnext, hbecomes, hstate⟩ :=
        ih (fun act hmem => spares act (List.mem_cons_of_mem _ hmem)) (f row)
          (List.mem_append_left _ (List.mem_map_of_mem hrow)) hlawful.same.1
      exact ⟨next, hnext, hlawful.becomes.trans hbecomes,
        hstate.trans (hlawful.state_eq (spares act List.mem_cons_self))⟩

/-- They do not complete it. -/
lemma completed : ∀ next ∈ b, next.id = task → next.status = .known .completed → next ∈ a := by
  induction moves with
  | refl => exact fun next hnext _ _ => hnext
  | @cons a b c act rest hmoved _ ih =>
      intro next hnext hid hstatus
      have hb :=
        ih (fun act hmem => spares act (List.mem_cons_of_mem _ hmem)) next hnext hid hstatus
      rcases hmoved.origin next hb with ⟨row, hrow, hlawful⟩ | hcreated
      · have hrid : row.id = task := hlawful.same.1.symm.trans hid
        rw [hlawful.completed (hrid ▸ spares act List.mem_cons_self) hstatus]
        exact hrow
      · cases hcreated <;> cases hstatus

/-- Without a claim they do not run it. -/
lemma running (unclaimed : ∀ act ∈ acts, ¬ act.IsClaim) : ∀ next ∈ b, next.id = task →
    next.status = .known .running → ∃ row ∈ a, row.status = .known .running ∧ row.Becomes next := by
  induction moves with
  | refl => exact fun next hnext _ hstatus => ⟨next, hnext, hstatus, .refl next⟩
  | @cons a b c act rest hmoved _ ih =>
      intro next hnext hid hstatus
      obtain ⟨middle, hmiddle, hrunning, hbecomes⟩ :=
        ih (fun act hmem => spares act (List.mem_cons_of_mem _ hmem))
          (fun act hmem => unclaimed act (List.mem_cons_of_mem _ hmem)) next hnext hid hstatus
      rcases hmoved.origin middle hmiddle with ⟨row, hrow, hlawful⟩ | hcreated
      · have hrid : row.id = task := hlawful.same.1.symm.trans (hbecomes.same.1.symm.trans hid)
        refine ⟨row, hrow, ?_, hlawful.becomes.trans hbecomes⟩
        exact hlawful.running (hrid ▸ spares act List.mem_cons_self)
          (unclaimed act List.mem_cons_self) hrunning
      · cases hcreated <;> cases hrunning

end Moves

end Table

/-! ### Claims -/

lemma Beat.act?_unclaimed {claimed : ClaimedTask} {beats : List Beat} :
    ∀ act ∈ beats.filterMap (Beat.act? claimed), ¬ act.IsClaim := by
  intro act hact
  obtain ⟨beat, -, hbeat⟩ := List.mem_filterMap.mp hact
  cases beat <;> cases hbeat
  exact id

/-- A program acts by no claim. -/
lemma Program.acts_unclaimed (claimed : ClaimedTask) (beats : Nat → List Beat) (channel : Channel)
    (program : Program) :
    ∀ run : OpenRun, ∀ act ∈ program.acts claimed beats channel run, ¬ act.IsClaim := by
  induction program with
  | finish outcome => exact fun _ _ h => absurd h List.not_mem_nil
  | panic text => exact fun _ _ h => absurd h List.not_mem_nil
  | perform operation next ih =>
      intro run act hact
      rcases List.mem_cons.mp hact with rfl | hrest
      · exact id
      · exact ih _ _ act hrest
  | pause millis next ih =>
      intro run act hact
      rcases List.mem_append.mp hact with hbeat | hrest
      · exact Beat.act?_unclaimed act hbeat
      · exact ih _ act hrest
  | stop next ih => exact ih

/-- Only a claim acts by a claim. -/
theorem Call.acts_unclaimed {call : Call} (channel : Channel) (store : Store)
    (h : ∀ types worker lease, call ≠ .claim types worker lease) :
    ∀ act ∈ call.acts channel store, ¬ act.IsClaim := by
  intro act hact
  cases call with
  | claim types worker lease => exact absurd rfl (h types worker lease)
  | perform | renew | finish =>
      rw [List.mem_singleton.mp hact]
      exact id
  | run handler claimed earlierRuns beats =>
      rw [acts] at hact
      split at hact
      · rcases List.mem_append.mp hact with hprogram | hend
        · exact Program.acts_unclaimed claimed beats channel _ _ act hprogram
        · rw [List.mem_singleton.mp hend]
          exact id
      · obtain ⟨renewal, -, rfl⟩ := List.mem_map.mp hact
        exact id
  | transaction steps keep =>
      rw [acts] at hact
      split at hact
      · obtain ⟨step, -, hstep⟩ := List.mem_filterMap.mp hact
        cases step <;> cases hstep
        exact id
      · cases hact
  | pass micros => cases hact

end LeaseQueue
