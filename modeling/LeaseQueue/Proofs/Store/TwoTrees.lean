/-
Two cancellations at the same time leave the same in either order.

* `Database.hasStatus_waiting_cancelledRow`: which rows wait behind the cancellation of a tree;
* `Database.mem_treeOrder_treeCancelled`: the other trees are what they were;
* `Database.resumedBy_treeCancelled`: the parent that a second cancellation resumes;
* `Database.Cancellable`: the tasks whose cancellation has an end;
* `Database.bothCancelledRow`, `Database.treeCancelled_treeCancelled`: what two cancellations make
  of each row;
* `Database.liveAmong_treeCancelled`: how many rows they count together;
* `Store.perform_cancel_cancel`, `Store.perform_cancel_idle_behind`: the calls of a store;
* `Store.cancels_commute`: two cancellations in either order, in every reachable store;
* `Store.cancels_uncounted`: a task that is its own parent is left out.

The first cancellation may do what the second one would have done: cancel a row, or resume a
parent that both tasks share. It may also stop the second one from doing something, as a task that
is at its end resumes nobody. But the parent that it would have resumed then lies in the first
tree, or was resumed before.
-/
import LeaseQueue.Proofs.Store.CancelledTree

namespace LeaseQueue

namespace Database

variable {database : Database} {now : Micros} {a b : Row}

/-! ### Rows behind one tree -/

/-- Behind the cancellation of a tree a row waits if it did before, and neither lies in the tree
nor was resumed. -/
lemma hasStatus_waiting_cancelledRow {root : TaskId} {row : Row} :
    (database.cancelledRow now root row).hasStatus .waiting = true ↔
      row.hasStatus .waiting = true ∧ row.id ∉ database.treeOrder root ∧
        ¬ database.rows.ResumedBy root row := by
  rw [cancelledRow]
  split_ifs with hin hr
  · have hends : (row.cancelled now).hasStatus .waiting = false := rfl
    simp [hends, hin.1]
  · have hpending : (row.resumed now).hasStatus .waiting = false := rfl
    simp [hpending, hr]
  · have hout : row.hasStatus .waiting = true → row.id ∉ database.treeOrder root :=
      fun hw hmem => hin ⟨hmem, Row.isLive_of_waiting hw⟩
    tauto

/-- The cancellation of one tree leaves the others as they are. -/
lemma mem_treeOrder_treeCancelled (hs : database.Sound) (ha : a ∈ database.rows)
    (hownA : ¬ database.rows.IsOwnParent a.id) (hb : b ∈ database.rows)
    (hownB : ¬ database.rows.IsOwnParent b.id) {id : TaskId} :
    id ∈ (database.treeCancelled now a.id).treeOrder b.id ↔ id ∈ database.treeOrder b.id := by
  have hroot : ∃ other ∈ (database.treeCancelled now a.id).rows, other.id = b.id :=
    ⟨_, mem_treeCancelled hs ha hownA hb now, (database.cancelledRow_place now a.id b).1⟩
  rw [(sound_treeCancelled hs ha hownA).mem_treeOrder
      (mt (isOwnParent_treeCancelled hs ha hownA).mp hownB) hroot,
    hs.mem_treeOrder hownB ⟨b, hb, rfl⟩, rows_treeCancelled hs ha hownA]
  exact Table.under_map_iff fun row _ => database.cancelledRow_place now a.id row

/-- Of a tree the root alone has a parent outside. -/
lemma eq_root_of_parent_outside (hs : database.Sound) (ha : a ∈ database.rows)
    (hown : ¬ database.rows.IsOwnParent a.id) (hb : b ∈ database.rows)
    (hmem : b.id ∈ database.treeOrder a.id) {parent : TaskId} (hparent : b.parent = some parent)
    (hout : parent ∉ database.treeOrder a.id) : b = a := by
  rw [hs.mem_treeOrder hown ⟨a, ha, rfl⟩] at hmem hout
  generalize hid : b.id = id at hmem
  cases hmem with
  | root => exact hs.eq_of_id hb ha hid
  | @child row other hrow hp hu =>
      rw [hs.eq_of_id hrow hb hid.symm, hparent] at hp
      exact absurd (Option.some.inj hp ▸ hu) hout

/-- The second cancellation resumes the parent of its task, if the first one has neither cancelled
nor resumed this parent. -/
lemma resumedBy_treeCancelled (hs : database.Sound) (ha : a ∈ database.rows)
    (hown : ¬ database.rows.IsOwnParent a.id) (hb : b ∈ database.rows) (row : Row) :
    (database.treeCancelled now a.id).rows.ResumedBy b.id (database.cancelledRow now a.id row) ↔
      database.rows.ResumedBy b.id row ∧ row.id ∉ database.treeOrder a.id ∧
        ¬ database.rows.ResumedBy a.id row := by
  have hafter := resumedBy_iff (sound_treeCancelled hs ha hown)
    (mem_treeCancelled hs ha hown hb now) (database.cancelledRow now a.id row)
  rw [(database.cancelledRow_place now a.id b).1, (database.cancelledRow_place now a.id b).2,
    (database.cancelledRow_place now a.id row).1, isLive_cancelledRow,
    hasStatus_waiting_cancelledRow] at hafter
  rw [hafter, resumedBy_iff hs hb]
  constructor
  · tauto
  · rintro ⟨⟨hw, hlive, hparent⟩, hout, hnot⟩
    refine ⟨⟨hw, hout, hnot⟩, ⟨hlive, fun hmem => ?_⟩, hparent⟩
    -- in the first tree the second task could only be the first one
    obtain rfl := eq_root_of_parent_outside hs ha hown hb hmem hparent hout
    exact hnot ((resumedBy_iff hs ha row).mpr ⟨hw, hlive, hparent⟩)

/-- The tree of a task can be cancelled: the task is there, and is not its own parent. -/
def Cancellable (database : Database) (id : TaskId) : Prop :=
  (∃ row ∈ database.rows, row.id = id) ∧ ¬ database.rows.IsOwnParent id

lemma cancellable_treeCancelled (hs : database.Sound) (ha : a ∈ database.rows)
    (hown : ¬ database.rows.IsOwnParent a.id) {id : TaskId} :
    (database.treeCancelled now a.id).Cancellable id ↔ database.Cancellable id := by
  refine and_congr ?_ (not_congr (isOwnParent_treeCancelled hs ha hown))
  rw [rows_treeCancelled hs ha hown]
  constructor
  · rintro ⟨row, hrow, hid⟩
    obtain ⟨old, hold, rfl⟩ := List.mem_map.mp hrow
    exact ⟨old, hold, (database.cancelledRow_place now a.id old).1.symm.trans hid⟩
  · rintro ⟨old, hold, hid⟩
    exact ⟨_, List.mem_map_of_mem hold, (database.cancelledRow_place now a.id old).1.trans hid⟩

/-! ### Rows behind two trees -/

/-- What the cancellations of two trees make of a row. -/
def bothCancelledRow (database : Database) (now : Micros) (a b : TaskId) (row : Row) : Row :=
  if (row.id ∈ database.treeOrder a ∨ row.id ∈ database.treeOrder b) ∧ row.isLive = true then
    row.cancelled now
  else if database.rows.ResumedBy a row ∨ database.rows.ResumedBy b row then row.resumed now
  else row

lemma bothCancelledRow_comm (database : Database) (now : Micros) (a b : TaskId) :
    database.bothCancelledRow now a b = database.bothCancelledRow now b a :=
  funext fun _ => if_congr (and_congr_left' or_comm) rfl (if_congr or_comm rfl rfl)

section

variable (hs : database.Sound) (ha : a ∈ database.rows)
    (hownA : ¬ database.rows.IsOwnParent a.id) (hb : b ∈ database.rows)
    (hownB : ¬ database.rows.IsOwnParent b.id)
include hs ha hownA hb hownB

/-- The second cancellation makes of a row behind the first one what both make of it. -/
lemma cancelledRow_cancelledRow (row : Row) :
    (database.treeCancelled now a.id).cancelledRow now b.id (database.cancelledRow now a.id row) =
      database.bothCancelledRow now a.id b.id row := by
  rw [cancelledRow]
  simp only [(database.cancelledRow_place now a.id row).1, isLive_cancelledRow,
    mem_treeOrder_treeCancelled hs ha hownA hb hownB, resumedBy_treeCancelled hs ha hownA hb]
  rw [bothCancelledRow, cancelledRow]
  by_cases hin : row.id ∈ database.treeOrder a.id ∧ row.isLive = true
  · -- the second cancellation leaves a row that the first one has cancelled
    rw [if_pos hin, if_neg fun h => h.2.2 hin.1, if_neg fun h => h.2.1 hin.1,
      if_pos ⟨.inl hin.1, hin.2⟩]
  have hcancelled : (row.id ∈ database.treeOrder b.id ∧
      row.isLive = true ∧ row.id ∉ database.treeOrder a.id) ↔
      (row.id ∈ database.treeOrder a.id ∨ row.id ∈ database.treeOrder b.id) ∧
        row.isLive = true := by
    tauto
  rw [if_neg hin]
  by_cases hfirst : database.rows.ResumedBy a.id row
  · rw [if_pos hfirst]
    refine if_congr hcancelled rfl ?_
    rw [if_neg fun h => h.2.2 hfirst, if_pos (.inl hfirst)]
  · rw [if_neg hfirst]
    refine if_congr hcancelled rfl (if_congr ?_ rfl rfl)
    rw [or_iff_right hfirst]
    refine and_iff_left_of_imp fun h => ⟨fun hmem => hin ⟨hmem, ?_⟩, hfirst⟩
    exact Row.isLive_of_waiting h.1

/-- The cancellations of two trees are one change of every row on its own. -/
theorem treeCancelled_treeCancelled (now : Micros) :
    (database.treeCancelled now a.id).treeCancelled now b.id =
      database.change (fun _ => true) (database.bothCancelledRow now a.id b.id) := by
  have hsecond := treeCancelled_eq_change (sound_treeCancelled hs ha hownA)
    (mem_treeCancelled hs ha hownA hb now)
  rw [(database.cancelledRow_place now a.id b).1] at hsecond
  calc (database.treeCancelled now a.id).treeCancelled now b.id
      = (database.treeCancelled now a.id).change (fun _ => true)
          ((database.treeCancelled now a.id).cancelledRow now b.id) :=
        hsecond (mt (isOwnParent_treeCancelled hs ha hownA).mp hownB) now
    _ = (database.change (fun _ => true) (database.cancelledRow now a.id)).change (fun _ => true)
          ((database.treeCancelled now a.id).cancelledRow now b.id) :=
        congrArg (fun before : Database => before.change (fun _ => true)
          ((database.treeCancelled now a.id).cancelledRow now b.id))
          (treeCancelled_eq_change hs ha hownA now)
    _ = database.change (fun _ => true) (database.bothCancelledRow now a.id b.id) := by
        rw [change_change]
        exact change_congr fun row _ => cancelledRow_cancelledRow hs ha hownA hb hownB row

/-- Together the two cancellations count the rows of both trees that are not at an end, each
once. -/
lemma liveAmong_treeCancelled (now : Micros) :
    database.liveAmong (database.treeOrder a.id) +
        (database.treeCancelled now a.id).liveAmong
          ((database.treeCancelled now a.id).treeOrder b.id) =
      database.liveAmong (database.treeOrder a.id ++ database.treeOrder b.id) := by
  have hsplit := List.countP_eq_countP_filter_add database.rows
    (fun row => (database.treeOrder a.id ++ database.treeOrder b.id).contains row.id && row.isLive)
    fun row => (database.treeOrder a.id).contains row.id
  have hfirst : (database.rows.filter fun row => (database.treeOrder a.id).contains row.id).countP
      (fun row =>
        (database.treeOrder a.id ++ database.treeOrder b.id).contains row.id && row.isLive) =
      database.liveAmong (database.treeOrder a.id) := by
    rw [List.countP_filter]
    refine List.countP_congr fun row _ => ?_
    simp only [Bool.and_eq_true, List.contains_iff_mem, List.mem_append]
    tauto
  have hsecond : (database.rows.filter fun row =>
        !(database.treeOrder a.id).contains row.id).countP
      (fun row =>
        (database.treeOrder a.id ++ database.treeOrder b.id).contains row.id && row.isLive) =
      (database.treeCancelled now a.id).liveAmong
        ((database.treeCancelled now a.id).treeOrder b.id) := by
    rw [liveAmong, rows_treeCancelled hs ha hownA, List.countP_map, List.countP_filter]
    refine List.countP_congr fun row _ => ?_
    simp only [Function.comp_apply, Bool.and_eq_true, List.contains_iff_mem, List.mem_append,
      Bool.not_eq_true', Bool.eq_false_iff, Ne, (database.cancelledRow_place now a.id row).1,
      mem_treeOrder_treeCancelled hs ha hownA hb hownB, isLive_cancelledRow]
    tauto
  rw [← hfirst, ← hsecond]
  exact hsplit.symm

end

lemma liveAmong_append_comm (database : Database) (ids others : List TaskId) :
    database.liveAmong (ids ++ others) = database.liveAmong (others ++ ids) := by
  refine List.countP_congr fun row _ => ?_
  simp only [Bool.and_eq_true, List.contains_iff_mem, List.mem_append, or_comm]

end Database

/-! ### The calls -/

namespace Store

variable {store : Store}

/-- Two cancellations, one behind the other. -/
lemma perform_cancel_cancel (quiet : store.begin.Quiet) (channel : Channel) {a b : Row}
    (ha : a ∈ store.database.rows) (hownA : ¬ store.database.rows.IsOwnParent a.id)
    (hb : b ∈ store.database.rows) (hownB : ¬ store.database.rows.IsOwnParent b.id) :
    let first := store.perform channel (.cancel a.id)
    let second := first.store.perform channel (.cancel b.id)
    second.store = { store with
        database := store.database.change (fun _ => true)
          (store.database.bothCancelledRow store.clock a.id b.id) } ∧
      ∃ m n : Nat, first.answer = .ok (.cancelled m) ∧ second.answer = .ok (.cancelled n) ∧
        m + n = store.database.liveAmong
          (store.database.treeOrder a.id ++ store.database.treeOrder b.id) := by
  intro first second
  have sound : store.database.Sound := quiet.sound
  have hfirst : first = _ := perform_cancel quiet channel ha hownA
  have quiet' := quiet_treeCancelled quiet ha hownA store.clock
  have hsecond := perform_cancel quiet' channel
    (Database.mem_treeCancelled sound ha hownA hb store.clock)
  rw [(store.database.cancelledRow_place store.clock a.id b).1] at hsecond
  have hreply : second = _ := (congrArg (fun reply : Reply TaskError Answer =>
    reply.store.perform channel (.cancel b.id)) hfirst).trans
      (hsecond (mt (Database.isOwnParent_treeCancelled sound ha hownA).mp hownB))
  refine ⟨?_, _, _, congrArg Reply.answer hfirst, congrArg Reply.answer hreply, ?_⟩
  · rw [hreply]
    exact congrArg (fun database => { store with database })
      (Database.treeCancelled_treeCancelled sound ha hownA hb hownB store.clock)
  · exact Database.liveAmong_treeCancelled sound ha hownA hb hownB store.clock

/-- The cancellation of a task that is not there, or is its own parent, changes nothing. -/
lemma perform_cancel_idle (quiet : store.begin.Quiet) (channel : Channel) {id : TaskId}
    (h : ¬ store.database.Cancellable id) :
    (store.perform channel (.cancel id)).store = store := by
  rw [perform_quiet quiet]
  exact congrArg (fun database => { store with database }) (if_neg h)

/-- Nor does it behind another cancellation. -/
lemma perform_cancel_idle_behind (quiet : store.begin.Quiet) (channel : Channel) {a : TaskId}
    (h : ¬ store.database.Cancellable a) (b : TaskId) :
    ((store.perform channel (.cancel b)).store.perform channel (.cancel a)).store =
      (store.perform channel (.cancel b)).store := by
  by_cases hb : store.database.Cancellable b
  · obtain ⟨⟨row, hrow, rfl⟩, hown⟩ := hb
    rw [perform_cancel quiet channel hrow hown]
    refine perform_cancel_idle (quiet_treeCancelled quiet hrow hown store.clock) channel ?_
    exact mt (Database.cancellable_treeCancelled quiet.sound hrow hown).mp h
  · rw [perform_cancel_idle quiet channel hb, perform_cancel_idle quiet channel h]

/-- The order of two cancellations does not matter. -/
lemma perform_cancel_comm (quiet : store.begin.Quiet) (channel : Channel) (a b : TaskId) :
    ((store.perform channel (.cancel a)).store.perform channel (.cancel b)).store =
      ((store.perform channel (.cancel b)).store.perform channel (.cancel a)).store := by
  by_cases ha : store.database.Cancellable a
  · by_cases hb : store.database.Cancellable b
    · obtain ⟨⟨rowA, hrowA, rfl⟩, hownA⟩ := ha
      obtain ⟨⟨rowB, hrowB, rfl⟩, hownB⟩ := hb
      rw [(perform_cancel_cancel quiet channel hrowA hownA hrowB hownB).1,
        (perform_cancel_cancel quiet channel hrowB hownB hrowA hownA).1,
        Database.bothCancelledRow_comm]
    · rw [perform_cancel_idle_behind quiet channel hb, perform_cancel_idle quiet channel hb]
  · rw [perform_cancel_idle_behind quiet channel ha, perform_cancel_idle quiet channel ha]

open scoped Classical in
/-- Two cancellations at the same time, in every reachable store. Whatever tasks they name, both
orders leave the same store, with the same columns in every row. If both tasks are there and
neither is its own parent, then each of the four calls answers how many tasks it has cancelled.
In both orders the two counts add up to the tasks of the two trees that were not at an end. Of a
task that is its own parent the tree has no end, and its cancellation counts nothing. -/
theorem cancels_commute (start now : Micros) (channel : Channel) (calls : List Call)
    (a b : TaskId) :
    let store : Store := { (initial start).play channel calls with clock := now }
    let table := store.database.rows
    let first (id : TaskId) := store.perform channel (.cancel id)
    let second (id other : TaskId) := (first id).store.perform channel (.cancel other)
    (second a b).store = (second b a).store ∧
      ((∃ row ∈ table, row.id = a) → ¬ table.IsOwnParent a →
        (∃ row ∈ table, row.id = b) → ¬ table.IsOwnParent b →
        ∃ m n k l : Nat,
          (first a).answer = .ok (.cancelled m) ∧ (second a b).answer = .ok (.cancelled n) ∧
            (first b).answer = .ok (.cancelled k) ∧ (second b a).answer = .ok (.cancelled l) ∧
            m + n = k + l ∧
            m + n = table.countP fun row =>
              (table.Under a row.id ∨ table.Under b row.id) ∧ row.isLive = true) ∧
      (table.IsOwnParent a →
        (∀ rounds, Database.walk table rounds (table.filter fun row => row.id == a) = none) ∧
          first a = ⟨.error (.refused .queryCanceled), [], store⟩) := by
  intro store table first second
  have played := play_quiet start channel calls
  have quiet : store.begin.Quiet := ⟨played.fault, played.tasks, played.sound⟩
  refine ⟨perform_cancel_comm quiet channel a b, ?_,
    fun hown => ⟨Database.walk_eq_none hown, perform_cancel_endless quiet hown⟩⟩
  rintro ⟨rowA, hrowA, rfl⟩ hownA ⟨rowB, hrowB, rfl⟩ hownB
  have sound : store.database.Sound := played.sound
  obtain ⟨-, m, n, hm, hn, hab⟩ :=
    perform_cancel_cancel quiet channel hrowA hownA hrowB hownB
  obtain ⟨-, k, l, hk, hl, hba⟩ :=
    perform_cancel_cancel quiet channel hrowB hownB hrowA hownA
  rw [Database.liveAmong_append_comm] at hba
  refine ⟨m, n, k, l, hm, hn, hk, hl, hab.trans hba.symm, hab.trans ?_⟩
  refine List.countP_congr fun row _ => ?_
  rw [Bool.and_eq_true, List.contains_iff_mem, List.mem_append, decide_eq_true_iff,
    sound.mem_treeOrder hownA ⟨rowA, hrowA, rfl⟩, sound.mem_treeOrder hownB ⟨rowB, hrowB, rfl⟩]

/-- A task and its child, which is cancelled before it or with it. -/
example :
    let calls : List Call :=
      [.perform (.create "sum" none), .perform (.createChild 1 "job" none)]
    let store := (initial 0).play .standard calls
    let first (id : TaskId) := store.perform .standard (.cancel id)
    let second (id other : TaskId) := (first id).store.perform .standard (.cancel other)
    (first 2).answer = .ok (.cancelled 1) ∧ (second 2 1).answer = .ok (.cancelled 1) ∧
      (first 1).answer = .ok (.cancelled 2) ∧ (second 1 2).answer = .ok (.cancelled 0) := by
  cbv

/-- The first task is created as a child of itself, the second one without a parent. Both are
there, but there is no order in which both cancellations answer a count: the walk down the tree of
the first task has no end. -/
theorem cancels_uncounted :
    let calls : List Call :=
      [.perform (.createChild 1 "job" none), .perform (.create "job" none)]
    let store := (initial 0).play .standard calls
    let first (id : TaskId) := store.perform .standard (.cancel id)
    let second (id other : TaskId) := (first id).store.perform .standard (.cancel other)
    (∃ row ∈ store.database.rows, row.id = 1) ∧ (∃ row ∈ store.database.rows, row.id = 2) ∧
      (∀ rounds, Database.walk store.database.rows rounds
        (store.database.rows.filter fun row => row.id == 1) = none) ∧
      ¬ ∃ m n k l : Nat,
        (first 1).answer = .ok (.cancelled m) ∧ (second 1 2).answer = .ok (.cancelled n) ∧
          (first 2).answer = .ok (.cancelled k) ∧ (second 2 1).answer = .ok (.cancelled l) ∧
          m + n = k + l := by
  intro calls store first second
  have hrows : store.database.rows =
      [.fresh 0 1 "job" Json.emptyObject (some 1), .fresh 0 2 "job" Json.emptyObject none] := rfl
  have hown : store.database.rows.IsOwnParent 1 := by
    rw [hrows]
    exact ⟨_, List.mem_cons_self, rfl, rfl⟩
  have hanswer : (first 1).answer = .error (.refused .queryCanceled) := rfl
  refine ⟨by decide, by decide, Database.walk_eq_none hown, ?_⟩
  rintro ⟨m, n, k, l, hm, -⟩
  cases hanswer.symm.trans hm

end Store
end LeaseQueue
