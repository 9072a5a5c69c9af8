/-
Outcomes that no store can tell apart.

* `Outcome.Alike`: two outcomes agree in all that becomes of a row;
* `Store.finish_congr`: then every store answers to both of them the same, publishes the same and is
  left the same;
* `Store.given`: a store behind a run in which a task runs with a state of our choice;
* `Store.alike_of_finish`: outcomes that do the same to every store behind a run are alike.
-/
import LeaseQueue.Proofs.Store.Call
import LeaseQueue.Proofs.Store.Perform

namespace LeaseQueue

/-- Two outcomes have the same status, unless it is refused the same state if any, and of a failure
the same message, where none is the empty one. -/
structure Outcome.Alike (a b : Outcome) : Prop where
  status : a.status = b.status
  state : a.status ≠ .running → a.state = b.state
  message : a.status = .failed → a.error.getD "" = b.error.getD ""

variable {a b : Outcome}

/-! ### Alike outcomes -/

/-- Alike outcomes make the same of a row. -/
lemma Outcome.Alike.finished (h : a.Alike b) (hp : a.status ≠ .running) (now : Micros) :
    Row.finished now a = Row.finished now b := by
  have hmessage : (if a.status = .failed then some (a.error.getD "") else none) =
      if b.status = .failed then some (b.error.getD "") else none := by
    rw [← h.status]
    split_ifs with hf
    · rw [h.message hf]
    · rfl
  funext row
  rw [Row.finished, Row.finished, hmessage, h.status, h.state hp]

/-- They are the same final write, in any transaction. -/
lemma TaskAction.finish_congr (h : a.Alike b) (channel : Channel) (task : TaskId)
    (worker : WorkerId) :
    TaskAction.finish channel task worker a = TaskAction.finish channel task worker b := by
  by_cases hp : a.status = .running
  · rw [finish, finish, if_pos hp, if_pos (h.status ▸ hp), h.status]
  · have hwrite : ∀ (now : Micros) (database : Database),
        database.finishTask now task worker a = database.finishTask now task worker b := by
      intro now database
      rw [Database.finishTask, Database.finishTask, h.finished hp]
    simp only [finish, hwrite, h.status]

namespace Store

/-- They do the same to every store, whatever is in it and whichever failure is planned. -/
lemma finish_congr (h : a.Alike b) (store : Store) (channel : Channel) (task : TaskId)
    (worker : WorkerId) :
    store.finish channel task worker a = store.finish channel task worker b := by
  rw [finish, finish, TaskAction.finish_congr h]

/-! ### Outcomes that are not alike -/

/-- A worker has claimed a task of a given state. -/
def given (state : Json) : List Call :=
  [.perform (.create "job" (some state)), .claim ["job"] "worker" (.ofSeconds 60)]

/-- The store in which the task runs, with one of two states. -/
lemma play_given {state : Json} (h : state ∈ [.null, .bool true]) :
    (initial 0).play .standard (given state) =
      { initial 0 with
        database := { (initial 0).database with
          nextId := 2
          tasks := some [(Row.fresh 0 1 "job" state none).claimed 0 "worker" 60000000] } } := by
  rcases List.mem_pair.mp h with rfl | rfl <;> decide +kernel

/-- What the end of its run answers, and what it leaves of the row. -/
lemma finish_given {state : Json} (h : state ∈ [.null, .bool true]) (outcome : Outcome)
    (hp : outcome.status ≠ .running) :
    let reply := ((initial 0).play .standard (given state)).finish .standard 1 "worker" outcome
    reply.answer = .ok ⟨1, outcome.status, none⟩ ∧
      reply.store.database.rows.map (fun row => (row.state, row.error)) =
        [(outcome.state.getD state,
          if outcome.status = .failed then some (outcome.error.getD "") else none)] := by
  rw [play_given h]
  obtain ⟨final, status, error⟩ := outcome
  cases status with
  | running => exact absurd rfl hp
  | pending | waiting | completed | failed => exact ⟨rfl, rfl⟩

/-- Two optional values are the same if they are so over two different defaults. -/
lemma state_ext {a b : Option Json} (h : a.getD .null = b.getD .null)
    (h' : a.getD (.bool true) = b.getD (.bool true)) : a = b := by
  cases a with
  | none =>
      cases b with
      | none => rfl
      | some value => cases h.trans h'.symm
  | some value =>
      cases b with
      | none => cases h.symm.trans h'
      | some other => exact congrArg some h

/-- Outcomes that do the same to every store behind a run are alike. -/
lemma alike_of_finish
    (h : ∀ calls task worker,
      let store := (initial 0).play .standard calls
      store.finish .standard task worker a = store.finish .standard task worker b) :
    a.Alike b := by
  have hnull : Json.null ∈ [Json.null, .bool true] := List.mem_cons_self
  have hsame := h (given .null) 1 "worker"
  by_cases ha : a.status = .running
  · have hb : b.status = .running := by
      by_contra hb
      have hanswer := (finish_given hnull b hb).1
      rw [← hsame, finish_improper _ _ _ _ ha] at hanswer
      cases hanswer
    exact ⟨ha.trans hb.symm, absurd ha, fun hf => absurd (ha.symm.trans hf) nofun⟩
  · have hb : b.status ≠ .running := by
      intro hb
      have hanswer := (finish_given hnull a ha).1
      rw [hsame, finish_improper _ _ _ _ hb] at hanswer
      cases hanswer
    have hstatus : a.status = b.status := by
      have hanswer := (finish_given hnull a ha).1
      rw [hsame, (finish_given hnull b hb).1] at hanswer
      exact (congrArg Transition.status (Except.ok.inj hanswer)).symm
    have hrow : ∀ state ∈ [Json.null, .bool true],
        (a.state.getD state, if a.status = .failed then some (a.error.getD "") else none) =
          (b.state.getD state, if b.status = .failed then some (b.error.getD "") else none) := by
      intro state hstate
      have hleft := (finish_given hstate a ha).2
      rw [h (given state) 1 "worker", (finish_given hstate b hb).2] at hleft
      exact (List.singleton_inj.mp hleft).symm
    refine ⟨hstatus, fun _ => state_ext (congrArg Prod.fst (hrow _ hnull))
      (congrArg Prod.fst (hrow _ (List.mem_cons_of_mem _ List.mem_cons_self))), fun hf => ?_⟩
    have hmessage := congrArg Prod.snd (hrow _ hnull)
    rw [if_pos hf, if_pos (hstatus ▸ hf)] at hmessage
    exact Option.some.inj hmessage

end Store
end LeaseQueue
