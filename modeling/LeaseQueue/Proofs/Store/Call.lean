/-
Runs of a store: clients and workers call it in any order, and time passes.

* `TransactionStep`, `Session.through`: what a client does in an explicit transaction;
* `Call`, `Call.next`: a call and the store behind it; transactions run one at a time;
* `Store.initial`, `Store.play`: the empty migrated store, and the store behind a run.
-/
import LeaseQueue.Proofs.Handler.Beside
import LeaseQueue.Store.Session

namespace LeaseQueue

/-! ### Explicit transactions -/

/-- What happens while an explicit transaction is open. -/
inductive TransactionStep where
  | perform (operation : Operation)
  | pass (micros : Nat)

/-- The answers to the operations of some steps, and the session behind them. -/
def Session.through (session : Session) :
    List TransactionStep → List (Except TaskError Answer) × Session
  | [] => ([], session)
  | .perform operation :: rest =>
    let reply := session.perform operation
    let (answers, session) := reply.session.through rest
    (reply.answer :: answers, session)
  | .pass micros :: rest =>
    { session with store := session.store.advance micros }.through rest

/-! ### Calls -/

/-- A call of the store: an operation, a claim, a renewal or the end of a run in a
transaction of its own, the run of a handler, an explicit transaction that is kept or
undone; or time passes. -/
inductive Call where
  | perform (operation : Operation)
  | claim (types : List String) (worker : WorkerId) (lease : Duration)
  | renew (task : TaskId) (worker : WorkerId) (lease : Duration)
  | finish (task : TaskId) (worker : WorkerId) (outcome : Outcome)
  | run (handler : Handler) (task : ClaimedTask) (earlierRuns : Nat) (beats : Nat → List Beat)
  | transaction (steps : List TransactionStep) (keep : Bool)
  | pass (micros : Nat)

namespace Store

/-- The session behind the steps of an explicit transaction, which is still open. -/
def opened (store : Store) (channel : Channel) (steps : List TransactionStep) : Session :=
  ((Session.mk store channel none).begin.through steps).2

/-- The explicit transaction is kept, and its commit takes effect. -/
def lands (store : Store) (channel : Channel) (steps : List TransactionStep) (keep : Bool) : Bool :=
  keep && (store.opened channel steps).open?.any fun tx => decide tx.Lands

/-- The store behind an explicit transaction. -/
def transaction (store : Store) (channel : Channel) (steps : List TransactionStep)
    (keep : Bool) : Store :=
  if keep then (store.opened channel steps).commit.session.store
  else (store.opened channel steps).rollback.store

end Store

/-- The store behind a call. -/
def Call.next (channel : Channel) (store : Store) : Call → Store
  | .perform operation => (store.perform channel operation).store
  | .claim types worker lease => (store.claim types worker lease).store
  | .renew task worker lease => (store.renew task worker lease).store
  | .finish task worker outcome => (store.finish channel task worker outcome).store
  | .run handler task earlierRuns beats =>
    (store.runBeating channel handler task earlierRuns beats).store
  | .transaction steps keep => store.transaction channel steps keep
  | .pass micros => store.advance micros

namespace Store

/-- The store behind a run of calls. -/
def play (store : Store) (channel : Channel) (calls : List Call) : Store :=
  calls.foldl (Call.next channel) store

@[simp] theorem play_nil (store : Store) (channel : Channel) : store.play channel [] = store := rfl

theorem play_append (store : Store) (channel : Channel) (first rest : List Call) :
    store.play channel (first ++ rest) = (store.play channel first).play channel rest :=
  List.foldl_append

theorem play_concat (store : Store) (channel : Channel) (calls : List Call) (call : Call) :
    store.play channel (calls ++ [call]) = call.next channel (store.play channel calls) := by
  rw [play_append]
  rfl

/-- The empty store behind the migrations. -/
def initial (clock : Micros) : Store := ({ clock } : Store).migrate.store

/-- Its task table is there and empty. -/
theorem initial_eq (clock : Micros) :
    initial clock =
      { database :=
          { tasks := some [], nextId := 1, migrations := some [⟨"0001_create_tasks", clock⟩] }
        clock } := by
  rfl

end Store
end LeaseQueue
