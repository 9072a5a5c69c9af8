/-
A session of a client: calls of the store, and explicit transactions.

* `Session`: a store and perhaps a transaction that is open;
* `Session.perform`: an operation, in the open transaction or in one of its own;
* `Session.begin`, `Session.commit`, `Session.rollback`: an explicit transaction;
* `Session.call`: any other call of the store.

Inside an explicit transaction nothing is published before its commit.
-/
import LeaseQueue.Store

namespace LeaseQueue

/-- A session of a client. -/
structure Session where
  store : Store
  channel : Channel
  open? : Option Transaction := none

namespace Session

/-- What a call leaves. -/
structure Reply (ε α : Type) where
  answer : Except ε α
  published : List Channel
  session : Session

variable {ε α : Type}

/-- Calls the store. -/
def call (session : Session) (reply : Store.Reply ε α) : Reply ε α :=
  ⟨reply.answer, reply.published, { session with store := reply.store }⟩

/-- Performs an operation. -/
def perform (session : Session) (operation : Operation) : Reply TaskError Answer :=
  match session.open? with
  | none => session.call (session.store.perform session.channel operation)
  | some tx =>
    let (answer, tx) := (operation.action session.channel).run tx
    ⟨answer, [], { session with open? := some tx }⟩

/-- Opens an explicit transaction. -/
def begin (session : Session) : Session := { session with open? := some session.store.begin }

/-- Commits the open transaction. Without one nothing happens. -/
def commit (session : Session) : Reply SqlState Unit :=
  match session.open? with
  | none => ⟨.ok (), [], session⟩
  | some tx => { session with open? := none }.call (session.store.commit tx)

/-- Undoes the open transaction. -/
def rollback (session : Session) : Session :=
  match session.open? with
  | none => session
  | some tx => { session with store := session.store.rollback tx, open? := none }

/-- Sets the failure that is still to come. -/
def withFault (session : Session) (fault : Option PlannedFault) : Session :=
  { session with
    store := { session.store with fault }
    open? := session.open?.map fun tx => { tx with fault } }

end Session
end LeaseQueue
