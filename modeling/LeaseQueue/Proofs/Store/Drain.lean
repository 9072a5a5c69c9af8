/-
Claims one behind the other give every task that can be claimed, the oldest first, and then none,
as long as the states of these tasks can be read.

* `Row.before_trans`, `Table.not_before_oldest?`: the oldest of some rows comes before all others;
* `Database.Sound.ordered_mergeSort`: sorted rows stand in the order of their creation, each once;
* `Store.Queue`: the rows that can be claimed, in this order; `Store.Queue.claim`: a claim takes
  the first of them and leaves the others;
* `Store.claimAll`: claims of some types, one behind the other;
* `Store.behind`: the answer to a claim where no more rows can be given;
* `Store.claims_drain`: what they answer, in every reachable store and at every time;
* `Store.marked_undrained`: a task with a marked state that is never given, nor any behind it.

A lease ends at the time of its claim at the earliest, and a row whose lease ends now is not to be
had. So no claimed row comes back while the clock stands.
-/
import LeaseQueue.Proofs.Store.Claim
import LeaseQueue.Proofs.Store.Reachable

namespace LeaseQueue

/-! ### The oldest row -/

namespace Row

lemma before_iff {a b : Row} :
    a.before b = true ↔ a.created < b.created ∨ a.created = b.created ∧ a.id < b.id := by
  simp [before]

lemma before_self (row : Row) : row.before row = false := by
  simp [before]

lemma before_trans {a b c : Row} (hab : a.before b = true) (hbc : b.before c = true) :
    a.before c = true := by
  rw [before_iff] at *
  grind

/-- Of two rows of different numbers one comes before the other. -/
lemma before_total {a b : Row} (hne : a.id ≠ b.id) (h : b.before a = false) :
    a.before b = true := by
  rw [Bool.eq_false_iff, Ne, before_iff] at h
  rw [before_iff]
  grind

/-- A row whose lease does not end in the past cannot be claimed. -/
lemma not_eligible_claimed {now deadline : Micros} (hle : now ≤ deadline) (types : List String)
    (worker : WorkerId) (row : Row) :
    (row.claimed now worker deadline).isEligible now types = false := by
  have hnot : ¬ deadline < now := hle.not_gt
  simp [isEligible, claimed, hasStatus, leaseExpired, hnot]

end Row

/-- Some rows of a sound database in the order of their creation. -/
lemma Database.Sound.ordered_mergeSort {database : Database} (sound : database.Sound)
    (condition : Row → Bool) :
    ((database.rows.filter condition).mergeSort fun a b => !b.before a).Pairwise
      fun a b => a.before b = true := by
  have hsorted : ((database.rows.filter condition).mergeSort fun a b => !b.before a).Pairwise
      fun a b => (!b.before a) = true := by
    refine List.pairwise_mergeSort (fun a b c hab hbc => ?_) (fun a b => ?_) _
    · simp only [Bool.not_eq_true', Bool.eq_false_iff, Ne, Row.before_iff] at *
      grind
    · simp only [Bool.or_eq_true, Bool.not_eq_true', Bool.eq_false_iff, Ne, Row.before_iff]
      grind
  have hnodup : ((database.rows.filter condition).mergeSort fun a b => !b.before a).Pairwise
      fun a b => a.id ≠ b.id := by
    refine ((List.mergeSort_perm _ _).pairwise_iff fun h => h.symm).mpr ?_
    exact (sound.ordered.filter _).imp fun hlt => ne_of_lt hlt
  refine (hsorted.and hnodup).imp fun ⟨hle, hne⟩ => ?_
  exact Row.before_total hne (by simpa using hle)

/-- A lease does not end before it starts. -/
lemma Database.le_of_leaseDeadline? {now deadline : Micros} {lease : Duration}
    (h : leaseDeadline? now lease = some deadline) : now ≤ deadline := by
  obtain ⟨-, rfl, -⟩ := leaseDeadline?_eq_some_iff.mp h
  exact Int.le_add_of_nonneg_right (Int.natCast_nonneg _)

namespace Table

/-- A change of the row of a number, which takes it out of those that a condition picks. -/
lemma filter_update_only {table : Table} {pick : Row → Bool} {f : Row → Row} {id : TaskId}
    (hf : ∀ row ∈ table, row.id = id → pick (f row) = false) :
    (table.update (only id fun _ => true) f).filter pick =
      (table.filter pick).filter fun row => row.id != id := by
  induction table with
  | nil => rfl
  | cons row rest ih =>
      have hrest := ih fun other hother => hf other (List.mem_cons_of_mem _ hother)
      rw [update] at hrest ⊢
      by_cases hid : row.id = id
      · have hout := hf row List.mem_cons_self hid
        by_cases hp : pick row = true <;> simp_all [only]
      · by_cases hp : pick row = true <;> simp_all [only]

/-- No row comes before the oldest one. -/
lemma not_before_oldest? {table : Table} {row : Row} (h : table.oldest? = some row) :
    ∀ other ∈ table, other.before row = false := by
  induction table generalizing row with
  | nil => cases h
  | cons first rest ih =>
      rw [oldest?] at h
      cases hrest : oldest? rest with
      | none =>
          rw [hrest] at h
          obtain rfl := Option.some.inj h
          rw [oldest?_eq_none_iff.mp hrest]
          simpa using Row.before_self first
      | some oldest =>
          rw [hrest] at h
          intro other hother
          by_cases hfirst : first.before oldest = true
          · obtain rfl : first = row := by simpa [hfirst] using h
            rcases List.mem_cons.mp hother with rfl | hmem
            · exact Row.before_self other
            · -- what comes before the first row comes before the oldest of the others
              by_contra hbefore
              have hlt := Row.before_trans (by simpa using hbefore) hfirst
              rw [ih hrest other hmem] at hlt
              cases hlt
          · obtain rfl : oldest = row := by simpa [hfirst] using h
            rcases List.mem_cons.mp hother with rfl | hmem
            · simpa using hfirst
            · exact ih hrest other hmem

end Table

namespace Store

/-! ### The queue -/

/-- The rows of a store that can be claimed now, in the order of their creation. -/
structure Queue (store : Store) (types : List String) (queue : List Row) : Prop where
  perm : queue.Perm (store.database.rows.filter (Row.isEligible store.clock types))
  ordered : queue.Pairwise fun a b => a.before b = true

variable {store : Store} {types : List String} {queue : List Row} {row : Row}

/-- Every sound store has a queue. -/
lemma exists_queue (sound : store.database.Sound) (types : List String) :
    ∃ queue, store.Queue types queue :=
  ⟨_, List.mergeSort_perm _ _, sound.ordered_mergeSort _⟩

namespace Queue

lemma mem (h : store.Queue types queue) (hrow : row ∈ queue) :
    row ∈ store.database.rows ∧ row.isEligible store.clock types = true :=
  List.mem_filter.mp (h.perm.mem_iff.mp hrow)

/-- The first row of the queue is the oldest of those that can be claimed. -/
lemma oldest? (h : store.Queue types (row :: queue)) :
    Table.oldest? (store.database.rows.filter (Row.isEligible store.clock types)) = some row := by
  have hrow := h.perm.mem_iff.mp List.mem_cons_self
  cases ho : Table.oldest? (store.database.rows.filter (Row.isEligible store.clock types)) with
  | none =>
      rw [Table.oldest?_eq_none_iff.mp ho] at hrow
      cases hrow
  | some oldest =>
      have hnot := Table.not_before_oldest? ho row hrow
      rcases List.mem_cons.mp (h.perm.mem_iff.mpr (Table.oldest?_mem ho)) with rfl | hmem
      · rfl
      · rw [List.rel_of_pairwise_cons h.ordered hmem] at hnot
        cases hnot

/-- Behind the claim of the first row the others are left. -/
lemma leased (h : store.Queue types (row :: queue)) (sound : store.database.Sound)
    {lease : Duration} {deadline : Micros}
    (hd : Database.leaseDeadline? store.clock lease = some deadline) (worker : WorkerId) :
    (store.leased row worker deadline).Queue types queue := by
  obtain ⟨hrow, -⟩ := h.mem List.mem_cons_self
  obtain ⟨hfirst, hrest⟩ := List.pairwise_cons.mp h.ordered
  have hclaimed := Row.not_eligible_claimed (Database.le_of_leaseDeadline? hd) types worker row
  have hdifferent : ∀ other ∈ queue, other.id ≠ row.id := by
    intro other hother hid
    have hbefore := hfirst other hother
    rw [sound.eq_of_id (h.mem (List.mem_cons_of_mem _ hother)).1 hrow hid,
      Row.before_self] at hbefore
    cases hbefore
  -- the others stay what they are, and the row is not to be had any more
  have hqueue : (row :: queue).filter (fun other => other.id != row.id) = queue := by
    rw [List.filter_cons_of_neg (by simp)]
    exact List.filter_eq_self.mpr fun other hother => by simpa using hdifferent other hother
  have hrows : (store.leased row worker deadline).database.rows.filter
      (Row.isEligible store.clock types) =
      (store.database.rows.filter (Row.isEligible store.clock types)).filter
        fun other => other.id != row.id := by
    rw [Store.leased, Database.rows_change]
    refine Table.filter_update_only fun other hother hid => ?_
    rw [sound.eq_of_id hother hrow hid]
    exact hclaimed
  refine ⟨?_, hrest⟩
  rw [← hqueue]
  exact (h.perm.filter _).trans (.of_eq hrows.symm)

end Queue

/-! ### Claims one behind the other -/

/-- What a claim asks for: a lease for a worker. -/
structure Bid where
  worker : WorkerId
  lease : Duration
  deriving DecidableEq

/-- The answer to a claim that finds a row for its worker: the row is given, if its state can be
read. -/
def Bid.wins (row : Row) (bid : Bid) : Except TaskError Claim :=
  (row.given bid.worker).map .claimed

/-- The answers to claims of some types, one behind the other, and the store behind them. -/
def claimAll (store : Store) (types : List String) :
    List Bid → List (Except TaskError Claim) × Store
  | [] => ([], store)
  | bid :: rest =>
    let reply := store.claim types bid.worker bid.lease
    let (answers, last) := reply.store.claimAll types rest
    (reply.answer :: answers, last)

/-- The answer to a claim behind those that take the rows of a queue: no row is left, or the next
one cannot be read. -/
def behind (queue : List Row) : Except TaskError Claim :=
  if queue.all Row.isRead then .ok .empty else .error Row.unreadState

namespace Queue

/-- A claim looks at the first row of the queue: it takes the row, or it fails at its state and
changes nothing. -/
lemma claim (h : store.Queue types (row :: queue)) (quiet : store.begin.Quiet) (bid : Bid)
    {deadline : Micros} (hd : Database.leaseDeadline? store.clock bid.lease = some deadline) :
    store.claim types bid.worker bid.lease =
      ⟨bid.wins row, [], if row.isRead then store.leased row bid.worker deadline else store⟩ := by
  rw [claim_oldest quiet h.oldest?, hd]
  rfl

/-- A claim that finds the queue empty changes nothing. -/
lemma claim_nil (h : store.Queue types []) (quiet : store.begin.Quiet) {bid : Bid}
    (hinterval : Database.IsInterval bid.lease) :
    store.claim types bid.worker bid.lease = ⟨.ok .empty, [], store⟩ := by
  rw [claim_quiet quiet, h.perm.nil_eq.symm, if_neg (not_not.mpr hinterval)]
  exact ite_self _

/-- Claims take the rows of the queue one by one, up to the first one that cannot be read. From
there on all of them get the same answer, and change nothing. -/
theorem claimAll (bids : List Bid) :
    ∀ (store : Store) (queue : List Row), store.Queue types queue → store.begin.Quiet →
      (∀ bid ∈ bids, (Database.leaseDeadline? store.clock bid.lease).isSome = true) →
      let given := queue.takeWhile Row.isRead
      (store.claimAll types bids).1 =
          List.zipWith Bid.wins given bids ++
            List.replicate (bids.length - given.length) (behind queue) ∧
        (store.claimAll types bids).2 = (store.claimAll types (bids.take given.length)).2 := by
  induction bids with
  | nil =>
      intro store queue _ _ _
      simp [Store.claimAll]
  | cons bid rest ih =>
      intro store queue h quiet representable
      obtain ⟨hbid, hrest⟩ := List.forall_mem_cons.mp representable
      obtain ⟨deadline, hd⟩ := Option.isSome_iff_exists.mp hbid
      have hinterval := (Database.leaseDeadline?_eq_some_iff.mp hd).1
      cases queue with
      | nil =>
          obtain ⟨hanswers, hlast⟩ := ih store [] h quiet hrest
          simp only [List.takeWhile_nil, List.length_nil, List.take_zero, Store.claimAll,
            claim_nil h quiet hinterval] at hlast ⊢
          refine ⟨?_, hlast⟩
          rw [hanswers]
          simp [List.replicate_succ, behind]
      | cons row queue =>
          have hclaim := h.claim quiet bid hd
          by_cases hread : row.isRead = true
          · rw [if_pos hread] at hclaim
            have quiet' : (store.leased row bid.worker deadline).begin.Quiet := by
              have sound := (store.steps_claim types bid.worker bid.lease).sound quiet.sound
              have tasks := (store.steps_claim types bid.worker bid.lease).tasks quiet.tasks
              rw [hclaim] at sound tasks
              exact ⟨quiet.fault, tasks, sound⟩
            obtain ⟨hanswers, hlast⟩ := ih _ queue (h.leased quiet.sound hd bid.worker) quiet' hrest
            simp only [List.takeWhile_cons_of_pos hread, List.length_cons, List.take_succ_cons,
              Store.claimAll, hclaim]
            refine ⟨?_, hlast⟩
            rw [hanswers]
            simp [behind, hread]
          · rw [if_neg hread] at hclaim
            have hwins : bid.wins row = .error Row.unreadState := by
              rw [Bid.wins, Row.given]
              obtain ⟨state, hstate⟩ | hstate := row.readState_cases
              · exact absurd (row.isRead_iff.mpr ⟨state, hstate⟩) hread
              · rw [hstate]
                rfl
            obtain ⟨hanswers, hlast⟩ := ih store (row :: queue) h quiet hrest
            simp only [List.takeWhile_cons_of_neg hread, List.length_nil, List.take_zero,
              Store.claimAll, hclaim] at hanswers hlast ⊢
            refine ⟨?_, hlast⟩
            rw [hanswers, hwins]
            simp [List.replicate_succ, behind, hread]

end Queue

/-- Claims of some types, one behind the other at one time. The tasks that can be claimed at the
start, pending or running under a lease that has ended before and of one of the types, stand in a
queue, the one that was created first before all others. The claims give each of them once, in this
order, with the state that comes back from its column, up to the first one whose state does not.
From there on every claim fails at that state, and changes nothing. So if all states come back, the
claims give every task that can be claimed, and all further claims answer that there is none, and
leave the store as it is. -/
theorem claims_drain (start now : Micros) (channel : Channel) (calls : List Call)
    (types : List String) (bids : List Bid)
    (representable : ∀ bid ∈ bids, (Database.leaseDeadline? now bid.lease).isSome = true) :
    let store : Store := { (initial start).play channel calls with clock := now }
    ∃ queue : List Row,
      queue.Perm (store.database.rows.filter (Row.isEligible now types)) ∧
        (queue.map Row.id).Nodup ∧
        queue.Pairwise (fun a b => a.created < b.created ∨ a.created = b.created ∧ a.id < b.id) ∧
        (let given := queue.takeWhile Row.isRead
        (store.claimAll types bids).1 =
            List.zipWith Bid.wins given bids ++
              List.replicate (bids.length - given.length) (behind queue) ∧
          (store.claimAll types bids).2 = (store.claimAll types (bids.take given.length)).2) ∧
        ((∀ row ∈ queue, row.isRead = true) →
          (store.claimAll types bids).1 =
              List.zipWith Bid.wins queue bids ++
                List.replicate (bids.length - queue.length) (.ok .empty) ∧
            (store.claimAll types bids).2 = (store.claimAll types (bids.take queue.length)).2) := by
  intro store
  have played := play_quiet start channel calls
  have quiet : store.begin.Quiet := ⟨played.fault, played.tasks, played.sound⟩
  have sound : store.database.Sound := played.sound
  obtain ⟨queue, hqueue⟩ := exists_queue sound types
  have hclaims := Queue.claimAll bids store queue hqueue quiet representable
  refine ⟨queue, hqueue.perm, ?_, hqueue.ordered.imp Row.before_iff.mp, hclaims, fun hread => ?_⟩
  · refine (hqueue.perm.map Row.id).nodup_iff.mpr ?_
    exact List.pairwise_map.mpr ((sound.ordered.filter _).imp fun hlt => ne_of_lt hlt)
  · have hempty : behind queue = .ok .empty := if_pos (List.all_eq_true.mpr hread)
    have hgiven : queue.takeWhile Row.isRead = queue := by
      have happend : (queue ++ []).takeWhile Row.isRead = queue ++ [].takeWhile Row.isRead :=
        List.takeWhile_append_of_pos hread
      simpa using happend
    rwa [hgiven, hempty] at hclaims

/-- A task whose worker is gone, and two that are pending. The task of another type is left. -/
theorem backlog_drained :
    let calls : List Call :=
      [.perform (.create "job" none), .claim ["job"] "gone" (.ofMillis 0), .pass 1,
        .perform (.create "mail" none), .perform (.create "scan" none),
        .perform (.create "job" none)]
    let bids : List Bid :=
      [⟨"a", .ofMillis 0⟩, ⟨"b", .ofSeconds 60⟩, ⟨"c", .ofMillis 0⟩, ⟨"d", .ofMillis 0⟩]
    let store : Store := { (initial 0).play .standard calls with clock := 1 }
    (∀ bid ∈ bids, (Database.leaseDeadline? 1 bid.lease).isSome = true) ∧
      (store.claimAll ["job", "mail"] bids).1 =
        [.ok (.claimed ⟨1, "job", Json.emptyObject, "a"⟩),
          .ok (.claimed ⟨2, "mail", Json.emptyObject, "b"⟩),
          .ok (.claimed ⟨4, "job", Json.emptyObject, "c"⟩), .ok .empty] ∧
      ∃ queue : List Row,
        queue.Perm (store.database.rows.filter (Row.isEligible 1 ["job", "mail"])) ∧
          (store.claimAll ["job", "mail"] bids).1 =
            List.zipWith Bid.wins queue bids ++ List.replicate (4 - queue.length) (.ok .empty) := by
  intro calls bids store
  have representable : ∀ bid ∈ bids, (Database.leaseDeadline? 1 bid.lease).isSome = true := by
    decide +kernel
  obtain ⟨queue, hperm, -, -, -, hall⟩ :=
    claims_drain 0 1 .standard calls ["job", "mail"] bids representable
  have hread : ∀ row ∈ store.database.rows.filter (Row.isEligible 1 ["job", "mail"]),
      row.isRead = true := by decide +kernel
  have hanswers := (hall fun row hrow => hread row (hperm.mem_iff.mp hrow)).1
  exact ⟨representable, by decide +kernel, queue, hperm, hanswers⟩

/-- A state whose longer key comes first where it is written, and its mark where it is kept. -/
def markedLater : Json :=
  .object [(Json.mark, .string "1"), ("kkkkkkkkkkkkkkkkkkkkkkkkkkkkkkk", .int 0)]

/-- Claims fail at a task whose state cannot be read, and the task behind it is never given. -/
theorem marked_undrained :
    let calls : List Call :=
      [.perform (.create "job" (some markedLater)), .perform (.create "job" none)]
    let store := (initial 0).play .standard calls
    (store.database.rows.filter (Row.isEligible 0 ["job"])).map Row.id = [1, 2] ∧
      (store.claimAll ["job"] [⟨"a", .ofSeconds 60⟩, ⟨"b", .ofSeconds 60⟩]) =
        ([.error Row.unreadState, .error Row.unreadState], store) := by
  decide +kernel

end Store
end LeaseQueue
