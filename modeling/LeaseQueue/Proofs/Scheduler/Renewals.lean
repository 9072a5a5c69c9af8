/-
When the renewals of a heartbeat start, and when it has stopped.

* `KeeperAnswer.delay`, `KeeperAnswer.isPanic`: how long an answer takes, and which one ends a
  heartbeat;
* `HeartbeatScript.dueAt`, `nextStart?`: when a renewal is due, and when it starts;
* `HeartbeatScript.Scheduled`: a heartbeat that goes by them, one renewal at a time;
* `HeartbeatScript.renewals_scheduled`: every heartbeat does, with any keeper and any stop.
-/
import LeaseQueue.Scheduler.Heartbeat
import Mathlib.Tactic.Common

namespace LeaseQueue

namespace KeeperAnswer

/-- The milliseconds that an answer takes. -/
def delay : KeeperAnswer → Nat
  | renewed _ after | failed after | panicked after => after

/-- The answer ends the heartbeat. -/
def isPanic : KeeperAnswer → Bool
  | panicked _ => true
  | renewed .. | failed _ => false

end KeeperAnswer

namespace HeartbeatScript

variable {millis stopAt due free time : Nat} {keeper : List KeeperAnswer} {log : HeartbeatLog}

/-! ### The schedule -/

/-- The answer to the renewal with a number. -/
def answerAt (keeper : List KeeperAnswer) (k : Nat) : KeeperAnswer :=
  keeper.getD k (.renewed true 0)

/-- A timer may run out this late, in milliseconds, before the schedule moves. -/
def leeway : Nat := 5

/-- When the next renewal is due, in milliseconds, behind one that was due and one that started at
some time. A start that is late moves the schedule. -/
def dueAfter (millis due start : Nat) : Nat :=
  (if due + leeway < start then start else due) + millis

/-- When the renewal with a number is due, if the first one is due at `due`. -/
def dueAt (millis due : Nat) (starts : List Nat) : Nat → Nat
  | 0 => due
  | k + 1 => dueAfter millis (dueAt millis due starts k) (starts.getD k 0)

/-- A renewal starts when it is due and the one before it was answered, at `free`; unless the
heartbeat is stopped by then. -/
def nextStart? (stopAt due free : Nat) : Option Nat :=
  if max free due < stopAt then some (max free due) else none

/-- Behind the first renewal the schedule goes on from the next one. -/
lemma dueAt_cons (start : Nat) (rest : List Nat) (k : Nat) :
    dueAt millis due (start :: rest) (k + 1) =
      dueAt millis (dueAfter millis due start) rest k := by
  induction k with
  | zero => rfl
  | succ k ih => rw [dueAt, ih, List.getD_cons_succ, dueAt]

lemma answerAt_zero (keeper : List KeeperAnswer) :
    answerAt keeper 0 = keeper.headD (.renewed true 0) := by
  cases keeper <;> rfl

lemma answerAt_succ (keeper : List KeeperAnswer) (k : Nat) :
    answerAt keeper (k + 1) = answerAt keeper.tail k := by
  cases keeper <;> rfl

/-- Whole milliseconds are due at whole milliseconds. -/
lemma tick_millis (due free : Nat) : tick (due * Duration.nanosPerMilli) free = max free due := by
  simp only [tick, Duration.timerMillis, Duration.nanosPerMilli]
  omega

lemma nextDue_millis (millis due time : Nat) :
    nextDue (.ofMillis millis) (due * Duration.nanosPerMilli) time =
      dueAfter millis due time * Duration.nanosPerMilli := by
  have hlate : due * Duration.nanosPerMilli + tolerance < time * Duration.nanosPerMilli ↔
      due + leeway < time := by
    simp only [tolerance, leeway, Duration.nanosPerMilli]
    omega
  simp only [nextDue, dueAfter, hlate, Duration.ofMillis]
  split <;> rw [Nat.add_mul]

/-! ### A heartbeat that goes by the schedule -/

/-- A heartbeat whose first renewal is due at `due` and whose keeper is busy until `free`. Each
renewal starts when the schedule and the answer to the one before it say, before the stop. The stop
waits for the renewal that is under way. -/
structure Scheduled (millis stopAt : Nat) (keeper : List KeeperAnswer) (due free : Nat)
    (log : HeartbeatLog) : Prop where
  first : log.renewals[0]? = nextStart? stopAt due free
  next : ∀ k start, log.renewals[k]? = some start →
    dueAt millis due log.renewals k ≤ start ∧ start < stopAt ∧
      log.renewals[k + 1]? =
        if (answerAt keeper k).isPanic then none
        else nextStart? stopAt (dueAt millis due log.renewals (k + 1))
          (start + (answerAt keeper k).delay)
  late : stopAt ≤ free → log.stoppedAt = free
  busy : ∀ k start, log.renewals[k]? = some start → stopAt ≤ start + (answerAt keeper k).delay →
    log.stoppedAt = start + (answerAt keeper k).delay
  idle : free ≤ stopAt →
    (∀ k start, log.renewals[k]? = some start → start + (answerAt keeper k).delay ≤ stopAt) →
    log.stoppedAt = stopAt

namespace Scheduled

/-- A stop that comes first ends the heartbeat as soon as its keeper is free. -/
lemma stop (h : stopAt ≤ max free due) :
    Scheduled millis stopAt keeper due free ⟨[], max stopAt free⟩ where
  first := (if_neg (Nat.not_lt_of_le h)).symm
  next := by simp
  late := Nat.max_eq_right
  busy := by simp
  idle hfree _ := Nat.max_eq_left hfree

/-- A panic ends the heartbeat, with the renewal that it answers. -/
lemma panic (h : max free due < stopAt) (hpanic : (answerAt keeper 0).isPanic = true) :
    Scheduled millis stopAt keeper due free
      ⟨[max free due], max stopAt (max free due + (answerAt keeper 0).delay)⟩ where
  first := (if_pos h).symm
  next k start hstart := by
    obtain ⟨rfl, rfl⟩ : k = 0 ∧ max free due = start := by
      cases k with
      | zero => exact ⟨rfl, Option.some.inj hstart⟩
      | succ k => cases hstart
    exact ⟨Nat.le_max_right _ _, h, by rw [if_pos hpanic]; rfl⟩
  late hfree := absurd h (Nat.not_lt_of_le (Nat.le_trans hfree (Nat.le_max_left _ _)))
  busy k start hstart hbusy := by
    obtain ⟨rfl, rfl⟩ : k = 0 ∧ max free due = start := by
      cases k with
      | zero => exact ⟨rfl, Option.some.inj hstart⟩
      | succ k => cases hstart
    exact Nat.max_eq_right hbusy
  idle _ hidle := Nat.max_eq_left (hidle 0 _ rfl)

/-- Any other answer lets the heartbeat go on, behind the time of the answer. -/
lemma renewal (h : max free due < stopAt) (hpanic : (answerAt keeper 0).isPanic = false)
    (hrest : Scheduled millis stopAt keeper.tail (dueAfter millis due (max free due))
      (max free due + (answerAt keeper 0).delay) log) :
    Scheduled millis stopAt keeper due free (HeartbeatScript.renewal (max free due) log) where
  first := (if_pos h).symm
  next k start hstart := by
    cases k with
    | zero =>
        obtain rfl : max free due = start := Option.some.inj hstart
        have hdue : dueAt millis due (max free due :: log.renewals) 1 =
            dueAfter millis due (max free due) := rfl
        refine ⟨Nat.le_max_right _ _, h, ?_⟩
        simpa [hpanic, HeartbeatScript.renewal, hdue] using hrest.first
    | succ k =>
        have hnext := hrest.next k start hstart
        simpa only [HeartbeatScript.renewal, dueAt_cons, answerAt_succ,
          List.getElem?_cons_succ] using hnext
  late hfree := absurd h (Nat.not_lt_of_le (Nat.le_trans hfree (Nat.le_max_left _ _)))
  busy k start hstart hbusy := by
    cases k with
    | zero =>
        obtain rfl : max free due = start := Option.some.inj hstart
        exact hrest.late hbusy
    | succ k =>
        rw [answerAt_succ] at hbusy ⊢
        exact hrest.busy k start hstart hbusy
  idle _ hidle := hrest.idle (hidle 0 _ rfl) fun k start hstart => by
    simpa only [answerAt_succ] using hidle (k + 1) start hstart

end Scheduled

/-- A turn of the loop: a renewal, and unless its answer is a panic those behind it. -/
lemma loop_eq {interval : Duration} {h : 0 < interval.nanos} {nanos : Nat}
    (hs : ¬ stopAt ≤ tick nanos free) :
    loop interval h stopAt keeper nanos free =
      if (answerAt keeper 0).isPanic then
        ⟨[tick nanos free], max stopAt (tick nanos free + (answerAt keeper 0).delay)⟩
      else
        renewal (tick nanos free) (loop interval h stopAt keeper.tail
          (nextDue interval nanos (tick nanos free))
          (tick nanos free + (answerAt keeper 0).delay)) := by
  rw [loop, dif_neg hs, ← answerAt_zero]
  cases answerAt keeper 0 <;> rfl

/-- A turn goes by the schedule, if those behind it do. -/
lemma turn_scheduled {h : 0 < (Duration.ofMillis millis).nanos}
    (hs : ¬ stopAt ≤ tick (due * Duration.nanosPerMilli) free)
    (hrest : (answerAt keeper 0).isPanic = false →
      Scheduled millis stopAt keeper.tail (dueAfter millis due (max free due))
        (max free due + (answerAt keeper 0).delay)
        (loop (.ofMillis millis) h stopAt keeper.tail
          (dueAfter millis due (max free due) * Duration.nanosPerMilli)
          (max free due + (answerAt keeper 0).delay))) :
    Scheduled millis stopAt keeper due free
      (loop (.ofMillis millis) h stopAt keeper (due * Duration.nanosPerMilli) free) := by
  rw [loop_eq hs]
  rw [tick_millis] at hs ⊢
  have hlt : max free due < stopAt := Nat.lt_of_not_le hs
  rw [nextDue_millis]
  cases hpanic : (answerAt keeper 0).isPanic with
  | true => exact .panic hlt hpanic
  | false => exact .renewal hlt hpanic (hrest hpanic)

/-- The loop goes by the schedule, answer by answer. -/
lemma loop_scheduled (h : 0 < (Duration.ofMillis millis).nanos) (stopAt : Nat)
    (keeper : List KeeperAnswer) (due free : Nat) :
    Scheduled millis stopAt keeper due free
      (loop (.ofMillis millis) h stopAt keeper (due * Duration.nanosPerMilli) free) := by
  generalize hnanos : due * Duration.nanosPerMilli = nanos
  induction keeper, nanos, free using loop.induct (.ofMillis millis) h stopAt
    generalizing due with
  | case1 keeper nanos free time hs =>
      subst hnanos
      rw [loop, dif_pos hs]
      exact .stop (tick_millis due free ▸ hs)
  | case2 keeper nanos free time hs after hanswer =>
      subst hnanos
      have hpanic : (answerAt keeper 0).isPanic = true := by rw [answerAt_zero, hanswer]; rfl
      exact turn_scheduled hs fun hno => absurd hpanic (hno ▸ Bool.false_ne_true)
  | case3 keeper nanos free time hs after hanswer ih
  | case4 keeper nanos free time hs _ after hanswer ih =>
      subst hnanos
      have hdelay : (answerAt keeper 0).delay = after := by rw [answerAt_zero, hanswer]; rfl
      have htime : time = max free due := tick_millis due free
      refine turn_scheduled hs fun _ => ?_
      rw [hdelay, ← htime, ← nextDue_millis]
      exact ih _ (nextDue_millis millis due time).symm

/-- The schedule moves by at least an interval but for the leeway, and by at most an interval from
the start of a renewal that does not come early. -/
lemma dueAfter_bounds {start : Nat} (h : due ≤ start) :
    start + millis ≤ dueAfter millis due start + leeway ∧
      dueAfter millis due start ≤ start + millis := by
  rw [dueAfter]
  split <;> omega

/-- The renewals of a heartbeat go by its schedule, whatever the keeper answers, and whenever the
heartbeat is stopped. The first one starts an interval after the heartbeat, and each later one when
it is due and the one before it was answered. They do not overlap; from one start to the next it is
neither longer than the interval or the answer takes, nor, but for the leeway, shorter than the
interval. Only a panic ends the renewals before the stop. The stop comes before those that start
later, and waits for the one that is under way, and for nothing else. -/
theorem renewals_scheduled (script : HeartbeatScript)
    (hinterval : script.interval = .ofMillis millis) (hpos : 0 < millis) :
    let starts := script.log.renewals
    let answer := answerAt script.keeper
    let due := dueAt millis millis starts
    starts[0]? = (if millis < script.stopAt then some millis else none) ∧
    (∀ k start, starts[k]? = some start →
      due k ≤ start ∧ start < script.stopAt ∧
        starts[k + 1]? =
          if (answer k).isPanic then none
          else nextStart? script.stopAt (due (k + 1)) (start + (answer k).delay)) ∧
    (∀ k start next, starts[k]? = some start → starts[k + 1]? = some next →
      start + (answer k).delay ≤ next ∧ next ≤ start + max millis (answer k).delay ∧
        start + millis ≤ next + leeway) ∧
    (∀ k start, starts[k]? = some start → script.stopAt ≤ start + (answer k).delay →
      script.log.stoppedAt = start + (answer k).delay) ∧
    ((∀ k start, starts[k]? = some start → start + (answer k).delay ≤ script.stopAt) →
      script.log.stoppedAt = script.stopAt) := by
  intro starts answer due
  have h : 0 < (Duration.ofMillis millis).nanos := Nat.mul_pos hpos (by decide)
  have scheduled : Scheduled millis script.stopAt script.keeper millis 0 script.log := by
    simp only [log, hinterval, dif_pos h]
    exact loop_scheduled h script.stopAt script.keeper millis 0
  refine ⟨?_, scheduled.next, fun k start next hstart hnext => ?_, scheduled.busy,
    scheduled.idle (Nat.zero_le _)⟩
  · rw [scheduled.first, nextStart?, Nat.zero_max]
  · obtain ⟨hdue, -, hrest⟩ := scheduled.next k start hstart
    have hsucc : due (k + 1) = dueAfter millis (due k) start := by
      simp only [due, dueAt, List.getD_eq_getElem?_getD, hstart, Option.getD_some]
    obtain ⟨hlow, hhigh⟩ : start + millis ≤ due (k + 1) + leeway ∧ due (k + 1) ≤ start + millis :=
      hsucc ▸ dueAfter_bounds hdue
    have hmax : next = max (start + (answer k).delay) (due (k + 1)) := by
      rw [hnext, nextStart?] at hrest
      split_ifs at hrest
      exact Option.some.inj hrest
    omega

/-- A renewal that takes too long, one that fails, one that finds the lease lost, and one that
panics behind the stop. -/
def troubled : HeartbeatScript where
  interval := .ofMillis 100
  keeper := [.renewed true 250, .failed 3, .renewed false 0, .panicked 40]
  stopAt := 570

/-- The second renewal waits for the answer to the first one and moves the schedule, and the stop
waits for the last one. -/
theorem troubled_scheduled :
    troubled.interval = .ofMillis 100 ∧ 0 < 100 ∧
      troubled.log = ⟨[100, 350, 450, 550], 590⟩ ∧
      (List.range 4).map (dueAt 100 100 troubled.log.renewals) = [100, 200, 450, 550] ∧
      (350 + 3 ≤ 450 ∧ 450 ≤ 350 + max 100 3 ∧ 350 + 100 ≤ 450 + leeway) ∧
      (570 ≤ 550 + 40 → troubled.log.stoppedAt = 550 + 40) := by
  have hlog : troubled.log = ⟨[100, 350, 450, 550], 590⟩ := by
    have hpos : 0 < troubled.interval.nanos := by decide
    rw [log, dif_pos hpos, loop_eq (by decide), if_neg (by decide), loop_eq (by decide),
      if_neg (by decide), loop_eq (by decide), if_neg (by decide), loop_eq (by decide),
      if_pos (by decide)]
    decide +kernel
  obtain ⟨-, -, hgap, hbusy, -⟩ := renewals_scheduled troubled rfl (by decide)
  refine ⟨rfl, by decide, hlog, by rw [hlog]; decide, ?_, ?_⟩
  · exact hgap 1 350 450 (by rw [hlog]; rfl) (by rw [hlog]; rfl)
  · exact hbusy 3 550 (by rw [hlog]; rfl)

end HeartbeatScript
end LeaseQueue
