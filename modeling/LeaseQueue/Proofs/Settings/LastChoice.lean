/-
Changes of the settings of a scheduler, one behind the other.

* `Setting.last`: what the last change of a setting chose, or what was there before;
* `SchedulerSettings.applyAll_field`: a setting that no other one touches is what was last chosen;
* `SchedulerSettings.leases`: the lengths that the lease has from some settings on;
* `SchedulerSettings.fallback_applyAll`: a fallback that is as long as one of these follows the
  lease from there on;
* `SchedulerSettings.passingLeases`, `SchedulerSettings.fallback_eq`: the fallback by the lengths
  since it was last chosen;
* `SchedulerSettings.last_choices_decide`: all settings by what was last chosen;
* `SchedulerSettings.eight_workers_decided`: changes in two orders, and changes without a fallback;
* `SchedulerSettings.passing_lease_decides`: a fallback that was chosen last and is overwritten.
-/
import LeaseQueue.Settings.Scheduler
import Mathlib.Data.List.DropRight
import Mathlib.Tactic

namespace LeaseQueue

namespace Setting

/-! ### What a change chooses -/

/-- The value that a change chooses for a setting; none if it changes another one. -/
def workers? : Setting → Option Nat
  | .workers n => some n
  | _ => none

def lease? : Setting → Option Duration
  | .lease duration => some duration
  | _ => none

def heartbeat? : Setting → Option Duration
  | .heartbeat interval => some interval
  | _ => none

def channel? : Setting → Option Channel
  | .channel chosen => some chosen
  | _ => none

def fallback? : Setting → Option (Option Duration)
  | .fallback interval => some interval
  | _ => none

def shutdownTimeout? : Setting → Option Duration
  | .shutdownTimeout timeout => some timeout
  | _ => none

def backoff? : Setting → Option (BackoffPolicy Double)
  | .backoff policy => some policy
  | _ => none

variable {α : Type}

/-- What the last change of a setting chose; without one, what was there before. -/
def last (choice? : Setting → Option α) (before : α) (changes : List Setting) : α :=
  (changes.filterMap choice?).getLast?.getD before

@[simp] lemma last_nil (choice? : Setting → Option α) (before : α) :
    last choice? before [] = before :=
  rfl

lemma last_cons (choice? : Setting → Option α) (before : α) (change : Setting)
    (changes : List Setting) :
    last choice? before (change :: changes) =
      last choice? ((choice? change).getD before) changes := by
  cases hchoice : choice? change with
  | none => simp [last, hchoice]
  | some chosen => simp [last, hchoice, List.getLast?_cons]

lemma last_append (choice? : Setting → Option α) (before : α) (changes more : List Setting) :
    last choice? before (changes ++ more) = last choice? (last choice? before changes) more := by
  induction changes generalizing before with
  | nil => rfl
  | cons change changes ih => rw [List.cons_append, last_cons, last_cons, ih]

end Setting

namespace SchedulerSettings

open Setting

variable {α : Type}

/-! ### Settings of their own -/

/-- A field that changes with the choice of its setting only is what was last chosen. -/
lemma applyAll_field (field : SchedulerSettings → α) (choice? : Setting → Option α)
    (own : ∀ settings change,
      field (settings.apply change) = (choice? change).getD (field settings))
    (settings : SchedulerSettings) (changes : List Setting) :
    field (settings.applyAll changes) = last choice? (field settings) changes := by
  induction changes generalizing settings with
  | nil => rfl
  | cons change changes ih =>
      rw [last_cons, ← own]
      exact ih (settings.apply change)

section Fields

variable (settings : SchedulerSettings) (changes : List Setting)

lemma workers_applyAll :
    (settings.applyAll changes).workers = last workers? settings.workers changes :=
  applyAll_field workers workers? (fun _ change => by cases change <;> rfl) settings changes

lemma duration_applyAll :
    (settings.applyAll changes).lease.duration = last lease? settings.lease.duration changes :=
  applyAll_field (·.lease.duration) lease? (fun _ change => by cases change <;> rfl) settings
    changes

lemma heartbeat_applyAll :
    (settings.applyAll changes).lease.heartbeat =
      last heartbeat? settings.lease.heartbeat changes :=
  applyAll_field (·.lease.heartbeat) heartbeat? (fun _ change => by cases change <;> rfl) settings
    changes

lemma channel_applyAll :
    (settings.applyAll changes).channel = last channel? settings.channel changes :=
  applyAll_field channel channel? (fun _ change => by cases change <;> rfl) settings changes

lemma shutdownTimeout_applyAll :
    (settings.applyAll changes).shutdownTimeout =
      last shutdownTimeout? settings.shutdownTimeout changes :=
  applyAll_field shutdownTimeout shutdownTimeout? (fun _ change => by cases change <;> rfl) settings
    changes

lemma backoff_applyAll :
    (settings.applyAll changes).backoff = last backoff? settings.backoff changes :=
  applyAll_field backoff backoff? (fun _ change => by cases change <;> rfl) settings changes

end Fields

/-! ### The fallback -/

/-- The lengths that the lease has from some settings on, while they are changed. -/
def leases (settings : SchedulerSettings) (changes : List Setting) : List Duration :=
  settings.lease.duration :: changes.filterMap lease?

/-- Behind a change they go on, with the length that the lease had before it. -/
lemma mem_leases_cons {settings : SchedulerSettings} {change : Setting} {changes : List Setting}
    {duration : Duration} :
    duration ∈ settings.leases (change :: changes) ↔
      duration = settings.lease.duration ∨ duration ∈ (settings.apply change).leases changes := by
  cases change <;> simp [leases, apply, lease?]

/-- A change of another setting than the fallback leaves it, but one of the lease takes a fallback
of its own length along. -/
lemma fallback_apply (settings : SchedulerSettings) {change : Setting}
    (h : change.fallback? = none) :
    (settings.apply change).fallback =
      if settings.fallback = some settings.lease.duration then
        some (settings.apply change).lease.duration
      else settings.fallback := by
  cases change with
  | fallback interval => cases h
  | lease duration => rfl
  | workers | heartbeat | channel | shutdownTimeout | backoff =>
      split_ifs with hsame
      · exact hsame
      · rfl

/-- As long as no fallback is chosen, the one that is there stays until the lease is as long, and
follows the lease from there on. -/
lemma fallback_applyAll {changes : List Setting} (h : ∀ change ∈ changes, change.fallback? = none)
    (settings : SchedulerSettings) :
    (settings.applyAll changes).fallback =
      if settings.fallback ∈ (settings.leases changes).map some then
        some (settings.applyAll changes).lease.duration
      else settings.fallback := by
  induction changes generalizing settings with
  | nil =>
      split_ifs with hmeets
      · exact List.mem_singleton.mp hmeets
      · rfl
  | cons change changes ih =>
      obtain ⟨hchange, hchanges⟩ := List.forall_mem_cons.mp h
      have hnext := ih hchanges (settings.apply change)
      have hfallback := fallback_apply settings hchange
      change (settings.applyAll (change :: changes)).fallback = _ at hnext
      rw [hnext]
      by_cases hsame : settings.fallback = some settings.lease.duration
      · rw [if_pos hsame] at hfallback
        rw [if_pos (hfallback ▸ List.mem_cons_self), if_pos (hsame ▸ List.mem_cons_self)]
        rfl
      · rw [if_neg hsame] at hfallback
        have hmeets : (settings.apply change).fallback ∈
              ((settings.apply change).leases changes).map some ↔
            settings.fallback ∈ (settings.leases (change :: changes)).map some := by
          rw [hfallback, List.mem_map, List.mem_map]
          refine exists_congr fun duration => and_congr_left fun hmet => ?_
          have hother : duration ≠ settings.lease.duration := fun heq => hsame (heq ▸ hmet.symm)
          rw [mem_leases_cons, or_iff_right hother]
        rw [if_congr hmeets rfl hfallback]
        rfl

/-! ### The last choice of a fallback -/

/-- The changes up to the last choice of a fallback, and those behind it. -/
def untilFallback (changes : List Setting) : List Setting :=
  changes.rdropWhile fun change => change.fallback?.isNone

def sinceFallback (changes : List Setting) : List Setting :=
  changes.rtakeWhile fun change => change.fallback?.isNone

lemma untilFallback_append_sinceFallback (changes : List Setting) :
    untilFallback changes ++ sinceFallback changes = changes :=
  List.rdropWhile_append_rtakeWhile

lemma fallback?_of_mem_sinceFallback {changes : List Setting} :
    ∀ change ∈ sinceFallback changes, change.fallback? = none := by
  intro change h
  have hnone : change.fallback?.isNone = true :=
    List.mem_rtakeWhile_imp (p := fun change : Setting => change.fallback?.isNone) h
  exact Option.isNone_iff_eq_none.mp hnone

/-- Up to there the fallback is what was chosen last. -/
lemma fallback_untilFallback (settings : SchedulerSettings) (changes : List Setting) :
    (settings.applyAll (untilFallback changes)).fallback =
      last fallback? settings.fallback changes := by
  induction changes using List.reverseRecOn with
  | nil => rfl
  | append_singleton changes change ih =>
      rw [last_append, ← ih, untilFallback, List.rdropWhile_concat]
      cases change with
      | fallback interval =>
          rw [if_neg (by simp [fallback?]), applyAll, List.foldl_append]
          rfl
      | workers | lease | heartbeat | channel | shutdownTimeout | backoff => rfl

/-- The lengths of the lease since the fallback was last chosen, from the one at that time to the
last one. Without such a choice they are all that there were. -/
def passingLeases (settings : SchedulerSettings) (changes : List Setting) : List Duration :=
  (settings.applyAll (untilFallback changes)).leases (sinceFallback changes)

/-- The fallback that was last chosen stays, unless one of these lengths is its own: then it ends
as the last one. -/
lemma fallback_eq (settings : SchedulerSettings) (changes : List Setting) :
    (settings.applyAll changes).fallback =
      if last fallback? settings.fallback changes ∈ (settings.passingLeases changes).map some then
        some (settings.applyAll changes).lease.duration
      else last fallback? settings.fallback changes := by
  have hsplit : settings.applyAll changes =
      (settings.applyAll (untilFallback changes)).applyAll (sinceFallback changes) := by
    rw [applyAll, applyAll, applyAll, ← List.foldl_append, untilFallback_append_sinceFallback]
  rw [← fallback_untilFallback, hsplit]
  exact fallback_applyAll fallback?_of_mem_sinceFallback _

/-! ### All settings -/

/-- Two lists of changes choose the same values last. -/
structure SameChoices (settings : SchedulerSettings) (changes other : List Setting) : Prop where
  workers : last workers? settings.workers changes = last workers? settings.workers other
  duration : last lease? settings.lease.duration changes = last lease? settings.lease.duration other
  heartbeat :
    last heartbeat? settings.lease.heartbeat changes =
      last heartbeat? settings.lease.heartbeat other
  channel : last channel? settings.channel changes = last channel? settings.channel other
  fallback : last fallback? settings.fallback changes = last fallback? settings.fallback other
  shutdownTimeout :
    last shutdownTimeout? settings.shutdownTimeout changes =
      last shutdownTimeout? settings.shutdownTimeout other
  backoff : last backoff? settings.backoff changes = last backoff? settings.backoff other

/-- The settings that were last chosen, with a fallback. -/
def chosen (settings : SchedulerSettings) (changes : List Setting)
    (fallback : Option Duration) : SchedulerSettings where
  workers := last workers? settings.workers changes
  lease := ⟨last lease? settings.lease.duration changes,
    last heartbeat? settings.lease.heartbeat changes⟩
  channel := last channel? settings.channel changes
  fallback := fallback
  shutdownTimeout := last shutdownTimeout? settings.shutdownTimeout changes
  backoff := last backoff? settings.backoff changes

/-- All but the fallback are what was last chosen. -/
lemma applyAll_eq_chosen (settings : SchedulerSettings) (changes : List Setting) :
    settings.applyAll changes = settings.chosen changes (settings.applyAll changes).fallback := by
  have hlease : (settings.applyAll changes).lease =
      ⟨(settings.applyAll changes).lease.duration, (settings.applyAll changes).lease.heartbeat⟩ :=
    rfl
  rw [chosen, ← workers_applyAll, ← duration_applyAll, ← heartbeat_applyAll, ← channel_applyAll,
    ← shutdownTimeout_applyAll, ← backoff_applyAll, ← hlease]

/-- Where a scheduler starts: with the standard settings, or with another number of workers. -/
def initial (workers : Option Nat) : SchedulerSettings := workers.elim standard ofWorkers

lemma initial_fallback (workers : Option Nat) :
    (initial workers).fallback = some (initial workers).lease.duration := by
  cases workers <;> rfl

/-- From the first settings of a scheduler on, every setting but the fallback ends as what was last
chosen for it. So does the fallback, unless the lease had its length then or at some time since:
then it follows the lease, and ends as long as the lease does. If no fallback is chosen, it always
does.
Changes with the same last choices lead to the same settings, in any order, as long as the fallback
is met in both or in none of them. -/
theorem last_choices_decide (workers : Option Nat) (changes : List Setting) :
    let start := initial workers
    let fallback := last fallback? start.fallback changes
    let met := fallback ∈ (start.passingLeases changes).map some
    let duration := last lease? start.lease.duration changes
    start.applyAll changes =
        start.chosen changes (if met then some duration else fallback) ∧
      ((∀ change ∈ changes, change.fallback? = none) →
        (start.applyAll changes).fallback = some duration) ∧
      ∀ other, start.SameChoices changes other →
        (met ↔ fallback ∈ (start.passingLeases other).map some) →
        start.applyAll changes = start.applyAll other := by
  intro start fallback met duration
  have hfallback : ∀ changes, (start.applyAll changes).fallback =
      if last fallback? start.fallback changes ∈ (start.passingLeases changes).map some then
        some (last lease? start.lease.duration changes)
      else last fallback? start.fallback changes := by
    intro changes
    rw [← duration_applyAll, fallback_eq]
  refine ⟨?_, fun hnone => ?_, fun other hsame hmet => ?_⟩
  · rw [applyAll_eq_chosen, hfallback]
  · have hstart : start.fallback ∈ (start.leases changes).map some := by
      rw [initial_fallback]
      exact List.mem_map_of_mem List.mem_cons_self
    rw [fallback_applyAll hnone, if_pos hstart, duration_applyAll]
  · rw [applyAll_eq_chosen start changes, applyAll_eq_chosen start other, hfallback, hfallback,
      ← hsame.fallback, ← hsame.duration, if_congr hmet rfl rfl, chosen, chosen, hsame.workers,
      hsame.duration, hsame.heartbeat, hsame.channel, hsame.shutdownTimeout, hsame.backoff]

/-- Eight workers, a lease of 30 seconds with a heartbeat of 10, and a fallback of 60 that is chosen
while the lease is longer: the order does not matter. Without the choice of a fallback it is as long
as the lease. -/
theorem eight_workers_decided :
    let start := initial (some 8)
    let changes := [Setting.lease (.ofSeconds 90), .heartbeat (.ofSeconds 10),
      .fallback (some (.ofSeconds 60)), .lease (.ofSeconds 30)]
    let other := [Setting.fallback none, .heartbeat (.ofSeconds 20), .lease (.ofSeconds 30),
      .heartbeat (.ofSeconds 10), .fallback (some (.ofSeconds 60))]
    let silent := [Setting.lease (.ofSeconds 90), .workers 3, .lease (.ofSeconds 30)]
    start.SameChoices changes other ∧ start.applyAll changes = start.applyAll other ∧
      (start.applyAll changes).fallback = some (.ofSeconds 60) ∧
      (∀ change ∈ silent, change.fallback? = none) ∧
      (start.applyAll silent).fallback = some (.ofSeconds 30) := by
  intro start changes other silent
  have hsame : start.SameChoices changes other := by
    constructor <;> decide
  have hsilent : ∀ change ∈ silent, change.fallback? = none := by decide
  exact ⟨hsame, (last_choices_decide (some 8) changes).2.2 other hsame (by decide), by decide,
    hsilent, (last_choices_decide (some 8) silent).2.1 hsilent⟩

/-- A fallback of five minutes, chosen while the lease has this length, is overwritten by the next
length of the lease. Chosen behind it, it stays: the order of the two changes matters. -/
theorem passing_lease_decides :
    let changes := [Setting.fallback (some (.ofSeconds 300)), .lease (.ofSeconds 90)]
    last fallback? standard.fallback changes = some (.ofSeconds 300) ∧
      (standard.applyAll changes).fallback = some (.ofSeconds 90) ∧
      standard.SameChoices changes changes.reverse ∧
      (standard.applyAll changes.reverse).fallback = some (.ofSeconds 300) := by
  refine ⟨by decide, by decide, ?_, by decide⟩
  constructor <;> decide

end SchedulerSettings
end LeaseQueue
