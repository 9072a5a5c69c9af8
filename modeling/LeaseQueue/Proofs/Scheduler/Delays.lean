/-
Delays grow up to the greatest one and stay there.

* `BackoffPolicy.delay_of_le`, `BackoffPolicy.delay_min`: in any arithmetic a delay stops changing
  at some number of failures, long before their count stops;
* `Arithmetic.exact`: the arithmetic of rational numbers;
* `BackoffPolicy.nanos_delay`: in this one a delay is the product, rounded and cut off at the
  greatest delay. That delays grow and where they begin is read off this form;
* `BackoffPolicy.delay_standard`: the standard delays come out exact in doubles as well;
* `Backoff.failures_heeded`: a backoff counts the failures since the last success, as far as it can;
* `Backoff.delays_grow`: hence what it answers to failures grows from each success to the next.
-/
import LeaseQueue.Backoff
import Mathlib.Data.List.DropRight
import Mathlib.Data.Rat.Floor
import Mathlib.Tactic

namespace LeaseQueue

/-! ### Any arithmetic -/

namespace BackoffPolicy

section Any

variable {α : Type} (arithmetic : Arithmetic α) (policy : BackoffPolicy α) {failures : ℕ}

/-- Behind the greatest exponent the delay stays. -/
lemma delay_of_le (h : maxExponent + 1 ≤ failures) :
    policy.delay arithmetic failures = policy.delay arithmetic (maxExponent + 1) := by
  have hexponent : min (failures - 1) maxExponent = min (maxExponent + 1 - 1) maxExponent := by
    omega
  have hpos : failures ≠ 0 := by omega
  rw [delay, delay, if_neg hpos, if_neg (Nat.succ_ne_zero _), product, product, hexponent]

/-- The delay has stopped growing long before the count of the failures stops. -/
lemma delay_min (failures : ℕ) :
    policy.delay arithmetic (min failures Text.maxNat32) = policy.delay arithmetic failures := by
  have hmax : maxExponent + 1 ≤ Text.maxNat32 := by decide
  rcases le_total failures Text.maxNat32 with h | h
  · rw [min_eq_left h]
  · rw [min_eq_right h, policy.delay_of_le arithmetic hmax,
      policy.delay_of_le arithmetic (hmax.trans h)]

end Any

end BackoffPolicy

/-! ### Exact products -/

/-- The arithmetic of rational numbers. Only the delay itself is rounded, a half upwards, and has 64
bits. -/
def Arithmetic.exact : Arithmetic ℚ where
  ofNat n := n
  mul := (· * ·)
  pow := (· ^ ·)
  isFinite _ := true
  le x y := decide (x ≤ y)
  round x := min ⌊x + 1 / 2⌋₊ Text.maxNat64

namespace Arithmetic

/-- Whole numbers are not rounded. -/
lemma exact_round_natCast (n : ℕ) : exact.round n = min n Text.maxNat64 := by
  have hfloor : ⌊(n : ℚ) + 1 / 2⌋₊ = n :=
    (Nat.floor_eq_iff (by positivity)).mpr ⟨by linarith, by linarith⟩
  exact congrArg (min · _) hfloor

lemma exact_round_mono : Monotone exact.round := fun _ _ h =>
  min_le_min_right _ (Nat.floor_mono (by linarith))

end Arithmetic

namespace BackoffPolicy

variable {policy : BackoffPolicy ℚ}

lemma product_mono (hfactor : 1 ≤ policy.factor) : Monotone (policy.product .exact) := by
  intro fewer more h
  have hexponent : min (fewer - 1) maxExponent ≤ min (more - 1) maxExponent := by omega
  exact mul_le_mul_of_nonneg_left (pow_le_pow_right₀ hfactor hexponent) (Nat.cast_nonneg _)

/-- A delay is the product, rounded and cut off at the greatest delay. The comparison comes before
the rounding, but the greatest delay is a whole number. -/
lemma nanos_delay (hmax : policy.max.nanos ≤ Text.maxNat64) {failures : ℕ} (h : failures ≠ 0) :
    (policy.delay .exact failures).nanos =
      min policy.max.nanos (Arithmetic.exact.round (policy.product .exact failures)) := by
  have hwhole : Arithmetic.exact.round policy.max.nanos = policy.max.nanos := by
    rw [Arithmetic.exact_round_natCast, min_eq_left hmax]
  have hfinite : Arithmetic.exact.isFinite (policy.product .exact failures) = true := rfl
  rw [delay, if_neg h]
  by_cases hover : (policy.max.nanos : ℚ) ≤ policy.product .exact failures
  · have hle : Arithmetic.exact.le (Arithmetic.exact.ofNat policy.max.nanos)
        (policy.product .exact failures) = true := decide_eq_true hover
    have hround := Arithmetic.exact_round_mono hover
    rw [hwhole] at hround
    simp only [hle, Bool.or_true, if_true]
    exact (min_eq_left hround).symm
  · have hle : Arithmetic.exact.le (Arithmetic.exact.ofNat policy.max.nanos)
        (policy.product .exact failures) = false := decide_eq_false hover
    have hround := Arithmetic.exact_round_mono (not_le.mp hover).le
    rw [hwhole] at hround
    simp only [hle, hfinite, Bool.not_true, Bool.or_self, Bool.false_eq_true, if_false]
    exact (min_eq_right hround).symm

lemma nanos_delay_le_max (hmax : policy.max.nanos ≤ Text.maxNat64) (failures : ℕ) :
    (policy.delay .exact failures).nanos ≤ policy.max.nanos := by
  rcases eq_or_ne failures 0 with rfl | h
  · exact Nat.zero_le _
  · rw [nanos_delay hmax h]
    exact min_le_left _ _

lemma nanos_delay_mono (hfactor : 1 ≤ policy.factor) (hmax : policy.max.nanos ≤ Text.maxNat64) :
    Monotone fun failures => (policy.delay .exact failures).nanos := by
  intro fewer more h
  rcases eq_or_ne fewer 0 with rfl | hfewer
  · exact Nat.zero_le _
  · have hmore : more ≠ 0 := (Nat.pos_of_ne_zero hfewer |>.trans_le h).ne'
    dsimp only
    rw [nanos_delay hmax hfewer, nanos_delay hmax hmore]
    exact min_le_min_left _ (Arithmetic.exact_round_mono (product_mono hfactor h))

/-- The first delay is the initial one, unless the greatest is smaller. -/
lemma nanos_delay_one (hmax : policy.max.nanos ≤ Text.maxNat64) :
    (policy.delay .exact 1).nanos = min policy.initial.nanos policy.max.nanos := by
  have hproduct : policy.product .exact 1 = policy.initial.nanos := by
    have hpow : policy.product .exact 1 = (policy.initial.nanos : ℚ) * policy.factor ^ 0 := rfl
    rw [hpow, pow_zero, mul_one]
  rw [nanos_delay hmax one_ne_zero, hproduct, Arithmetic.exact_round_natCast]
  omega

/-- The standard policy, in exact numbers. -/
def exactStandard : BackoffPolicy ℚ := { standard with factor := 2 }

/-- The products of the standard policy have few binary digits: doubles do not round them. -/
lemma delay_standard (failures : ℕ) :
    standard.delay .double failures = exactStandard.delay .exact failures := by
  have hsmall : ∀ failures ≤ maxExponent + 1,
      standard.delay .double failures = exactStandard.delay .exact failures := by
    decide +kernel
  rcases le_total failures (maxExponent + 1) with h | h
  · exact hsmall failures h
  · rw [standard.delay_of_le .double h, exactStandard.delay_of_le .exact h]
    exact hsmall _ le_rfl

end BackoffPolicy

/-! ### Failures and successes -/

namespace Backoff

/-- What is told to a backoff: a failure, to which it answers a delay, or a success. -/
inductive Attempt where
  | failed
  | succeeded
  deriving DecidableEq

/-- The failures since the last success. -/
def failuresIn (attempts : List Attempt) : ℕ := (attempts.rtakeWhile (· = .failed)).length

lemma failuresIn_failed (attempts : List Attempt) :
    failuresIn (attempts ++ [.failed]) = failuresIn attempts + 1 := by
  rw [failuresIn, List.rtakeWhile_concat_pos _ _ _ (by simp), List.length_append]
  rfl

lemma failuresIn_succeeded (attempts : List Attempt) :
    failuresIn (attempts ++ [.succeeded]) = 0 := by
  rw [failuresIn, List.rtakeWhile_concat_neg _ _ _ (by simp)]
  rfl

/-- There are no fewer of them later on, up to the next success. -/
lemma failuresIn_le_append (attempts : List Attempt) {more : List Attempt}
    (h : .succeeded ∉ more) : failuresIn attempts ≤ failuresIn (attempts ++ more) := by
  induction more using List.reverseRecOn with
  | nil => rw [List.append_nil]
  | append_singleton more last ih =>
      rw [List.mem_append, not_or, List.mem_singleton] at h
      cases last with
      | failed =>
          rw [← List.append_assoc, failuresIn_failed]
          exact (ih h.1).trans (Nat.le_succ _)
      | succeeded => exact absurd rfl h.2

variable {α : Type} (arithmetic : Arithmetic α) (policy : BackoffPolicy α)

/-- The backoff behind an attempt. -/
def heed (backoff : Backoff α) : Attempt → Backoff α
  | .failed => (backoff.next arithmetic).2
  | .succeeded => backoff.reset

/-- The backoff of a policy behind some attempts. -/
def heeded (attempts : List Attempt) : Backoff α :=
  attempts.foldl (heed arithmetic) (ofPolicy policy)

lemma heeded_concat (attempts : List Attempt) (last : Attempt) :
    heeded arithmetic policy (attempts ++ [last]) =
      (heeded arithmetic policy attempts).heed arithmetic last :=
  List.foldl_append

lemma policy_heeded (attempts : List Attempt) :
    (heeded arithmetic policy attempts).policy = policy := by
  induction attempts using List.reverseRecOn with
  | nil => rfl
  | append_singleton attempts last ih =>
      rw [heeded_concat]
      cases last with
      | failed => rw [heed, policy_next, ih]
      | succeeded => rw [heed, policy_reset, ih]

/-- A backoff counts the failures since the last success, as far as it can count. -/
lemma failures_heeded (attempts : List Attempt) :
    (heeded arithmetic policy attempts).failures = min (failuresIn attempts) Text.maxNat32 := by
  induction attempts using List.reverseRecOn with
  | nil => rfl
  | append_singleton attempts last ih =>
      rw [heeded_concat]
      cases last with
      | failed =>
          rw [heed, failures_next, ih, failuresIn_failed]
          omega
      | succeeded => rw [heed, failures_reset, failuresIn_succeeded, Nat.zero_min]

/-- What a backoff answers to a failure behind some attempts. -/
def answer (attempts : List Attempt) : Duration :=
  ((heeded arithmetic policy attempts).next arithmetic).1

lemma answer_eq (attempts : List Attempt) :
    answer arithmetic policy attempts =
      policy.delay arithmetic (min (failuresIn attempts + 1) Text.maxNat32) := by
  have hcount : min (min (failuresIn attempts) Text.maxNat32 + 1) Text.maxNat32 =
      min (failuresIn attempts + 1) Text.maxNat32 := by omega
  simp only [answer, next, failures_heeded, policy_heeded, hcount]

/-- Exact delays, to a factor of at least one, are at most the greatest, grow with the number of
failures, begin with the smaller one of the initial delay and the greatest, and stay from the
65th failure on. To every failure a backoff answers the delay for the failures since the last
success, this one included, of which it counts as many as 32 bits can hold. So however many there
are, no delay is zero again, and none is shorter than one before it as long as there is no success
in between. -/
theorem delays_grow {policy : BackoffPolicy ℚ} (hinitial : 0 < policy.initial.nanos)
    (hfactor : 1 ≤ policy.factor) (hmax : policy.max.nanos ≤ Text.maxNat64) :
    let nanos failures := (policy.delay .exact failures).nanos
    (∀ failures, nanos failures ≤ policy.max.nanos) ∧
      Monotone nanos ∧
      nanos 1 = min policy.initial.nanos policy.max.nanos ∧
      (∀ failures, 65 ≤ failures → nanos failures = nanos 65) ∧
      ∀ attempts,
        answer .exact policy attempts =
          policy.delay .exact (min (failuresIn attempts + 1) Text.maxNat32) ∧
        (0 < policy.max.nanos → 0 < (answer .exact policy attempts).nanos) ∧
        ∀ more, .succeeded ∉ more →
          (answer .exact policy attempts).nanos ≤
            (answer .exact policy (attempts ++ .failed :: more)).nanos := by
  intro nanos
  have hmono : Monotone nanos := BackoffPolicy.nanos_delay_mono hfactor hmax
  have hone := BackoffPolicy.nanos_delay_one hmax
  refine ⟨BackoffPolicy.nanos_delay_le_max hmax, hmono, hone, fun failures h => ?_,
    fun attempts => ⟨answer_eq .exact policy attempts, fun hpos => ?_, fun more h => ?_⟩⟩
  · exact congrArg Duration.nanos (policy.delay_of_le .exact h)
  · have hcounted : 1 ≤ min (failuresIn attempts + 1) Text.maxNat32 :=
      le_min (Nat.le_add_left _ _) (by decide)
    calc 0 < min policy.initial.nanos policy.max.nanos := lt_min hinitial hpos
      _ = nanos 1 := hone.symm
      _ ≤ nanos (min (failuresIn attempts + 1) Text.maxNat32) := hmono hcounted
      _ = (answer .exact policy attempts).nanos := by rw [answer_eq]
  · have hcount : failuresIn attempts ≤ failuresIn (attempts ++ .failed :: more) :=
      failuresIn_le_append attempts (by simpa using h)
    rw [answer_eq, answer_eq]
    exact hmono (min_le_min_right _ (Nat.succ_le_succ hcount))

/-- The standard policy keeps all this in doubles. Forty failures and a success later it begins
anew. -/
theorem standard_grows :
    let policy := BackoffPolicy.exactStandard
    0 < policy.initial.nanos ∧ 1 ≤ policy.factor ∧ policy.max.nanos ≤ Text.maxNat64 ∧
      (∀ failures, (BackoffPolicy.standard.delay .double failures).nanos ≤ 30000000000) ∧
      (Monotone fun failures => (BackoffPolicy.standard.delay .double failures).nanos) ∧
      (BackoffPolicy.standard.delay .double 1).nanos = 100000000 ∧
      answer .exact policy (List.replicate 40 .failed ++ [.succeeded, .failed]) =
        .ofMillis 200 := by
  intro policy
  have hinitial : 0 < policy.initial.nanos := by decide
  have hfactor : 1 ≤ policy.factor := by decide
  have hmax : policy.max.nanos ≤ Text.maxNat64 := by decide
  obtain ⟨hle, hmono, hone, -, hanswers⟩ := delays_grow hinitial hfactor hmax
  simp only [BackoffPolicy.delay_standard]
  refine ⟨hinitial, hfactor, hmax, hle, hmono, hone, ?_⟩
  rw [(hanswers _).1]
  decide +kernel

/-- Halves are rounded upwards, and the last step is the one to the greatest delay. -/
example :
    let policy : BackoffPolicy ℚ := ⟨⟨3⟩, ⟨22⟩, 3 / 2⟩
    (List.range 8).map (fun failures => (policy.delay .exact failures).nanos) =
      [0, 3, 5, 7, 10, 15, 22, 22] := by
  decide +kernel

end Backoff
end LeaseQueue
