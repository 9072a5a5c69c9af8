/-
Waiting longer after every failure in a row:

* `BackoffPolicy`: the first delay, the factor from one to the next and the
  greatest delay; `BackoffPolicy.delay` is the delay after a number of failures;
* `Backoff`: a policy and the failures in a row so far;
* `failures_next`, `failures_reset`: what a failure and a success do to the count.

The delay is computed in an arithmetic, which is a parameter; `Arithmetic.double`
is the one of floating-point numbers.
-/
import LeaseQueue.Number.Double
import LeaseQueue.Text.Integer
import LeaseQueue.Time.Duration

namespace LeaseQueue

/-- The arithmetic of a delay. -/
structure Arithmetic (α : Type) where
  ofNat : Nat → α
  mul : α → α → α
  pow : α → Nat → α
  isFinite : α → Bool
  le : α → α → Bool
  /-- The nearest natural number of 64 bits, a half upwards. -/
  round : α → Nat

/-- The arithmetic of floating-point numbers. -/
def Arithmetic.double : Arithmetic Double where
  ofNat := Double.ofNat
  mul := Double.mul
  pow := Double.pow
  isFinite := Double.isFinite
  le := Double.le
  round := Double.roundToNat Text.maxNat64

/-- How long to wait after failures. -/
structure BackoffPolicy (α : Type) where
  initial : Duration
  max : Duration
  factor : α
  deriving DecidableEq

namespace BackoffPolicy

/-- The power of the factor stops growing here. -/
def maxExponent : Nat := 64

/-- The delay in nanoseconds, before it is compared with the greatest one. -/
def product {α : Type} (arithmetic : Arithmetic α) (policy : BackoffPolicy α)
    (failures : Nat) : α :=
  arithmetic.mul (arithmetic.ofNat policy.initial.nanos)
    (arithmetic.pow policy.factor (min (failures - 1) maxExponent))

/-- The delay after a number of failures in a row: none at first, then the initial
one, and from there on multiplied by the factor, up to the greatest delay. -/
def delay {α : Type} (arithmetic : Arithmetic α) (policy : BackoffPolicy α)
    (failures : Nat) : Duration :=
  if failures = 0 then .zero
  else
    let nanos := policy.product arithmetic failures
    if !arithmetic.isFinite nanos || arithmetic.le (arithmetic.ofNat policy.max.nanos) nanos
    then policy.max
    else ⟨arithmetic.round nanos⟩

@[simp] theorem delay_zero {α : Type} (arithmetic : Arithmetic α) (policy : BackoffPolicy α) :
    policy.delay arithmetic 0 = .zero := rfl

/-- Twice as long from failure to failure, from 100 ms to 30 s. -/
def standard : BackoffPolicy Double where
  initial := .ofMillis 100
  max := .ofSeconds 30
  factor := .ofNat 2

end BackoffPolicy

/-- A policy and the number of failures in a row, which stops at the greatest
number of 32 bits. -/
structure Backoff (α : Type) where
  policy : BackoffPolicy α
  failures : Nat := 0
  deriving DecidableEq

namespace Backoff

variable {α : Type}

/-- No failure so far. -/
def ofPolicy (policy : BackoffPolicy α) : Backoff α := ⟨policy, 0⟩

/-- One failure more: the delay behind it, and the count from then on. -/
def next (arithmetic : Arithmetic α) (backoff : Backoff α) : Duration × Backoff α :=
  let failures := min (backoff.failures + 1) Text.maxNat32
  (backoff.policy.delay arithmetic failures, { backoff with failures })

/-- A success: the failures before it no longer count. -/
def reset (backoff : Backoff α) : Backoff α := { backoff with failures := 0 }

@[simp] theorem failures_next (arithmetic : Arithmetic α) (backoff : Backoff α) :
    (backoff.next arithmetic).2.failures = min (backoff.failures + 1) Text.maxNat32 := rfl

@[simp] theorem policy_next (arithmetic : Arithmetic α) (backoff : Backoff α) :
    (backoff.next arithmetic).2.policy = backoff.policy := rfl

@[simp] theorem failures_reset (backoff : Backoff α) : backoff.reset.failures = 0 := rfl

@[simp] theorem policy_reset (backoff : Backoff α) : backoff.reset.policy = backoff.policy := rfl

end Backoff
end LeaseQueue
