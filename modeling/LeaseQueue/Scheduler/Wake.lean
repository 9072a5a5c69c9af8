/-
The wake-up channel from the notification listener to the scanner:

* `WakeChannel`: at most one pending wake-up, the number of signals that can raise
  one, and whether the receiver is still there;
* `WakeChannel.notify`: raises a wake-up, unless one is pending already;
* `WakeChannel.take`: the receiver takes a pending wake-up;
* `WakeChannel.WellFormed`: without a receiver nothing is pending, which every
  operation keeps.
-/
namespace LeaseQueue

/-- A wake-up channel. -/
structure WakeChannel where
  pending : Bool := false
  signals : Nat := 1
  hasReceiver : Bool := true
  deriving DecidableEq

namespace WakeChannel

/-- Raises a wake-up. Tells whether it is a new one, which somebody will receive. -/
def notify (channel : WakeChannel) : Bool × WakeChannel :=
  if channel.hasReceiver && !channel.pending then (true, { channel with pending := true })
  else (false, channel)

/-- Takes a pending wake-up. Tells whether there was one. -/
def take (channel : WakeChannel) : Bool × WakeChannel :=
  (channel.pending, { channel with pending := false })

/-- One more signal. -/
def clone (channel : WakeChannel) : WakeChannel :=
  if channel.signals = 0 then channel else { channel with signals := channel.signals + 1 }

/-- One signal less. -/
def dropSignal (channel : WakeChannel) : WakeChannel :=
  { channel with signals := channel.signals - 1 }

/-- No signal is left. What is pending stays. -/
def dropSignals (channel : WakeChannel) : WakeChannel := { channel with signals := 0 }

/-- The receiver goes, and what is pending with it. -/
def dropReceiver (channel : WakeChannel) : WakeChannel :=
  { channel with pending := false, hasReceiver := false }

/-- A wake-up is pending only while there is a receiver. -/
def WellFormed (channel : WakeChannel) : Prop :=
  channel.pending = true → channel.hasReceiver = true

theorem WellFormed.notify {channel : WakeChannel} (h : channel.WellFormed) :
    channel.notify.2.WellFormed := by
  unfold WakeChannel.notify
  split
  · next hc => intro _; simp_all
  · exact h

theorem WellFormed.take {channel : WakeChannel} : channel.take.2.WellFormed := by
  simp [WakeChannel.take, WellFormed]

theorem WellFormed.dropReceiver {channel : WakeChannel} :
    channel.dropReceiver.WellFormed := by
  simp [WakeChannel.dropReceiver, WellFormed]

/-- Behind a raised wake-up one is pending, whether or not it is a new one. -/
theorem pending_notify {channel : WakeChannel} (h : channel.hasReceiver = true) :
    channel.notify.2.pending = true := by
  unfold WakeChannel.notify
  by_cases hp : channel.pending = true <;> simp [h, hp]

/-- A second wake-up in a row is no new one. -/
theorem notify_notify (channel : WakeChannel) :
    channel.notify.2.notify = (false, channel.notify.2) := by
  unfold WakeChannel.notify
  by_cases h : channel.hasReceiver = true <;> by_cases hp : channel.pending = true <;>
    simp [h, hp]

end WakeChannel
end LeaseQueue
