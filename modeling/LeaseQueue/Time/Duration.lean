/-
Lengths of time in whole nanoseconds:

* `Duration`: a length of time, with `ofSeconds` and `ofMillis`;
* `Duration.wholeMillis`: the whole milliseconds of a length, rounded down;
* `Duration.timerMillis`: the first millisecond by which it has passed;
* `Duration.text`: a length with the largest unit it holds once;
* `wholeMillis_ofMillis`, `timerMillis_ofMillis`: both keep whole milliseconds.
-/
namespace LeaseQueue

/-- A length of time. -/
structure Duration where
  nanos : Nat
  deriving DecidableEq, Repr, Inhabited

namespace Duration

def zero : Duration := ⟨0⟩

def nanosPerSecond : Nat := 1000000000
def nanosPerMilli : Nat := 1000000
def nanosPerMicro : Nat := 1000

/-- Seconds and nanoseconds. -/
def ofParts (seconds nanos : Nat) : Duration := ⟨seconds * nanosPerSecond + nanos⟩
def ofSeconds (seconds : Nat) : Duration := ofParts seconds 0
def ofMillis (millis : Nat) : Duration := ⟨millis * nanosPerMilli⟩

def seconds (d : Duration) : Nat := d.nanos / nanosPerSecond
def subsecond (d : Duration) : Nat := d.nanos % nanosPerSecond

/-- The whole milliseconds of a duration. -/
def wholeMillis (d : Duration) : Nat := d.nanos / nanosPerMilli

/-- The first millisecond at which a timer of this duration has run out. -/
def timerMillis (d : Duration) : Nat := (d.nanos + (nanosPerMilli - 1)) / nanosPerMilli

theorem wholeMillis_ofMillis (n : Nat) : (ofMillis n).wholeMillis = n := by
  simp [ofMillis, wholeMillis, nanosPerMilli]

theorem timerMillis_ofMillis (n : Nat) : (ofMillis n).timerMillis = n := by
  simp only [ofMillis, timerMillis, nanosPerMilli]
  omega

/-- The digits of a fraction of `width` places, without zeros at the end. -/
def fractionDigits : Nat → Nat → List Char
  | 0, _ => []
  | width + 1, fraction =>
    if fraction = 0 then []
    else
      let unit := Nat.pow 10 width
      Char.ofNat (48 + fraction / unit) :: fractionDigits width (fraction % unit)

/-- A whole number and a fraction of `width` places, with a unit. -/
def withUnit (whole fraction width : Nat) (unit : String) : String :=
  let digits := fractionDigits width fraction
  let point := if digits.isEmpty then "" else "."
  toString whole ++ point ++ String.ofList digits ++ unit

/-- The text of a duration in the largest of the units s, ms, µs and ns that it
holds at least once. -/
def text (d : Duration) : String :=
  let n := d.nanos
  if nanosPerSecond ≤ n then withUnit (n / nanosPerSecond) (n % nanosPerSecond) 9 "s"
  else if nanosPerMilli ≤ n then withUnit (n / nanosPerMilli) (n % nanosPerMilli) 6 "ms"
  else if nanosPerMicro ≤ n then withUnit (n / nanosPerMicro) (n % nanosPerMicro) 3 "µs"
  else withUnit n 0 0 "ns"

end Duration
end LeaseQueue
