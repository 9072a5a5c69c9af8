/-
Points in time in UTC, with nanoseconds and leap seconds, and their text:

* `Timestamp`: a date and a time of day; the last second of a minute may be
  followed by a leap second, which counts on from 10 ^ 9 nanoseconds;
* `Timestamp.ofMicros?`: the time a number of microseconds after 1970;
* `Timestamp.text`: the RFC 3339 text with `Z`, with the fewest of 0, 3, 6 or 9
  digits behind the second that are exact;
* `Timestamp.textWithOffset`: the same with the offset `+00:00`.
-/
import LeaseQueue.Time.Date

namespace LeaseQueue

/-- The nanoseconds of a second may reach twice this in a leap second. -/
def nanosInSecond : Nat := 1000000000

/-- A point in time in UTC. -/
structure Timestamp where
  date : Date
  hour : Nat
  minute : Nat
  second : Nat
  nano : Nat
  hour_lt : hour < 24
  minute_lt : minute < 60
  second_lt : second < 60
  nano_lt : nano < nanosInSecond ∨ (nano < 2 * nanosInSecond ∧ second = 59)
  deriving DecidableEq

namespace Timestamp

/-- The time of a date and four numbers. -/
def ofParts? (date : Date) (hour minute second nano : Nat) : Option Timestamp :=
  if hh : hour < 24 then
    if hm : minute < 60 then
      if hs : second < 60 then
        if hn : nano < nanosInSecond ∨ (nano < 2 * nanosInSecond ∧ second = 59) then
          some ⟨date, hour, minute, second, nano, hh, hm, hs, hn⟩
        else none
      else none
    else none
  else none

@[simp] theorem ofParts?_self (t : Timestamp) :
    ofParts? t.date t.hour t.minute t.second t.nano = some t := by
  simp [ofParts?, t.hour_lt, t.minute_lt, t.second_lt, t.nano_lt]

/-- Microseconds in a day. -/
def microsPerDay : Int := 86400000000

/-- The time a number of microseconds after the start of 1970. -/
def ofMicros? (micros : Int) : Option Timestamp :=
  let ofDay := (micros.fmod microsPerDay).toNat
  let second := ofDay / 1000000
  (Date.ofDayNumber? (micros.fdiv microsPerDay)).bind fun date =>
    ofParts? date (second / 3600) (second / 60 % 60) (second % 60) (ofDay % 1000000 * 1000)

/-! ### Text -/

/-- A number with zeros in front up to a width. -/
def padded (width n : Nat) : List Char :=
  let digits := Nat.toDigits 10 n
  List.replicate (width - digits.length) '0' ++ digits

/-- The year: four digits, with a sign only outside of 0 to 9999. -/
def yearText (year : Int) : List Char :=
  if 0 ≤ year ∧ year ≤ 9999 then padded 4 year.natAbs
  else (if year < 0 then '-' else '+') :: padded 4 year.natAbs

/-- The fraction of a second in 0, 3, 6 or 9 digits. -/
def fractionText (nano : Nat) : List Char :=
  if nano = 0 then []
  else if nano % 1000000 = 0 then '.' :: padded 3 (nano / 1000000)
  else if nano % 1000 = 0 then '.' :: padded 6 (nano / 1000)
  else '.' :: padded 9 nano

/-- The text without an offset. A leap second is written as second 60. -/
def localText (t : Timestamp) : List Char :=
  let leap := nanosInSecond ≤ t.nano
  let second := if leap then t.second + 1 else t.second
  let nano := if leap then t.nano - nanosInSecond else t.nano
  yearText t.date.year ++ '-' :: padded 2 t.date.month ++ '-' :: padded 2 t.date.day
    ++ 'T' :: padded 2 t.hour ++ ':' :: padded 2 t.minute ++ ':' :: padded 2 second
    ++ fractionText nano

/-- The RFC 3339 text. -/
def text (t : Timestamp) : String := String.ofList (t.localText ++ ['Z'])

/-- The RFC 3339 text with a numeric offset. -/
def textWithOffset (t : Timestamp) : String := String.ofList (t.localText ++ "+00:00".toList)

end Timestamp
end LeaseQueue
