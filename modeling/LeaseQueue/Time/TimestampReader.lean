/-
Reading points in time, more leniently than RFC 3339 asks:

* a space, `t` or `T` stands between date and time, blanks may stand in front of
  every number, mark and offset and at the end;
* months, days, hours, minutes and seconds have one or two digits; a year has up
  to four, or any number behind a sign; digits of a fraction beyond the ninth are
  dropped; second 60 is a leap second;
* the offset is `Z`, `UTC` in any case, or a sign, two digits of hours and two of
  minutes, with any colons and blanks between them, less than a day in all.

`Timestamp.read?` gives the time in UTC.
-/
import LeaseQueue.Text.Blank
import LeaseQueue.Time.Timestamp

namespace LeaseQueue.Timestamp

open LeaseQueue.Text

/-- Reads up to `width` digits, and at least one. -/
def readDigits? (width : Nat) (s : List Char) : Option (Nat × List Char) :=
  let digits := (s.take width).takeWhile Char.isDigit
  if digits.isEmpty then none
  else some (digits.foldl (fun n c => 10 * n + (c.toNat - 48)) 0, s.drop digits.length)

/-- Reads a number of one or two digits behind blanks, within a range. -/
def readField? (low high : Nat) (s : List Char) : Option (Nat × List Char) :=
  (readDigits? 2 (trimStart s)).bind fun (n, rest) =>
    if low ≤ n ∧ n ≤ high then some (n, rest) else none

/-- Years lie in 32 signed bits before the calendar is asked. -/
def isYearNumber (n : Int) : Bool := decide (-2147483648 ≤ n ∧ n ≤ 2147483647)

/-- Reads a year behind blanks. -/
def readYear? (s : List Char) : Option (Int × List Char) :=
  let (negative, width, digits) : Bool × Nat × List Char := match trimStart s with
    | '-' :: rest => (true, rest.length, rest)
    | '+' :: rest => (false, rest.length, rest)
    | s => (false, 4, s)
  (readDigits? width digits).bind fun (n, rest) =>
    let year : Int := if negative then -(n : Int) else n
    if isYearNumber year then some (year, rest) else none

/-- Reads a mark behind blanks. -/
def readMark? (mark : Char) (s : List Char) : Option (List Char) :=
  match trimStart s with
  | c :: rest => if c = mark then some rest else none
  | [] => none

/-- Reads the fraction of a second, in nanoseconds; without a point it is zero. -/
def readFraction? : List Char → Option (Nat × List Char)
  | '.' :: s =>
    (readDigits? 9 s).map fun (n, rest) =>
      (n * Nat.pow 10 (9 - (s.length - rest.length)), rest.dropWhile Char.isDigit)
  | s => some (0, s)

/-- Colons and blanks may stand between the hours and the minutes of an offset. -/
def isOffsetGap (c : Char) : Bool := c == ':' || isBlank c

/-- Reads two digits, the first of which is at most `high`. -/
def readPair? (high : Char) : List Char → Option (Nat × List Char)
  | a :: b :: rest =>
    if a.isDigit && b.isDigit && decide (a ≤ high) then
      some (10 * (a.toNat - 48) + (b.toNat - 48), rest)
    else none
  | _ => none

/-- Reads the hours and minutes of an offset, in minutes. -/
def readOffsetMinutes? (s : List Char) : Option (Nat × List Char) :=
  (readPair? '9' s).bind fun (hours, rest) =>
    (readPair? '5' (rest.dropWhile isOffsetGap)).map fun (minutes, rest) =>
      (60 * hours + minutes, rest)

/-- Reads an offset from UTC, in minutes. -/
def readOffset? (s : List Char) : Option (Int × List Char) :=
  match s with
  | 'Z' :: rest | 'z' :: rest => some (0, rest)
  | '+' :: rest => (readOffsetMinutes? rest).map fun (n, rest) => ((n : Int), rest)
  | '-' :: rest | '\u2212' :: rest =>
    (readOffsetMinutes? rest).map fun (n, rest) => (-(n : Int), rest)
  | a :: b :: c :: rest =>
    if [a, b, c].map Char.toUpper = ['U', 'T', 'C'] then some (0, rest) else none
  | _ => none

/-- The UTC time of a local time at an offset of less than a day. -/
def ofLocal? (date : Date) (hour minute second nano : Nat) (offset : Int) :
    Option Timestamp :=
  if -1440 < offset ∧ offset < 1440 then
    let minutes := 60 * (hour : Int) + minute - offset
    let date? :=
      if minutes < 0 then date.previous?
      else if 1440 ≤ minutes then date.next?
      else some date
    let ofDay := (minutes.fmod 1440).toNat
    date?.bind fun date => ofParts? date (ofDay / 60) (ofDay % 60) second nano
  else none

/-- Reads the separator between date and time. -/
def readSeparator? : List Char → Option (List Char)
  | c :: rest => if c = 'T' ∨ c = 't' ∨ c = ' ' then some rest else none
  | [] => none

/-- Reads a point in time, up to the end of the text. -/
def read? (text : String) : Option Timestamp := do
  let (year, s) ← readYear? text.toList
  let (month, s) ← readMark? '-' s >>= readField? 1 12
  let (day, s) ← readMark? '-' s >>= readField? 1 31
  let (hour, s) ← readSeparator? s >>= readField? 0 23
  let (minute, s) ← readMark? ':' s >>= readField? 0 59
  let (second, s) ← readMark? ':' s >>= readField? 0 60
  let (nano, s) ← readFraction? s
  let (offset, s) ← readOffset? (trimStart s)
  if (trimStart s).isEmpty then
    let date ← Date.ofParts? year month day
    if second = 60 then ofLocal? date hour minute 59 (nanosInSecond + nano) offset
    else ofLocal? date hour minute second nano offset
  else none

end LeaseQueue.Timestamp
