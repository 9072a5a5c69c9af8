/-
The shortest decimal of a double: of the decimals that round to it, one with
the fewest digits, and of those the nearest.

* `Double.Interval`: the reals that round to a double, its ends included when
  the mantissa is even;
* `Double.shortest`: the digits and the power of ten of the shortest decimal;
* `Double.text`: positional notation from 1e-5 up to 1e16, and otherwise a
  mantissa and an exponent with its sign.
-/
import LeaseQueue.Number.Double

namespace LeaseQueue.Double

/-- The value of a double and the ends of the reals that round to it, over one
denominator. -/
structure Interval where
  low : Nat
  value : Nat
  high : Nat
  den : Nat
  closed : Bool

/-- The interval of a positive double. Its lower part is half as wide at a power
of two, where the spacing of the doubles changes. -/
def interval (mantissa : Nat) (exponent : Int) : Interval :=
  let narrow := mantissa = Nat.pow 2 52 ∧ minExponent < exponent
  let unit := magnitude 1 (exponent - 2)
  { low := (4 * mantissa - if narrow then 1 else 2) * unit.1
    value := 4 * mantissa * unit.1
    high := (4 * mantissa + 2) * unit.1
    den := unit.2
    closed := mantissa % 2 == 0 }

/-- A fraction rounds to the double. -/
def Interval.contains (i : Interval) (num den : Nat) : Bool :=
  let x := num * i.den
  if i.closed then decide (i.low * den ≤ x) && decide (x ≤ i.high * den)
  else decide (i.low * den < x) && decide (x < i.high * den)

/-- The multiple `n` of a power of ten, as a fraction. -/
def tens (n : Nat) (power : Int) : Nat × Nat :=
  if power < 0 then (n, Nat.pow 10 power.natAbs) else (n * Nat.pow 10 power.natAbs, 1)

/-- The neighbours of the value on the grid of a power of ten that lie in the
interval: the nearer of the two, the even one at a tie. -/
def Interval.onGrid? (i : Interval) (power : Int) : Option Nat :=
  let unit := tens 1 power
  let num := i.value * unit.2
  let den := i.den * unit.1
  let below := num / den
  let inside n := let p := tens n power; i.contains p.1 p.2
  match inside below, inside (below + 1) with
  | true, true => some (roundDiv num den)
  | true, false => some below
  | false, true => some (below + 1)
  | false, false => none

/-- The number of decimal digits. -/
def digitCount (n : Nat) : Nat := (Nat.toDigits 10 n).length

/-- The power of ten that is not above a positive fraction, counted down from
one at least as great. -/
def floorLog10 (num den : Nat) : Nat → Int → Int
  | 0, power => power
  | fuel + 1, power =>
    let p := tens 1 power
    if p.1 * den ≤ num * p.2 then power else floorLog10 num den fuel (power - 1)

/-- Tries the grids from the coarsest on: `digits` more of them are left. -/
def Interval.search (i : Interval) : Nat → Int → Nat × Int
  | 0, power => ((i.onGrid? power).getD 0, power)
  | digits + 1, power =>
    match i.onGrid? power with
    | some n => (n, power)
    | none => i.search digits (power - 1)

/-- Moves the zeros at the end of the digits into the power of ten. -/
def dropZeros : Nat → Nat → Int → Nat × Int
  | 0, n, power => (n, power)
  | fuel + 1, n, power =>
    if n % 10 = 0 ∧ n ≠ 0 then dropZeros fuel (n / 10) (power + 1) else (n, power)

/-- The digits and the power of ten of the shortest decimal of a positive
double. -/
def shortest (mantissa : Nat) (exponent : Int) : Nat × Int :=
  let i := interval mantissa exponent
  let top : Int := (digitCount i.value : Int) - digitCount i.den + 1
  let found := i.search 17 (floorLog10 i.value i.den 3 top)
  dropZeros 20 found.1 found.2

/-- Positional notation ends at this power of ten. -/
def positionalBelow : Int := 16

/-- At most this many zeros stand between the point and the first digit. -/
def leadingZeros : Int := 4

/-- The text of an exponent, always with a sign. -/
def exponentText (exponent : Int) : List Char :=
  'e' :: (if exponent < 0 then '-' else '+') :: Nat.toDigits 10 exponent.natAbs

/-- The text of digits with a power of ten. -/
def decimalText (digits : List Char) (power : Int) : List Char :=
  let point := (digits.length : Int) + power
  if 0 ≤ power ∧ point ≤ positionalBelow then
    digits ++ List.replicate power.toNat '0' ++ ['.', '0']
  else if 0 < point ∧ point ≤ positionalBelow then
    digits.take point.toNat ++ '.' :: digits.drop point.toNat
  else if -leadingZeros ≤ point ∧ point ≤ 0 then
    '0' :: '.' :: (List.replicate point.natAbs '0' ++ digits)
  else
    let mantissa := match digits with
      | [d] => [d]
      | d :: rest => d :: '.' :: rest
      | [] => []
    mantissa ++ exponentText (point - 1)

/-- The text of a double; an infinite one or `nan` has none of its own and is
written as `null`. -/
def text : Double → List Char
  | .finite negative mantissa exponent =>
    let sign := if negative then ['-'] else []
    if mantissa = 0 then sign ++ ['0', '.', '0']
    else
      let d := shortest mantissa exponent
      sign ++ decimalText (Nat.toDigits 10 d.1) d.2
  | _ => ['n', 'u', 'l', 'l']

end LeaseQueue.Double
