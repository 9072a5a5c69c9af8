/-
Floating-point numbers of 64 bits as exact values: a sign, a significand below
2 ^ 53 and a power of two. Every operation computes the exact quotient of two
natural numbers and rounds it once, to nearest with ties to even:

* `Double.ofRatio`: the double nearest to a quotient;
* `Double.mul`, `Double.div`, `Double.pow`: products, quotients and powers;
* `Double.lt`: the order of the values, in which no comparison with `nan` holds;
* `Double.toBits`: the 64 bits of the interchange format;
* `roundDiv_le`: the rounded quotient is at most half a unit above the exact one.
-/
namespace LeaseQueue

/-- A floating-point number of 64 bits. A finite one is `mantissa · 2 ^ exponent`
with its sign, where the mantissa is below 2 ^ 53 and the exponent is as small
as that allows, from -1074 up. -/
inductive Double where
  | nan
  | infinite (negative : Bool)
  | finite (negative : Bool) (mantissa : Nat) (exponent : Int)
  deriving DecidableEq, Repr

namespace Double

/-! ### Rounding -/

/-- The quotient rounded to the nearest natural number, a half to the even one. -/
def roundDiv (num den : Nat) : Nat :=
  let quotient := num / den
  let rest := 2 * (num % den)
  if den < rest ∨ (den = rest ∧ quotient % 2 = 1) then quotient + 1 else quotient

theorem roundDiv_le (num den : Nat) : roundDiv num den ≤ num / den + 1 := by
  dsimp only [roundDiv]
  split <;> omega

/-- A whole quotient is kept. -/
theorem roundDiv_mul (n : Nat) {den : Nat} (h : 0 < den) : roundDiv (n * den) den = n := by
  simp [roundDiv, Nat.mul_div_cancel _ h]
  omega

/-- The least exponent and the greatest one of a finite double. -/
def minExponent : Int := -1074
def maxExponent : Int := 971

def zero (negative : Bool) : Double := .finite negative 0 minExponent

/-- A quotient scaled by a power of two, as numerator and denominator. -/
def scale (num den : Nat) (power : Int) : Nat × Nat :=
  let factor := Nat.pow 2 power.natAbs
  if power < 0 then (num, den * factor) else (num * factor, den)

/-- The greatest power of two that is not above a positive quotient. -/
def floorLog2 (num den : Nat) : Int :=
  let guess : Int := (num.log2 : Int) - den.log2
  let scaled := scale num den (-guess)
  if scaled.2 ≤ scaled.1 then guess else guess - 1

/-- The double nearest to a quotient, a tie to the even mantissa; infinite above
the greatest finite double. -/
def ofRatio (negative : Bool) (num den : Nat) : Double :=
  if num = 0 then zero negative
  else
    let exponent := max minExponent (floorLog2 num den - 52)
    let scaled := scale num den (-exponent)
    let mantissa := roundDiv scaled.1 scaled.2
    let (mantissa, exponent) :=
      if mantissa = Nat.pow 2 53 then (Nat.pow 2 52, exponent + 1) else (mantissa, exponent)
    if maxExponent < exponent then .infinite negative else .finite negative mantissa exponent

/-- The double nearest to a natural number. -/
def ofNat (n : Nat) : Double := ofRatio false n 1

def one : Double := ofNat 1

/-! ### Values -/

/-- The magnitude `mantissa · 2 ^ exponent` as a quotient. -/
def magnitude (mantissa : Nat) (exponent : Int) : Nat × Nat := scale mantissa 1 exponent

def isFinite : Double → Bool
  | .finite .. => true
  | _ => false

def isInfinite : Double → Bool
  | .infinite _ => true
  | _ => false

def isZero : Double → Bool
  | .finite _ mantissa _ => mantissa == 0
  | _ => false

def neg : Double → Double
  | .nan => .nan
  | .infinite negative => .infinite !negative
  | .finite negative mantissa exponent => .finite (!negative) mantissa exponent

/-! ### Arithmetic -/

def mul : Double → Double → Double
  | .finite s m e, .finite s' m' e' =>
    let p := magnitude m e
    let q := magnitude m' e'
    ofRatio (s != s') (p.1 * q.1) (p.2 * q.2)
  | .infinite s, .infinite s' => .infinite (s != s')
  | .infinite s, .finite s' m _ => if m = 0 then .nan else .infinite (s != s')
  | .finite s m _, .infinite s' => if m = 0 then .nan else .infinite (s != s')
  | _, _ => .nan

def div : Double → Double → Double
  | .finite s m e, .finite s' m' e' =>
    if m' = 0 then (if m = 0 then .nan else .infinite (s != s'))
    else
      let p := magnitude m e
      let q := magnitude m' e'
      ofRatio (s != s') (p.1 * q.2) (p.2 * q.1)
  | .infinite s, .finite s' _ _ => .infinite (s != s')
  | .finite s _ _, .infinite s' => zero (s != s')
  | _, _ => .nan

/-- Powers by repeated squaring, from the lowest bit of the exponent up; `acc`
holds the product of the squares taken so far. -/
def powFrom (acc base : Double) (n : Nat) : Double :=
  let acc := if n % 2 = 1 then acc.mul base else acc
  if h : n / 2 = 0 then acc else powFrom acc (base.mul base) (n / 2)
termination_by n

def pow (base : Double) (n : Nat) : Double := powFrom one base n

/-! ### Order and whole numbers -/

/-- The value as a fraction with its sign, of a finite double. -/
def signed (negative : Bool) (mantissa : Nat) (exponent : Int) : Int × Nat :=
  let p := magnitude mantissa exponent
  (if negative then -(p.1 : Int) else p.1, p.2)

/-- The first value is less than the second; never so when one is `nan`. -/
def lt : Double → Double → Bool
  | .finite s m e, .finite s' m' e' =>
    let p := signed s m e
    let q := signed s' m' e'
    decide (p.1 * (q.2 : Int) < q.1 * (p.2 : Int))
  | .infinite s, .infinite s' => s && !s'
  | .infinite s, .finite .. => s
  | .finite .., .infinite s' => !s'
  | _, _ => false

/-- The first value is at most the second; never so when one is `nan`. -/
def le (x y : Double) : Bool :=
  match x, y with
  | .nan, _ => false
  | _, .nan => false
  | x, y => !lt y x

/-- The nearest natural number, a half away from zero; negative values give zero
and values above `bound` give `bound`. -/
def roundToNat (bound : Nat) : Double → Nat
  | .nan => 0
  | .infinite negative => if negative then 0 else bound
  | .finite negative mantissa exponent =>
    let p := magnitude mantissa exponent
    if negative then 0 else min bound ((2 * p.1 + p.2) / (2 * p.2))

/-! ### The interchange format -/

/-- The 64 bits of a double; `nan` has the bits of the quiet one. -/
def toBits : Double → Nat
  | .nan => 0x7ff8000000000000
  | .infinite negative => signBit negative + 0x7ff0000000000000
  | .finite negative mantissa exponent =>
    let hidden := Nat.pow 2 52
    if mantissa < hidden then signBit negative + mantissa
    else signBit negative + (exponent + 1075).toNat * hidden + (mantissa - hidden)
where
  signBit (negative : Bool) : Nat := if negative then Nat.pow 2 63 else 0

/-- The bits as sixteen hexadecimal digits. -/
def bitsText (x : Double) : String :=
  let digits := Nat.toDigits 16 x.toBits
  String.ofList (List.replicate (16 - digits.length) '0' ++ digits)

end Double
end LeaseQueue
