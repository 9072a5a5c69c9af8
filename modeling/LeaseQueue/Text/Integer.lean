/-
Decimal integers of a bounded range, read from text:

* `IntegerError`: why a text is no such integer, with `IntegerError.message`;
* `readNatural`: an optional plus sign and digits, up to a largest value;
* `readInteger`: either sign and digits, within 64 signed bits.

The first fault from the left decides: a digit that leaves the range is found
before a stray character behind it.
-/
namespace LeaseQueue.Text

/-- Why a text is not an integer of the range asked for. -/
inductive IntegerError where
  | empty
  | invalidDigit
  | tooLarge
  | tooSmall
  deriving DecidableEq, Repr

/-- The wording of an integer error. -/
def IntegerError.message : IntegerError → String
  | .empty => "cannot parse integer from empty string"
  | .invalidDigit => "invalid digit found in string"
  | .tooLarge => "number too large to fit in target type"
  | .tooSmall => "number too small to fit in target type"

/-- Reads digits behind the value `acc`; `overflow` is the error above `bound`. -/
def readDigits (bound : Nat) (overflow : IntegerError) :
    Nat → List Char → Except IntegerError Nat
  | acc, [] => .ok acc
  | acc, c :: rest =>
    if c.isDigit then
      let next := 10 * acc + (c.toNat - 48)
      if bound < next then .error overflow else readDigits bound overflow next rest
    else
      .error .invalidDigit

/-- Digits after a sign: there has to be one. -/
def readMagnitude (bound : Nat) (overflow : IntegerError) (digits : List Char) :
    Except IntegerError Nat :=
  if digits.isEmpty then .error .invalidDigit else readDigits bound overflow 0 digits

/-- Reads a natural number of at most `bound`; a plus sign may stand in front. -/
def readNatural (bound : Nat) : List Char → Except IntegerError Nat
  | [] => .error .empty
  | '+' :: digits => readMagnitude bound .tooLarge digits
  | text => readDigits bound .tooLarge 0 text

/-- The least and the greatest integer of 64 signed bits. -/
def minInt64 : Int := -9223372036854775808
def maxInt64 : Int := 9223372036854775807
/-- The greatest natural number of 64 bits. -/
def maxNat64 : Nat := 18446744073709551615
/-- The greatest natural number of 32 bits. -/
def maxNat32 : Nat := 4294967295
/-- The greatest natural number of 16 bits. -/
def maxNat16 : Nat := 65535

/-- Reads an integer of 64 signed bits. -/
def readInteger : List Char → Except IntegerError Int
  | [] => .error .empty
  | '-' :: digits => (readMagnitude minInt64.natAbs .tooSmall digits).map fun n => -(n : Int)
  | '+' :: digits => (readMagnitude maxInt64.natAbs .tooLarge digits).map Int.ofNat
  | text => (readDigits maxInt64.natAbs .tooLarge 0 text).map Int.ofNat

end LeaseQueue.Text
