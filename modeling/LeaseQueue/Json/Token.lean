/-
The tokens of JSON text, read from left to right; the first fault decides.

* `Scan`: a reader of a part of a text;
* `readIdent`, `readNumber`, `readString`: words, numbers and strings;
* `runScan`: a reader on a whole text, between blanks.

A number without point and exponent that fits into 64 bits, signed or not, is an
`int`. Of any other the first digits that fit into 64 bits make the significand,
which is rounded to a double and then multiplied or divided by a power of ten,
each step rounded.
-/
import LeaseQueue.Json.Fault
import LeaseQueue.Text.Integer

namespace LeaseQueue.Json

/-- A reader of a part of a text: what it read and what is left. -/
abbrev Scan := StateT (List Char) (Except Fault)

namespace Scan

/-- A fault behind what is read. -/
def fail {α : Type} (cause : Cause) (into : Nat := 0) : Scan α :=
  fun s => .error ⟨cause, s, into⟩

/-- A fault at the next byte, if there is one. -/
def failHere {α : Type} (cause : Cause) : Scan α := fun s =>
  .error ⟨cause, s, if s.isEmpty then 0 else 1⟩

/-- A well-formed value of the wrong kind. -/
def mismatch {α : Type} (why : Mismatch) : Scan α := fail (.mismatch why)

/-- Gives a value, or its mismatch as the fault. -/
def ofExcept {α : Type} : Except Mismatch α → Scan α
  | .ok a => pure a
  | .error why => mismatch why

/-- The next character, which stays. -/
def peek : Scan (Option Char) := fun s => .ok (s.head?, s)

/-- Drops the next character. -/
def skip : Scan Unit := fun s => .ok ((), s.drop 1)

/-- A blank of JSON. -/
def isSpace (c : Char) : Bool := c == ' ' || c == '\n' || c == '\t' || c == '\r'

/-- Drops blanks; gives the next character, which stays. -/
def skipSpace : Scan (Option Char) := fun s =>
  let rest := s.dropWhile isSpace
  .ok (rest.head?, rest)

end Scan

open Scan

/-! ### Words and numbers -/

/-- Reads the rest of `null`, `true` or `false`. -/
def readIdent : List Char → Scan Unit
  | [] => pure ()
  | expected :: more => do
    match ← peek with
    | none => fail .endInValue
    | some c =>
      if c = expected then skip; readIdent more else fail .expectedIdent 1

/-- The value of a digit. -/
def digitValue (c : Char) : Nat := c.toNat - 48

/-- Reads digits behind `acc` as long as the value stays within `bound`: the
value, the number of digits and what is left. -/
def digitsWithin (bound : Nat) : Nat → Nat → List Char → Nat × Nat × List Char
  | acc, count, c :: rest =>
    if c.isDigit && decide (10 * acc + digitValue c ≤ bound) then
      digitsWithin bound (10 * acc + digitValue c) (count + 1) rest
    else (acc, count, c :: rest)
  | acc, count, [] => (acc, count, [])

/-- Drops digits and counts them. -/
def dropDigits : Scan Nat := fun s =>
  let digits := s.takeWhile Char.isDigit
  .ok (digits.length, s.drop digits.length)

/-- The greatest power of ten that is a finite double. -/
def greatestTen : Nat := 308

/-- A significand times a power of ten: rounded to a double, then multiplied or
divided by powers of ten. Nothing when the product is infinite. -/
def scaleByTen (x : Double) (power : Int) : Option Double :=
  if power.natAbs ≤ greatestTen then
    let ten := Double.ofNat (Nat.pow 10 power.natAbs)
    if power < 0 then some (x.div ten)
    else
      let product := x.mul ten
      if product.isInfinite then none else some product
  else if x.isZero then some x
  else if _h : 0 ≤ power then none
  else scaleByTen (x.div (Double.ofNat (Nat.pow 10 greatestTen))) (power + greatestTen)
termination_by power.natAbs
decreasing_by
  simp only [greatestTen] at *
  omega

/-- The double of a sign, a significand and a power of ten. -/
def readParts (negative : Bool) (significand : Nat) (power : Int) : Scan Json :=
  match scaleByTen (Double.ofNat significand) power with
  | none => fail .numberOutOfRange
  | some x => pure (.double (if negative then x.neg else x))

/-- Exponents of ten are kept in 32 signed bits. -/
def clampPower (power : Int) : Int := max (-2147483648) (min 2147483647 power)

/-- Reads an exponent from its `e` on. -/
def readExponent (negative : Bool) (significand : Nat) (power : Int) : Scan Json := do
  skip
  let down ← do
    match ← peek with
    | some '+' => skip; pure false
    | some '-' => skip; pure true
    | _ => pure false
  match ← peek with
  | none => fail .endInValue
  | some c => do
    if c.isDigit then
      let (exponent, _, rest) := digitsWithin 2147483647 0 0 (← get)
      set rest
      if (rest.head?.map Char.isDigit).getD false then
        if significand ≠ 0 ∧ !down then fail .numberOutOfRange 1
        else
          let _ ← dropDigits
          pure (.double (Double.zero negative))
      else
        let exponent : Int := if down then -(exponent : Int) else exponent
        readParts negative significand (clampPower (power + exponent))
    else fail .invalidNumber 1

/-- Reads what may follow the digits of a number that is a double anyway. -/
def readDoubleEnd (negative : Bool) (significand : Nat) (power : Int) : Scan Json := do
  match ← peek with
  | some 'e' | some 'E' => readExponent negative significand power
  | _ => readParts negative significand power

/-- Reads a fraction from its point on. -/
def readFraction (negative : Bool) (significand : Nat) (power : Int) : Scan Json := do
  skip
  let (value, count, rest) := digitsWithin Text.maxNat64 significand 0 (← get)
  set rest
  if (rest.head?.map Char.isDigit).getD false then
    let _ ← dropDigits
    readDoubleEnd negative value (power - count)
  else if count = 0 then
    if rest.isEmpty then failHere .endInValue else failHere .invalidNumber
  else
    readDoubleEnd negative value (power - count)

/-- A whole number of 64 bits, or the double below them; minus zero is a double. -/
def wholeNumber (negative : Bool) (n : Nat) : Json :=
  if !negative then .int n
  else if n = 0 ∨ Text.minInt64.natAbs < n then .double (Double.ofNat n).neg
  else .int (-(n : Int))

/-- Reads a number behind its sign. -/
def readNumber (negative : Bool) : Scan Json := do
  match ← peek with
  | none => fail .endInValue
  | some '0' =>
    skip
    match ← peek with
    | some '.' => readFraction negative 0 0
    | some 'e' | some 'E' => readExponent negative 0 0
    | some c => if c.isDigit then failHere .invalidNumber else pure (wholeNumber negative 0)
    | none => pure (wholeNumber negative 0)
  | some c =>
    if c.isDigit then
      let (value, _, rest) := digitsWithin Text.maxNat64 0 0 (← get)
      set rest
      let more ← dropDigits
      match ← peek with
      | some '.' => readFraction negative value more
      | some 'e' | some 'E' => readExponent negative value more
      | _ => if more = 0 then pure (wholeNumber negative value) else readParts negative value more
    else fail .invalidNumber 1

/-! ### Strings -/

/-- The value of a hexadecimal digit of either case. -/
def hexValue? (c : Char) : Option Nat :=
  let n := c.toNat
  if 48 ≤ n ∧ n ≤ 57 then some (n - 48)
  else if 65 ≤ n ∧ n ≤ 70 then some (n - 55)
  else if 97 ≤ n ∧ n ≤ 102 then some (n - 87)
  else none

/-- The value of four hexadecimal digits. -/
def fourHex? (a b c d : Char) : Option Nat := do
  return 4096 * (← hexValue? a) + 256 * (← hexValue? b) + 16 * (← hexValue? c) + (← hexValue? d)

/-- Why four hexadecimal digits do not follow. -/
def hexFault (s : List Char) : Fault :=
  if byteLength (s.take 4) < 4 then ⟨.endInString, [], 0⟩ else ⟨.invalidEscape, s, 4⟩

/-- The character of an escape of one letter. -/
def shortEscape? : Char → Option Char
  | '"' => some '"'
  | '\\' => some '\\'
  | '/' => some '/'
  | 'b' => some '\x08'
  | 'f' => some '\x0c'
  | 'n' => some '\n'
  | 'r' => some '\r'
  | 't' => some '\t'
  | _ => none

/-- A code unit that starts a pair, and one that ends it. -/
def isLeading (unit : Nat) : Bool := decide (0xd800 ≤ unit ∧ unit ≤ 0xdbff)
def isTrailing (unit : Nat) : Bool := decide (0xdc00 ≤ unit ∧ unit ≤ 0xdfff)

/-- The character of a pair of code units. -/
def pairChar (leading trailing : Nat) : Char :=
  Char.ofNat (0x10000 + 1024 * (leading - 0xd800) + (trailing - 0xdc00))

/-- The fault behind the first code unit of a pair that is not completed. -/
def pairFault : List Char → Fault
  | [] => ⟨.endInString, [], 0⟩
  | '\\' :: [] => ⟨.endInString, [], 0⟩
  | '\\' :: 'u' :: rest => hexFault rest
  | '\\' :: rest => ⟨.unexpectedEndOfHexEscape, rest, 1⟩
  | rest => ⟨.unexpectedEndOfHexEscape, rest, 1⟩

/-- Reads a string behind its opening quote; `acc` holds its characters so far,
the last one first. -/
def stringFrom (acc : List Char) : List Char → Except Fault (String × List Char)
  | [] => .error ⟨.endInString, [], 0⟩
  | '"' :: rest => .ok (String.ofList acc.reverse, rest)
  | '\\' :: 'u' :: a :: b :: c :: d :: rest =>
    match fourHex? a b c d with
    | none => .error (hexFault (a :: b :: c :: d :: rest))
    | some unit =>
      if isTrailing unit then .error ⟨.loneSurrogate, rest, 0⟩
      else if isLeading unit then
        match rest with
        | '\\' :: 'u' :: e :: f :: g :: h :: rest' =>
          match fourHex? e f g h with
          | none => .error (hexFault (e :: f :: g :: h :: rest'))
          | some unit' =>
            if isTrailing unit' then stringFrom (pairChar unit unit' :: acc) rest'
            else .error ⟨.loneSurrogate, rest', 0⟩
        | rest => .error (pairFault rest)
      else stringFrom (Char.ofNat unit :: acc) rest
  | '\\' :: 'u' :: rest => .error (hexFault rest)
  | ['\\'] => .error ⟨.endInString, [], 0⟩
  | '\\' :: c :: rest =>
    match shortEscape? c with
    | some c => stringFrom (c :: acc) rest
    | none => .error ⟨.invalidEscape, c :: rest, 1⟩
  | c :: rest =>
    if c.toNat < 0x20 then .error ⟨.controlCharacter, rest, 0⟩
    else stringFrom (c :: acc) rest

/-- Reads a string from its opening quote on. -/
def readString : Scan String := do
  skip
  fun s => stringFrom [] s

/-! ### Whole texts -/

/-- Nothing but blanks is left. -/
def readEnd : Scan Unit := do
  match ← skipSpace with
  | none => pure ()
  | some _ => failHere .trailingCharacters

/-- Runs a reader on a whole text. -/
def runScan {α : Type} (scan : Scan α) (text : String) : Except Fault α :=
  (do let a ← scan; readEnd; pure a : Scan α).run' text.toList

end LeaseQueue.Json
