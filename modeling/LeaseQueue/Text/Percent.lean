/-
Percent-encoding of text by its UTF-8 bytes:

* `encodeByte`, `encode`: letters, digits and the four marks `-`, `.`, `_` and
  `~` stand for themselves, every other byte becomes `%` and two digits;
* `decodeBytes`, `decode`: the way back, which refuses a `%` without two
  digits and bytes that are no UTF-8.
-/
namespace LeaseQueue.Text.Percent

/-- A byte that stands for itself. -/
def isUnreserved (b : UInt8) : Bool :=
  let n := b.toNat
  decide (48 ≤ n ∧ n ≤ 57) || decide (65 ≤ n ∧ n ≤ 90) || decide (97 ≤ n ∧ n ≤ 122)
    || n == 45 || n == 46 || n == 95 || n == 126

/-- The digit of a value below sixteen, in upper case. -/
def hexDigit (n : Nat) : Char :=
  Char.ofNat (if n < 10 then 48 + n else 55 + n)

/-- The value of a hexadecimal digit of either case. -/
def hexValue? (c : Char) : Option Nat :=
  let n := c.toNat
  if 48 ≤ n ∧ n ≤ 57 then some (n - 48)
  else if 65 ≤ n ∧ n ≤ 70 then some (n - 55)
  else if 97 ≤ n ∧ n ≤ 102 then some (n - 87)
  else none

/-- The written form of one byte. -/
def encodeByte (b : UInt8) : List Char :=
  if isUnreserved b then [Char.ofNat b.toNat]
  else ['%', hexDigit (b.toNat / 16), hexDigit (b.toNat % 16)]

/-- The written form of a text. -/
def encode (s : String) : String :=
  String.ofList (s.toUTF8.toList.flatMap encodeByte)

/-- The bytes that a written form stands for. -/
def decodeBytes : List Char → Option (List UInt8)
  | [] => some []
  | '%' :: high :: low :: rest =>
    match hexValue? high, hexValue? low, decodeBytes rest with
    | some h, some l, some bytes => some (UInt8.ofNat (16 * h + l) :: bytes)
    | _, _, _ => none
  | c :: rest =>
    if c = '%' then none
    else (decodeBytes rest).map (c.toString.toUTF8.toList ++ ·)

/-- The text that a written form stands for. -/
def decode (s : String) : Option String :=
  (decodeBytes s.toList).bind fun bytes => String.fromUTF8? ⟨bytes.toArray⟩

end LeaseQueue.Text.Percent
