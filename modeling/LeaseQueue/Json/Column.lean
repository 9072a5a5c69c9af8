/-
JSON values in a column of the database.

The column keeps a value in a form of its own and gives it back as text, which is read
again. On the way

* the entries of an object change their order: shorter keys come first (`keyBefore`), so
  that an object may begin with the mark of an embedded value that did not before;
* numbers become exact decimals without an exponent (`numericText`), so that a great
  double without a fraction comes back as a whole number, and no zero keeps its sign;
* a value that is nested too deep is written, but not read.

`readColumn?` is the value that comes back, if one does. Texts with U+0000 do not occur: the
column takes none.
-/
import LeaseQueue.Json.Embedded
import LeaseQueue.Number.Shortest

namespace LeaseQueue.Json

/-! ### Numbers -/

/-- The text of digits with a power of ten, without an exponent. Where the shortest text of the
number has a point, a point stays. -/
def numericDigits (digits : List Char) (power : Int) : List Char :=
  let point := (digits.length : Int) + power
  if 0 ≤ power then
    let fraction := if point ≤ Double.positionalBelow then ['.', '0'] else []
    digits ++ List.replicate power.toNat '0' ++ fraction
  else if 0 < point then digits.take point.toNat ++ '.' :: digits.drop point.toNat
  else '0' :: '.' :: (List.replicate point.natAbs '0' ++ digits)

/-- The text by which the column gives a double back. A zero has no sign, and what is no number
was written as `null`. -/
def numericText : Double → List Char
  | .finite negative mantissa exponent =>
    if mantissa = 0 then ['0', '.', '0']
    else
      let sign := if negative then ['-'] else []
      let d := Double.shortest mantissa exponent
      sign ++ numericDigits (Nat.toDigits 10 d.1) d.2
  | .nan | .infinite _ => ['n', 'u', 'l', 'l']

/-- The number that comes back for a double. -/
def readNumeric? (x : Double) : Option Json := (parse (String.ofList (numericText x))).toOption

/-! ### Values -/

/-- The order of keys in the column: one of fewer bytes first, and those of one length in the
order of their characters, which is that of their bytes. -/
def keyBefore (a b : String) : Bool :=
  decide (a.utf8ByteSize < b.utf8ByteSize) ||
    (a.utf8ByteSize == b.utf8ByteSize && decide (a < b))

/-- What stands at the mark, when it is the first key in the column. -/
def atColumnMark? (entries : List (String × Json)) : Option Json :=
  if entries.all fun entry => entry.1 == mark || keyBefore mark entry.1 then lookup mark entries
  else none

mutual

/-- The value that comes back from the column; none if it cannot be read. -/
def readColumn? (depth : Nat) : Json → Option Json
  | .array items => if depth ≤ 1 then none else .array <$> readColumnItems? (depth - 1) items
  | .object entries =>
    if depth ≤ 1 then none
    else
      match atColumnMark? entries with
      | some value => (ofMarked entries.length value).toOption
      | none => .object <$> readColumnEntries? (depth - 1) entries
  | .double x => readNumeric? x
  | value => some value

def readColumnItems? (depth : Nat) : List Json → Option (List Json)
  | [] => some []
  | item :: items => do return (← readColumn? depth item) :: (← readColumnItems? depth items)

def readColumnEntries? (depth : Nat) :
    List (String × Json) → Option (List (String × Json))
  | [] => some []
  | (key, value) :: entries => do
    let value ← readColumn? depth value
    return (key, value) :: (← readColumnEntries? depth entries)

end

end LeaseQueue.Json
