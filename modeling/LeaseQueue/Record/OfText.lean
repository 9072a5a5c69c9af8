/-
Records straight from JSON text, where the first fault from the left decides,
be it one of the text or of a field:

* `Kind.read`: the value of a field;
* `Shape.read`: the record of an object or of an array;
* `Shape.parse`: a text that is one record between blanks.
-/
import LeaseQueue.Json.Skip
import LeaseQueue.Record.OfJson

namespace LeaseQueue

open Json Json.Scan

/-! ### Fields -/

/-- Reads a whole number as far as it goes: a number with a sign, or digits. -/
def Kind.readInteger : Scan Int := do
  match ← skipSpace with
  | none => failHere .endInValue
  | some '-' => do
    skip
    let value ← readNumber true
    ofExcept (integerOf value)
  | some c =>
    if c.isDigit then
      let value ← readNumber false
      ofExcept (integerOf value)
    else readMismatch Kind.integer.expected

/-- Reads the name of a state, or an object of one entry with that key and the
value `null`. -/
def Kind.readStatus (depth : Nat) : Scan Status := do
  match ← skipSpace with
  | none => failHere .endInValue
  | some '"' => do
    let name ← readString
    ofExcept (statusOf name)
  | some '\x7b' => do
    let _ ← enter depth
    let name ← readText "variant identifier"
    let s ← ofExcept (statusOf name)
    readColon
    match ← skipSpace with
    | none => failHere .endInValue
    | some 'n' => skip; readIdent "ull".toList
    | some _ => readMismatch "unit"
    match ← skipSpace with
    | some '\x7d' => skip; pure s
    | some _ => fail .expectedValue
    | none => fail .endInObject
  | some _ => failHere .expectedValue

/-- Reads the value of a field. -/
def Kind.read (depth : Nat) : (kind : Kind) → Scan kind.Value
  | .integer => readInteger
  | .string => readText Kind.string.expected
  | .boolean => do
    match ← skipSpace with
    | none => failHere .endInValue
    | some 't' => skip; readIdent "rue".toList; pure true
    | some 'f' => skip; readIdent "alse".toList; pure false
    | some _ => readMismatch Kind.boolean.expected
  | .json => do readValue (fuelFor (← get)) depth
  | .array => do
    match ← skipSpace with
    | none => failHere .endInValue
    | some '[' => do
      let items ← readItems (fuelFor (← get)) (← enter depth) true
      skip
      pure items
    | some _ => readMismatch Kind.array.expected
  | .status => readStatus depth
  | .time => do
    let written ← readText Kind.time.expected
    ofExcept (timestampOf written)
  | .optional kind => do
    match ← skipSpace with
    | some 'n' => skip; readIdent "ull".toList; pure none
    | _ => some <$> kind.read depth

/-! ### Records -/

namespace Shape

/-- Reads the value of a key behind the colon into the fields found. -/
def readEntry (depth : Nat) (key : String) :
    (fields : List Field) → Found fields → Scan (Found fields)
  | [], found => do
    readColon
    skipValue
    pure found
  | field :: fields, (first, rest) =>
    if key = field.name then
      match first with
      | some _ => mismatch (.duplicateField key)
      | none => do
        readColon
        let value ← field.kind.read depth
        pure (some value, rest)
    else do
      let rest ← readEntry depth key fields rest
      pure (first, rest)

/-- Reads the entries of an object up to its brace, which stays. -/
def readEntries (depth : Nat) (fields : List Field) :
    (fuel : Nat) → (first : Bool) → Found fields → Scan (Found fields)
  | 0, _, found => pure found
  | fuel + 1, first, found => do
    if ← nextKey? first then
      let key ← readString
      let found ← readEntry depth key fields found
      readEntries depth fields fuel false found
    else pure found

/-- Reads the items of an array in the order of the fields. -/
def readItems (shape : Shape) (depth : Nat) :
    (fields : List Field) → (count : Nat) → Scan (Values fields)
  | [], _ => pure ()
  | field :: fields, count => do
    if ← nextItem? (count = 0) then
      let value ← field.kind.read depth
      let values ← readItems shape depth fields (count + 1)
      pure (value, values)
    else mismatch (.invalidLength count shape.expectedLength)

/-- Reads the bracket behind the last field of an array. -/
def readItemsEnd : Scan Unit := do
  match ← skipSpace with
  | some ']' => skip
  | some ',' => do
    skip
    match ← skipSpace with
    | some ']' => failHere .trailingComma
    | _ => failHere .trailingCharacters
  | some _ => failHere .trailingCharacters
  | none => failHere .endInList

/-- Reads a record. -/
def read (shape : Shape) (depth : Nat) : Scan (Values shape.fields) := do
  match ← skipSpace with
  | none => failHere .endInValue
  | some '[' => do
    let inside ← enter depth
    let values ← shape.readItems inside shape.fields 0
    readItemsEnd
    pure values
  | some '\x7b' => do
    let inside ← enter depth
    let found ← readEntries inside shape.fields (fuelFor (← get)) true
      (Found.none shape.fields)
    let values ← ofExcept (complete shape.fields found)
    skip
    pure values
  | some _ => readMismatch shape.expected

/-- The record of a text. -/
def parse (shape : Shape) (text : String) : Except Json.Fault (Values shape.fields) :=
  runScan (shape.read depthLimit) text

end Shape
end LeaseQueue
