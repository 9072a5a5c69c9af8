/-
Reading JSON values from text.

* `readScalar`: a value without parts;
* `readText`: a string where one is asked for;
* `readValue`: a value, nested less than 128 deep;
* `Json.parse`: a text that is one value between blanks.

An object whose first key is `mark` embeds a value: the string of that key is the
text of the value, and the object stands for it.
-/
import LeaseQueue.Json.Token

namespace LeaseQueue.Json

open Scan

/-! ### Values without parts -/

/-- Reads a value without parts from its first character on. -/
def readScalar : Char → Scan Json
  | 'n' => do skip; readIdent "ull".toList; pure .null
  | 't' => do skip; readIdent "rue".toList; pure (.bool true)
  | 'f' => do skip; readIdent "alse".toList; pure (.bool false)
  | '-' => do skip; readNumber true
  | '"' => .string <$> readString
  | c => if c.isDigit then readNumber false else failHere .expectedValue

/-- Reads a value that is of the wrong kind as far as it has to be read to be
named. -/
def readMismatch {α : Type} (expected : String) : Scan α := do
  let wrong (value : Json) : Scan α := mismatch (.invalidType value expected)
  match ← peek with
  | none => failHere .endInValue
  | some '[' => wrong (.array [])
  | some '\x7b' => wrong (.object [])
  | some c => readScalar c >>= wrong

/-- Reads a string, or the mismatch. -/
def readText (expected : String) : Scan String := do
  match ← skipSpace with
  | none => failHere .endInValue
  | some '"' => readString
  | some _ => readMismatch expected

/-! ### Arrays and objects -/

/-- The deepest nesting, counted from one. -/
def depthLimit : Nat := 128

/-- Reads the items of an array up to its bracket, which stays; `first` before
the first one. -/
def nextItem? (first : Bool) : Scan Bool := do
  match ← skipSpace with
  | none => failHere .endInList
  | some c =>
    if c = ']' then pure false
    else if first then pure true
    else if c = ',' then
      skip
      match ← skipSpace with
      | none => failHere .endInValue
      | some ']' => failHere .trailingComma
      | some _ => pure true
    else failHere .expectedListCommaOrEnd

/-- Finds the next key of an object, from its quote on, or the brace, which
stays. -/
def nextKey? (first : Bool) : Scan Bool := do
  match ← skipSpace with
  | none => failHere .endInObject
  | some c =>
    if c = '\x7d' then pure false
    else if first then
      if c = '"' then pure true else failHere .keyMustBeString
    else if c = ',' then
      skip
      match ← skipSpace with
      | none => failHere .endInValue
      | some '"' => pure true
      | some '\x7d' => failHere .trailingComma
      | some _ => failHere .keyMustBeString
    else failHere .expectedObjectCommaOrEnd

/-- Reads the colon behind a key. -/
def readColon : Scan Unit := do
  match ← skipSpace with
  | some ':' => skip
  | some _ => failHere .expectedColon
  | none => failHere .endInObject

/-- Goes one level deeper, from the bracket on: the depth left inside. -/
def enter (depth : Nat) : Scan Nat := do
  if depth ≤ 1 then failHere .recursionLimit
  else
    skip
    pure (depth - 1)

/-- The key that marks an embedded value. -/
def mark : String := "$serde_json::private::RawValue"

/-- What a message says is expected at the mark. -/
def expectedAtMark : String := "raw value"

/-- Reads the brace behind the text of an embedded value, which has no other
entries beside it. -/
def readEmbeddedEnd : Scan Unit := do
  match ← skipSpace with
  | some '\x7d' => skip
  | some ',' => failHere .trailingComma
  | some _ => failHere .trailingCharacters
  | none => failHere .endInObject

/-- The value of an embedded text by its reader, or the fault of that text. -/
def embeddedIn (text : String) (scan : Scan Json) : Except Mismatch Json :=
  match runScan scan text with
  | .ok value => .ok value
  | .error fault => .error (fault.embedded text)

mutual

/-- Reads a value nested less than `depth` deep. Every two calls read a
character, and an embedded text is shorter than the text around it, so `fuel`
above twice the length of the text is never used up. -/
def readValue : (fuel depth : Nat) → Scan Json
  | 0, _ => fail .endInValue
  | fuel + 1, depth => do
    match ← skipSpace with
    | none => failHere .endInValue
    | some '[' => do
      let items ← readItems fuel (← enter depth) true
      skip
      pure (.array items)
    | some '\x7b' => do
      let inside ← enter depth
      if ← nextKey? true then
        let key ← readString
        readColon
        if key = mark then
          let text ← readText expectedAtMark
          let value ← ofExcept (embeddedIn text (readValue fuel depthLimit))
          readEmbeddedEnd
          pure value
        else
          let value ← readValue fuel inside
          let entries ← readEntries fuel inside
          skip
          pure (ofEntries ((key, value) :: entries))
      else
        skip
        pure emptyObject
    | some c => readScalar c

def readItems : (fuel depth : Nat) → (first : Bool) → Scan (List Json)
  | 0, _, _ => fail .endInList
  | fuel + 1, depth, first => do
    if ← nextItem? first then
      let item ← readValue fuel depth
      let items ← readItems fuel depth false
      pure (item :: items)
    else pure []

/-- Reads the entries behind the first one up to the brace, which stays. -/
def readEntries : (fuel depth : Nat) → Scan (List (String × Json))
  | 0, _ => fail .endInObject
  | fuel + 1, depth => do
    if ← nextKey? false then
      let key ← readString
      readColon
      let value ← readValue fuel depth
      let entries ← readEntries fuel depth
      pure ((key, value) :: entries)
    else pure []

end

/-- Fuel for any value of a text. -/
def fuelFor (s : List Char) : Nat := 2 * s.length + 2

/-- The value of a text. -/
def parse (text : String) : Except Fault Json :=
  runScan (readValue (fuelFor text.toList) depthLimit) text

end LeaseQueue.Json
