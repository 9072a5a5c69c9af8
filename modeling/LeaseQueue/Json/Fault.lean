/-
What can be wrong with a JSON text, and where:

* `Mismatch`: a well-formed value that is not of the kind asked for, with
  `Mismatch.message`;
* `Cause`: the faults of a text, with `Cause.message` and `Cause.category`;
* `Fault`: a cause at a place, with its line and column in bytes;
* `Fault.embedded`: the same seen from a text around it.
-/
import LeaseQueue.Json.Printer
import LeaseQueue.Text.Quoted

namespace LeaseQueue.Json

/-! ### Values of the wrong kind -/

/-- A value as a message about its kind names it. -/
def describe : Json → String
  | .null => "null"
  | .bool b => s!"boolean `{b}`"
  | .int n => s!"integer `{n}`"
  | .double x => "floating point `" ++ String.ofList x.text ++ "`"
  | .string s => s!"string {Text.quote s}"
  | .array _ => "sequence"
  | .object _ => "map"

/-- Names between backquotes, with commas. -/
def listNames (names : List String) : String :=
  ", ".intercalate (names.map fun name => s!"`{name}`")

/-! ### What can be wrong -/

mutual

/-- Why a value is not of the kind asked for. An embedded text that is no value
has a fault with a line and a column of its own. -/
inductive Mismatch where
  | invalidType (found : Json) (expected : String)
  | invalidValue (found : Json) (expected : String)
  | invalidLength (found : Nat) (expected : String)
  | unknownVariant (found : String) (known : List String)
  | missingField (name : String)
  | duplicateField (name : String)
  | malformedTimestamp (found : String)
  | embedded (cause : Cause) (line column : Nat)

/-- What is wrong with a text. -/
inductive Cause where
  | endInList
  | endInObject
  | endInString
  | endInValue
  | expectedColon
  | expectedListCommaOrEnd
  | expectedObjectCommaOrEnd
  | expectedIdent
  | expectedValue
  | invalidEscape
  | invalidNumber
  | numberOutOfRange
  | controlCharacter
  | keyMustBeString
  | loneSurrogate
  | unexpectedEndOfHexEscape
  | trailingComma
  | trailingCharacters
  | recursionLimit
  | mismatch (why : Mismatch)

end

mutual

/-- The wording of a mismatch. -/
def Mismatch.message : Mismatch → String
  | .invalidType found expected => s!"invalid type: {describe found}, expected {expected}"
  | .invalidValue found expected => s!"invalid value: {describe found}, expected {expected}"
  | .invalidLength found expected => s!"invalid length {found}, expected {expected}"
  | .unknownVariant found known =>
    s!"unknown variant `{found}`, expected one of {listNames known}"
  | .missingField name => s!"missing field `{name}`"
  | .duplicateField name => s!"duplicate field `{name}`"
  | .malformedTimestamp found => s!"malformed date and time {Text.quote found}"
  | .embedded cause line column => s!"{cause.message} at line {line} column {column}"

/-- The wording of a cause. -/
def Cause.message : Cause → String
  | .endInList => "EOF while parsing a list"
  | .endInObject => "EOF while parsing an object"
  | .endInString => "EOF while parsing a string"
  | .endInValue => "EOF while parsing a value"
  | .expectedColon => "expected `:`"
  | .expectedListCommaOrEnd => "expected `,` or `]`"
  | .expectedObjectCommaOrEnd => "expected `,` or `\x7d`"
  | .expectedIdent => "expected ident"
  | .expectedValue => "expected value"
  | .invalidEscape => "invalid escape"
  | .invalidNumber => "invalid number"
  | .numberOutOfRange => "number out of range"
  | .controlCharacter =>
    "control character (\\u0000-\\u001F) found while parsing a string"
  | .keyMustBeString => "key must be a string"
  | .loneSurrogate => "lone leading surrogate in hex escape"
  | .unexpectedEndOfHexEscape => "unexpected end of hex escape"
  | .trailingComma => "trailing comma"
  | .trailingCharacters => "trailing characters"
  | .recursionLimit => "recursion limit exceeded"
  | .mismatch why => why.message

end

/-- The three kinds of fault: the text ends too early, is no JSON, or holds other
values than asked for. -/
inductive Category where
  | endOfText
  | notJson
  | wrongData
  deriving DecidableEq

/-- The kind of a cause. -/
def Cause.category : Cause → Category
  | .endInList | .endInObject | .endInString | .endInValue => .endOfText
  | .mismatch _ => .wrongData
  | _ => .notJson

/-! ### Faults of a text -/

/-- A cause at a place: `into` bytes into the part of the text that is not read
yet. -/
structure Fault where
  cause : Cause
  unread : List Char
  into : Nat

/-- The number of bytes in UTF-8. -/
def byteLength (s : List Char) : Nat :=
  s.foldl (fun n c => n + c.utf8Size) 0

/-- Line and column of the first `offset` bytes of a text. -/
def lineAndColumn (text : String) (offset : Nat) : Nat × Nat :=
  (text.toUTF8.toList.take offset).foldl
    (fun at' b => if b = 10 then (at'.1 + 1, 0) else (at'.1, at'.2 + 1)) (1, 0)

/-- Line and column of a fault of a text. -/
def Fault.position (fault : Fault) (text : String) : Nat × Nat :=
  lineAndColumn text (text.utf8ByteSize - byteLength fault.unread + fault.into)

/-- A fault of a text as a mismatch of its own. A fault in an embedded text keeps
the line and the column that it has there. -/
def Fault.embedded (fault : Fault) (text : String) : Mismatch :=
  match fault.cause with
  | .mismatch (.embedded cause line column) => .embedded cause line column
  | cause =>
    let place := fault.position text
    .embedded cause place.1 place.2

/-- The wording of a fault of a text. -/
def Fault.message (fault : Fault) (text : String) : String :=
  (fault.embedded text).message

end LeaseQueue.Json
