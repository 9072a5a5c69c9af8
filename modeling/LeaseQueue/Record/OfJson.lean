/-
Records from JSON values:

* `Kind.ofJson`: the value of a field, or why there is none;
* `Shape.ofJson`: the record of an object, in which unknown keys are ignored and
  the entries count in the order of their keys, or of an array.
-/
import LeaseQueue.Json.Embedded
import LeaseQueue.Record.Basic

namespace LeaseQueue

/-- A state is the name of a variant, or an object of one entry with that key and
the value `null`. -/
def Kind.statusOfJson : Json → Except Json.Mismatch Status
  | .string name => statusOf name
  | .object [(name, value)] => do
    let status ← statusOf name
    if value = .null then .ok status else .error (.invalidType value "unit")
  | .object entries => .error (.invalidValue (.object entries) "map with a single key")
  | value => .error (.invalidType value Kind.status.expected)

/-- The value of a field. In a field of any value, and in the items of an array,
embedded texts stand for their values. -/
def Kind.ofJson : (kind : Kind) → Json → Except Json.Mismatch kind.Value
  | .integer, value => integerOf value
  | .string, .string s => .ok s
  | .string, value => .error (.invalidType value Kind.string.expected)
  | .boolean, .bool b => .ok b
  | .boolean, value => .error (.invalidType value Kind.boolean.expected)
  | .json, value => value.resolve
  | .array, .array items => Json.resolveItems items
  | .array, value => .error (.invalidType value Kind.array.expected)
  | .status, value => statusOfJson value
  | .time, .string s => timestampOf s
  | .time, value => .error (.invalidType value Kind.time.expected)
  | .optional _, .null => .ok none
  | .optional kind, value => (kind.ofJson value).map some

/-- The kind has a value that says that there is none. -/
def Kind.isOptional : Kind → Bool
  | .optional _ => true
  | _ => false

namespace Shape

/-- Puts the value of a key to the fields found. -/
def addEntry (key : String) (value : Json) :
    (fields : List Field) → Found fields → Except Json.Mismatch (Found fields)
  | [], found => .ok found
  | field :: fields, (first, rest) =>
    if key = field.name then
      match first with
      | some _ => .error (.duplicateField key)
      | none => (field.kind.ofJson value).map fun v => (some v, rest)
    else (addEntry key value fields rest).map (first, ·)

/-- Puts the values of entries to the fields found. -/
def addEntries (fields : List Field) :
    List (String × Json) → Found fields → Except Json.Mismatch (Found fields)
  | [], found => .ok found
  | (key, value) :: entries, found =>
    match addEntry key value fields found with
    | .ok found => addEntries fields entries found
    | .error why => .error why

/-- The values of the items of an array, with the defaults behind its end. -/
def ofItems (shape : Shape) (items : List Json) :
    (fields : List Field) → List Json → Except Json.Mismatch (Values fields)
  | [], [] => .ok ()
  | [], _ :: _ => .error (.invalidLength items.length "fewer elements in array")
  | field :: fields, item :: rest =>
    match field.kind.ofJson item with
    | .ok value => (ofItems shape items fields rest).map (value, ·)
    | .error why => .error why
  | field :: fields, [] =>
    -- an optional field may be missing from an object, not from an array
    if field.kind.isOptional then .error (.invalidLength items.length shape.expectedLength)
    else
      match field.default with
      | none => .error (.invalidLength items.length shape.expectedLength)
      | some value => (ofItems shape items fields []).map (value, ·)

/-- The record of a JSON value. -/
def ofJson (shape : Shape) : Json → Except Json.Mismatch (Values shape.fields)
  | .object entries =>
    match addEntries shape.fields entries (Found.none shape.fields) with
    | .ok found => complete shape.fields found
    | .error why => .error why
  | .array items => ofItems shape items shape.fields items
  | value => .error (.invalidType value shape.expected)

end Shape
end LeaseQueue
