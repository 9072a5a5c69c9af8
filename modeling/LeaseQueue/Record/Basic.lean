/-
Records with named fields, written as a JSON object of their fields or as an
array of the field values in order:

* `Kind`: the kinds of field, with the type of their values;
* `Shape`: the fields of a record, with `Shape.Values`, one value for each;
* `Shape.Found`: the fields found so far, completed by `Shape.complete`.
-/
import LeaseQueue.Json.Fault
import LeaseQueue.Task.Basic
import LeaseQueue.Time.TimestampReader

namespace LeaseQueue

/-- The kind of a field of a record. -/
inductive Kind where
  | integer
  | string
  | boolean
  | json
  | array
  | status
  | time
  | optional (kind : Kind)

/-- The type of the values of a kind. -/
def Kind.Value : Kind → Type
  | .integer => Int
  | .string => String
  | .boolean => Bool
  | .json => Json
  | .array => List Json
  | .status => Status
  | .time => Timestamp
  | .optional kind => Option kind.Value

/-- What a message says is expected of a field. -/
def Kind.expected : Kind → String
  | .integer => "i64"
  | .string => "a string"
  | .boolean => "a boolean"
  | .json => "any valid JSON value"
  | .array => "a sequence"
  | .status => "string or map"
  | .time => "an RFC 3339 formatted date and time string"
  | .optional _ => "option"

/-- A field: its name, its kind and the value that stands for a missing one. -/
structure Field where
  name : String
  kind : Kind
  default : Option kind.Value

/-- A field that has to be there. -/
def Field.required (name : String) (kind : Kind) : Field := ⟨name, kind, none⟩

/-- A field that may be missing, which is a value of its own. -/
def Field.optional (name : String) (kind : Kind) : Field :=
  ⟨name, .optional kind, some (none : Option kind.Value)⟩

/-- The fields of a record, in order. -/
structure Shape where
  name : String
  fields : List Field

namespace Shape

/-- One value for every field. -/
def Values : List Field → Type
  | [] => Unit
  | field :: fields => field.kind.Value × Values fields

/-- A value for every field that was found so far. -/
def Found : List Field → Type
  | [] => Unit
  | field :: fields => Option field.kind.Value × Found fields

/-- Nothing is found yet. -/
def Found.none : (fields : List Field) → Found fields
  | [] => ()
  | _ :: fields => (Option.none, Found.none fields)

/-- The fields found, with the defaults of those that are missing. -/
def complete : (fields : List Field) → Found fields → Except Json.Mismatch (Values fields)
  | [], _ => .ok ()
  | field :: fields, (found, rest) =>
    match found, field.default with
    | some value, _ | Option.none, some value => (complete fields rest).map (value, ·)
    | Option.none, Option.none => .error (.missingField field.name)

/-- What a message says is expected of the whole record. -/
def expected (shape : Shape) : String := s!"struct {shape.name}"

/-- What a message says is expected of an array that is too short. -/
def expectedLength (shape : Shape) : String :=
  s!"struct {shape.name} with {shape.fields.length} elements"

end Shape

/-- The value of an integer field. -/
def Kind.integerOf (value : Json) : Except Json.Mismatch Int :=
  match value with
  | .int n =>
    if Text.minInt64 ≤ n ∧ n ≤ Text.maxInt64 then .ok n
    else .error (.invalidValue value Kind.integer.expected)
  | _ => .error (.invalidType value Kind.integer.expected)

/-- The value of a status field from its name. -/
def Kind.statusOf (name : String) : Except Json.Mismatch Status :=
  match Status.ofName? name with
  | some s => .ok s
  | none => .error (.unknownVariant name (Status.all.map Status.name))

/-- The value of a timestamp field from its text. -/
def Kind.timestampOf (text : String) : Except Json.Mismatch Timestamp :=
  match Timestamp.read? text with
  | some t => .ok t
  | none => .error (.malformedTimestamp text)

end LeaseQueue
