/-
Embedded values inside of a value that is already read. In such a value the
entries of an object stand in the order of their keys, so the mark counts where
it is the least key.

* `ofEmbedded`: the value of an embedded text;
* `resolve`: a value with every embedded text in it replaced by its value.
-/
import LeaseQueue.Json.Reader

namespace LeaseQueue.Json

/-- The value of an embedded text, or the fault of that text. -/
def ofEmbedded (text : String) : Except Mismatch Json :=
  embeddedIn text (readValue (fuelFor text.toList) depthLimit)

/-- What stands at the mark, when it is the first key. -/
def atMark? : List (String × Json) → Option Json
  | [] => none
  | entry :: _ => if entry.1 = mark then some entry.2 else none

/-- The value that an object with the mark embeds: its only entry is a text. -/
def ofMarked (entries : Nat) : Json → Except Mismatch Json
  | .string text => do
    let value ← ofEmbedded text
    if entries = 1 then .ok value
    else .error (.invalidLength entries "fewer elements in map")
  | value => .error (.invalidType value expectedAtMark)

mutual

/-- A value with every embedded text in it replaced by its value. -/
def resolve : Json → Except Mismatch Json
  | .array items => do return .array (← resolveItems items)
  | .object entries =>
    match atMark? entries with
    | some value => ofMarked entries.length value
    | none => do return .object (← resolveEntries entries)
  | value => .ok value

def resolveItems : List Json → Except Mismatch (List Json)
  | [] => .ok []
  | item :: items => do return (← resolve item) :: (← resolveItems items)

def resolveEntries : List (String × Json) → Except Mismatch (List (String × Json))
  | [] => .ok []
  | (key, value) :: entries => do
    let value ← resolve value
    return (key, value) :: (← resolveEntries entries)

end

end LeaseQueue.Json
