/-
JSON values as text:

* `Json.compact`: without any space;
* `Json.pretty`: one item to a line, two spaces deeper at each level, an empty
  array or object on the line it starts on.
-/
import LeaseQueue.Json.Basic
import LeaseQueue.Number.Shortest

namespace LeaseQueue.Json

/-- The digit of a value below sixteen, in lower case. -/
def hexDigit (n : Nat) : Char :=
  Char.ofNat (if n < 10 then 48 + n else 87 + n)

/-- The written form of one character of a string. -/
def escape (c : Char) : List Char :=
  match c with
  | '"' => ['\\', '"']
  | '\\' => ['\\', '\\']
  | '\x08' => ['\\', 'b']
  | '\x0c' => ['\\', 'f']
  | '\n' => ['\\', 'n']
  | '\r' => ['\\', 'r']
  | '\t' => ['\\', 't']
  | c =>
    if c.toNat < 0x20 then
      ['\\', 'u', '0', '0', hexDigit (c.toNat / 16), hexDigit (c.toNat % 16)]
    else [c]

/-- The written form of a string. -/
def stringText (s : String) : List Char :=
  '"' :: (s.toList.flatMap escape ++ ['"'])

/-- The text of a value that holds no other. -/
def scalarText : Json → List Char
  | .null => "null".toList
  | .bool true => "true".toList
  | .bool false => "false".toList
  | .int n => (toString n).toList
  | .double x => x.text
  | .string s => stringText s
  | .array _ | .object _ => []

mutual

/-- The text of a value without spaces, in front of `rest`. -/
def compactOnto : Json → List Char → List Char
  | .array items, rest => '[' :: itemsOnto items (']' :: rest)
  | .object entries, rest => '\x7b' :: entriesOnto entries ('\x7d' :: rest)
  | value, rest => scalarText value ++ rest

def itemsOnto : List Json → List Char → List Char
  | [], rest => rest
  | [item], rest => compactOnto item rest
  | item :: items, rest => compactOnto item (',' :: itemsOnto items rest)

def entriesOnto : List (String × Json) → List Char → List Char
  | [], rest => rest
  | [(key, value)], rest => stringText key ++ ':' :: compactOnto value rest
  | (key, value) :: entries, rest =>
    stringText key ++ ':' :: compactOnto value (',' :: entriesOnto entries rest)

end

/-- The text of a value without spaces. -/
def compact (value : Json) : String := String.ofList (compactOnto value [])

/-- A new line, indented to a level. -/
def newline (level : Nat) : List Char := '\n' :: List.replicate (2 * level) ' '

mutual

/-- The text of a value over several lines, in front of `rest`. -/
def prettyOnto (level : Nat) : Json → List Char → List Char
  | .array [], rest => '[' :: ']' :: rest
  | .array items, rest =>
    '[' :: prettyItemsOnto (level + 1) items (newline level ++ ']' :: rest)
  | .object [], rest => '\x7b' :: '\x7d' :: rest
  | .object entries, rest =>
    '\x7b' :: prettyEntriesOnto (level + 1) entries (newline level ++ '\x7d' :: rest)
  | value, rest => scalarText value ++ rest

def prettyItemsOnto (level : Nat) : List Json → List Char → List Char
  | [], rest => rest
  | [item], rest => newline level ++ prettyOnto level item rest
  | item :: items, rest =>
    newline level ++ prettyOnto level item (',' :: prettyItemsOnto level items rest)

def prettyEntriesOnto (level : Nat) : List (String × Json) → List Char → List Char
  | [], rest => rest
  | [(key, value)], rest =>
    newline level ++ (stringText key ++ ':' :: ' ' :: prettyOnto level value rest)
  | (key, value) :: entries, rest =>
    newline level ++ (stringText key ++ ':' :: ' ' ::
      prettyOnto level value (',' :: prettyEntriesOnto level entries rest))

end

/-- The text of a value over several lines. -/
def pretty (value : Json) : String := String.ofList (prettyOnto 0 value [])

end LeaseQueue.Json
