/-
The extent of a JSON value of which nothing is kept, as the value of an unknown
key: brackets of any depth, numbers of any size, and strings with any escapes of
four digits.

* `skipNumber`, `skipString`: the tokens;
* `closeBrackets`: the brackets that end behind an item;
* `skipValue`: a whole value.
-/
import LeaseQueue.Json.Reader

namespace LeaseQueue.Json

open Scan

/-- Drops the digits of a number behind its sign. -/
def skipWhole : Scan Unit := do
  match ← peek with
  | some '0' =>
    skip
    match ← peek with
    | some c => if c.isDigit then failHere .invalidNumber else pure ()
    | none => pure ()
  | some c =>
    if c.isDigit then
      let _ ← dropDigits
    else fail .invalidNumber 1
  | none => fail .invalidNumber

/-- Drops a fraction from its point on. -/
def skipFraction : Scan Unit := do
  skip
  if (← dropDigits) = 0 then failHere .invalidNumber

/-- Drops an exponent from its `e` on. -/
def skipExponent : Scan Unit := do
  skip
  match ← peek with
  | some '+' | some '-' => skip
  | _ => pure ()
  if (← dropDigits) = 0 then fail .invalidNumber 1

/-- Drops a number behind its sign. -/
def skipNumber : Scan Unit := do
  skipWhole
  if (← peek) = some '.' then skipFraction
  match ← peek with
  | some 'e' | some 'E' => skipExponent
  | _ => pure ()

/-- Drops a string behind its opening quote; any four digits make an escape. -/
def skipStringFrom : List Char → Except Fault (Unit × List Char)
  | [] => .error ⟨.endInString, [], 0⟩
  | '"' :: rest => .ok ((), rest)
  | '\\' :: 'u' :: a :: b :: c :: d :: rest =>
    match fourHex? a b c d with
    | none => .error (hexFault (a :: b :: c :: d :: rest))
    | some _ => skipStringFrom rest
  | '\\' :: 'u' :: rest => .error (hexFault rest)
  | ['\\'] => .error ⟨.endInString, [], 0⟩
  | '\\' :: c :: rest =>
    match shortEscape? c with
    | some _ => skipStringFrom rest
    | none => .error ⟨.invalidEscape, c :: rest, 1⟩
  | c :: rest =>
    if c.toNat < 0x20 then .error ⟨.controlCharacter, c :: rest, 0⟩ else skipStringFrom rest

/-- Drops a string from its opening quote on. -/
def skipString : Scan Unit := do
  skip
  fun s => skipStringFrom s

/-- A bracket that is open: of an array, or of an object. -/
inductive Bracket where
  | square
  | curly

/-- The fault of a text that ends behind an open bracket. -/
def Bracket.endFault : Bracket → Cause
  | .square => .endInList
  | .curly => .endInObject

/-- The fault of a text that goes on otherwise behind an item. -/
def Bracket.commaFault : Bracket → Cause
  | .square => .expectedListCommaOrEnd
  | .curly => .expectedObjectCommaOrEnd

/-- The character that closes a bracket. -/
def Bracket.closing : Bracket → Char
  | .square => ']'
  | .curly => '\x7d'

/-- Closes brackets up to the next comma; `behindItem` when an item stands in
front. Gives the brackets that are still open. -/
def closeBrackets : (fuel : Nat) → (behindItem : Bool) → List Bracket → Scan (List Bracket)
  | 0, _, stack => pure stack
  | _, _, [] => pure []
  | fuel + 1, behindItem, bracket :: stack => do
    match ← skipSpace with
    | none => failHere bracket.endFault
    | some c =>
      if c = ',' ∧ behindItem then
        skip
        pure (bracket :: stack)
      else if c = bracket.closing then
        skip
        closeBrackets fuel true stack
      else if behindItem then failHere bracket.commaFault
      else pure (bracket :: stack)

/-- Drops the key and the colon in front of a value, inside of an object. -/
def skipKey : List Bracket → Scan Unit
  | .curly :: _ => do
    match ← skipSpace with
    | some '"' => skipString
    | some _ => failHere .keyMustBeString
    | none => failHere .endInObject
    readColon
  | _ => pure ()

/-- Drops a word, a number or a string, or opens a bracket. -/
def skipOne : Scan (Option Bracket) := do
  match ← skipSpace with
  | none => failHere .endInValue
  | some 'n' => skip; readIdent "ull".toList; pure none
  | some 't' => skip; readIdent "rue".toList; pure none
  | some 'f' => skip; readIdent "alse".toList; pure none
  | some '-' => skip; skipNumber; pure none
  | some '"' => skipString; pure none
  | some '[' => skip; pure (some .square)
  | some '\x7b' => skip; pure (some .curly)
  | some c => if c.isDigit then skipNumber; pure none else failHere .expectedValue

/-- Drops values while brackets are open. -/
def skipOpen : (fuel : Nat) → List Bracket → Scan Unit
  | 0, _ => pure ()
  | fuel + 1, stack => do
    let opened ← skipOne
    let stack ← match opened with
      | some bracket => closeBrackets (fuel + 1) false (bracket :: stack)
      | none => closeBrackets (fuel + 1) true stack
    match stack with
    | [] => pure ()
    | stack =>
      skipKey stack
      skipOpen fuel stack

/-- Drops a value nested to any depth. -/
def skipValue : Scan Unit := do skipOpen (fuelFor (← get)) []

end LeaseQueue.Json
