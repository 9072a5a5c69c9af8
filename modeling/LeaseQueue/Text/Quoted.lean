/-
Quoted text: a text between double quotes, with the characters that would hide
or break it written as escapes. It is how messages and listings show names:

* `quoteChar`: the written form of one character;
* `quote`: the written form of a text.
-/
import LeaseQueue.Text.Blank
import LeaseQueue.Text.Unprintable

namespace LeaseQueue.Text

/-- The digits of a code point in base sixteen, without leading zeros. -/
def hexDigits (code : Nat) : List Char :=
  Nat.toDigits 16 code

/-- A character that is written by its code point. -/
def isHidden (c : Char) : Bool :=
  if c.toNat < 0x7f then decide (c.toNat < 0x20)
  else inRanges extendingRanges c.toNat || inRanges unprintableRanges c.toNat

/-- The written form of one character of a quoted text. -/
def quoteChar (c : Char) : List Char :=
  match c with
  | '\t' => ['\\', 't']
  | '\r' => ['\\', 'r']
  | '\n' => ['\\', 'n']
  | '\x00' => ['\\', '0']
  | '"' => ['\\', '"']
  | '\\' => ['\\', '\\']
  | c =>
    if isHidden c then ['\\', 'u', '\x7b'] ++ hexDigits c.toNat ++ ['\x7d'] else [c]

/-- The written form of a quoted text. -/
def quote (s : String) : String :=
  String.ofList ('"' :: (s.toList.flatMap quoteChar ++ ['"']))

end LeaseQueue.Text
