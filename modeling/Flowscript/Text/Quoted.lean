import Flowscript.Text.Extender
import Flowscript.Text.Unprintable

/-!
# Quoted texts

A dump shows each text between double quotes, with what would be ambiguous or invisible written as
an escape: the quote and the backslash, a few control characters by a letter, and every other
character that cannot be shown, or that would attach itself to the one before it, by its number. An
apostrophe is not escaped.

## Main definitions

* `quotedChar` — how a character is written.
* `quoted`, `quotedList` — a text, and a list of texts.
-/

namespace Flowscript

/-- The number of a character in hexadecimal, between braces. -/
def numberEscape (c : Char) : List Char :=
  ['\\', 'u', '{'] ++ Nat.toDigits 16 c.toNat ++ ['}']

/-- How a character is written between quotes. -/
def quotedChar (c : Char) : List Char :=
  if c = '\x00' then ['\\', '0']
  else if c = '\t' then ['\\', 't']
  else if c = '\r' then ['\\', 'r']
  else if c = '\n' then ['\\', 'n']
  else if c = '"' then ['\\', '"']
  else if c = '\\' then ['\\', '\\']
  else if ' ' ≤ c && c < '\x7f' then [c]
  else if isExtender c || isUnprintable c then numberEscape c
  else [c]

/-- A text between quotes. -/
def quoted (s : String) : String := String.ofList ('"' :: s.toList.flatMap quotedChar ++ ['"'])

/-- A list of texts between brackets. -/
def quotedList (l : List String) : String := "[" ++ String.intercalate ", " (l.map quoted) ++ "]"

end Flowscript
