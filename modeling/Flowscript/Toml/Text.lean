/-!
# Strings of a settings document

The four spellings of a string, each read from the characters behind its opening mark up to and
including its closing mark.

## Main definitions

* `basicBody`, `literalBody` — strings on one line, with and without escapes.
* `multilineBasicBody`, `multilineLiteralBody` — strings over several lines.
-/

namespace Flowscript.Toml

/-- What a reader returns: a value, and the characters it did not read. -/
abbrev Read (α : Type) := Option (α × List Char)

/-- Put a character before a text that was read. -/
def before (c : Char) (r : Read (List Char)) : Read (List Char) :=
  r.map fun (text, after) => (c :: text, after)

/-- Blanks inside a line. -/
def isBlank (c : Char) : Bool := c = ' ' || c = '\t'

/-- The characters allowed in a comment or a string: all but the control characters. -/
def isTextChar (c : Char) : Bool := c = '\t' || (' ' ≤ c && c ≠ '\x7f')

/-- A line end: a line feed, or a carriage return and a line feed. -/
def newline? : List Char → Option (List Char)
  | '\n' :: rest => some rest
  | '\r' :: '\n' :: rest => some rest
  | _ => none

/-! ### Escapes -/

/-- The value of a hexadecimal digit. -/
def hexDigit? (c : Char) : Option Nat :=
  if '0' ≤ c && c ≤ '9' then some (c.toNat - '0'.toNat)
  else if 'a' ≤ c && c ≤ 'f' then some (c.toNat - 'a'.toNat + 10)
  else if 'A' ≤ c && c ≤ 'F' then some (c.toNat - 'A'.toNat + 10)
  else none

/-- The character whose number is spelt in hexadecimal; surrogates are no characters. -/
def hexChar? (digits : List Char) : Option Char := do
  let n ← digits.foldlM (fun n d => (hexDigit? d).map (16 * n + ·)) 0
  if n.isValidChar then some (Char.ofNat n) else none

/-- The character that a letter stands for behind a backslash. -/
def letterEscape? : Char → Option Char
  | 'b' => some '\x08'
  | 't' => some '\t'
  | 'n' => some '\n'
  | 'f' => some '\x0c'
  | 'r' => some '\r'
  | '"' => some '"'
  | '\\' => some '\\'
  | _ => none

/-! ### Strings on one line -/

/-- Read a string with escapes, up to its closing quote. -/
def basicBody : List Char → Read (List Char)
  | [] => none
  | c :: rest =>
    if c = '"' then some ([], rest)
    else if c = '\\' then
      match rest with
      | 'u' :: a :: b :: d :: e :: rest' =>
        (hexChar? [a, b, d, e]).bind (before · (basicBody rest'))
      | 'U' :: a :: b :: d :: e :: f :: g :: h :: i :: rest' =>
        (hexChar? [a, b, d, e, f, g, h, i]).bind (before · (basicBody rest'))
      | letter :: rest' =>
        (letterEscape? letter).bind (before · (basicBody rest'))
      | [] => none
    else if isTextChar c then before c (basicBody rest)
    else none

/-- Read a string without escapes, up to its closing apostrophe. -/
def literalBody : List Char → Read (List Char)
  | [] => none
  | c :: rest =>
    if c = '\'' then some ([], rest)
    else if isTextChar c then before c (literalBody rest)
    else none

/-! ### Strings over several lines -/

/-- Behind the three marks that close a string over several lines, up to two more marks belong to
the string: they stand before the closing ones. -/
def closingMarks (mark : Char) : List Char → List Char × List Char
  | c :: d :: rest =>
    if c = mark then if d = mark then ([mark, mark], rest) else ([mark], d :: rest)
    else ([], c :: d :: rest)
  | [c] => if c = mark then ([mark], []) else ([], [c])
  | [] => ([], [])

/-- Whether only blanks stand before the next line end. -/
def blankUpToNewline (cs : List Char) : Bool := (newline? (cs.dropWhile isBlank)).isSome

/-- Read a string with escapes over several lines. A backslash at the end of a line joins the lines
and skips the blanks and line ends behind it: `joining` says that the reader is skipping. Every line
end is read as a line feed. -/
def multilineBasicBody (joining : Bool) : List Char → Read (List Char)
  | [] => none
  | c :: rest =>
    if c = '\n' then
      if joining then multilineBasicBody true rest else before '\n' (multilineBasicBody false rest)
    else if c = '\r' then
      match rest with
      | '\n' :: rest' =>
        if joining then multilineBasicBody true rest'
        else before '\n' (multilineBasicBody false rest')
      | _ => none
    else if joining && isBlank c then multilineBasicBody true rest
    else if c = '"' then
      match rest with
      | '"' :: '"' :: rest' => some (closingMarks '"' rest')
      | _ => before '"' (multilineBasicBody false rest)
    else if c = '\\' then
      if blankUpToNewline rest then multilineBasicBody true rest
      else
        match rest with
        | 'u' :: a :: b :: d :: e :: rest' =>
          (hexChar? [a, b, d, e]).bind (before · (multilineBasicBody false rest'))
        | 'U' :: a :: b :: d :: e :: f :: g :: h :: i :: rest' =>
          (hexChar? [a, b, d, e, f, g, h, i]).bind (before · (multilineBasicBody false rest'))
        | letter :: rest' =>
          (letterEscape? letter).bind (before · (multilineBasicBody false rest'))
        | [] => none
    else if isTextChar c then before c (multilineBasicBody false rest)
    else none

/-- Read a string without escapes over several lines. Every line end is read as a line feed. -/
def multilineLiteralBody : List Char → Read (List Char)
  | [] => none
  | c :: rest =>
    if c = '\n' then before '\n' (multilineLiteralBody rest)
    else if c = '\r' then
      match rest with
      | '\n' :: rest' => before '\n' (multilineLiteralBody rest')
      | _ => none
    else if c = '\'' then
      match rest with
      | '\'' :: '\'' :: rest' => some (closingMarks '\'' rest')
      | _ => before '\'' (multilineLiteralBody rest)
    else if isTextChar c then before c (multilineLiteralBody rest)
    else none

/-- A line end right behind the opening marks does not belong to the string. -/
def dropNewline (cs : List Char) : List Char := (newline? cs).getD cs

/-- Read a string in any of the four spellings. -/
def string? : List Char → Read String
  | '"' :: '"' :: '"' :: rest =>
    (multilineBasicBody false (dropNewline rest)).map fun (t, after) => (String.ofList t, after)
  | '"' :: rest => (basicBody rest).map fun (t, after) => (String.ofList t, after)
  | '\'' :: '\'' :: '\'' :: rest =>
    (multilineLiteralBody (dropNewline rest)).map fun (t, after) => (String.ofList t, after)
  | '\'' :: rest => (literalBody rest).map fun (t, after) => (String.ofList t, after)
  | _ => none

end Flowscript.Toml
