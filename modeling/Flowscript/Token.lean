/-!
# Tokens of a statement line

A line is cut into tokens by one pass from left to right. Blanks (space and tab) separate tokens,
except inside a quoted region or a parenthesised group, which are kept together.

## The rule

The pass keeps two switches, gathered in `Mode`: whether it stands inside a quoted region and
whether it stands inside a group. `Mode.read` says, for each character, what becomes of the
switches and whether the line is cut there (`Cut`). The quote that closes a region and the
parenthesis that closes a group end their token at once, so `"a"b` is two tokens; a blank outside
both is dropped and also ends a token. `pieces` carries this out, and a token is a piece that is
not empty.

## What is not tracked

No nesting depth is kept: a group ends at the first `)` outside quotes, whatever was opened since.
And nothing fails: a region or a group that is never closed runs to the end of the line.

## Main definitions

* `Mode.read` — one character of the pass.
* `pieces` — the line, cut; some pieces may be empty.
* `tokenize` — the tokens of a line.

## Main results

* `ne_nil_of_mem_tokenChars` — no token is empty.
-/

namespace Flowscript

/-- A token is a non-empty stretch of a statement line. -/
abbrev Token := String

/-- The blanks that separate tokens. -/
def isBlank (c : Char) : Bool := c = ' ' || c = '\t'

/-- Where the pass over a line stands. -/
structure Mode where
  /-- Inside a quoted region. -/
  quoted : Bool
  /-- Inside a parenthesised group. -/
  grouped : Bool
deriving DecidableEq, Repr

namespace Mode

/-- Outside quotes and groups, where every line begins. -/
def plain : Mode := ⟨false, false⟩

end Mode

/-- What a character does to the token it stands in. -/
inductive Cut where
  /-- The character belongs to the token, which goes on. -/
  | none
  /-- The character is the last one of its token. -/
  | after
  /-- The character separates two tokens and belongs to neither. -/
  | drop
deriving DecidableEq, Repr

/-- Read one character: the mode that follows it, and the cut it makes. -/
def Mode.read (m : Mode) (c : Char) : Mode × Cut :=
  if c = '"' then
    if m.quoted then (⟨false, m.grouped⟩, .after) else (⟨true, m.grouped⟩, .none)
  else if c = '(' then
    if m.quoted then (m, .none) else (⟨false, true⟩, .none)
  else if c = ')' then
    if m.grouped && !m.quoted then (⟨false, false⟩, .after) else (m, .none)
  else if isBlank c then
    if m.quoted || m.grouped then (m, .none) else (m, .drop)
  else (m, .none)

/-- Cut the rest of a line that is read from mode `m`: first what remains of the piece the pass
stands in, then the pieces after it. -/
def pieces (m : Mode) : List Char → List Char × List (List Char)
  | [] => ([], [])
  | c :: cs =>
    let (current, later) := pieces (m.read c).1 cs
    match (m.read c).2 with
    | .none => (c :: current, later)
    | .after => ([c], current :: later)
    | .drop => ([], current :: later)

/-- The tokens of a line given as characters: its pieces, empty ones left out. -/
def tokenChars (line : List Char) : List (List Char) :=
  let (first, later) := pieces .plain line
  (first :: later).filter (· ≠ [])

/-- The tokens of a line. A line of blanks has none. -/
def tokenize (line : String) : List Token :=
  (tokenChars line.toList).map String.ofList

/-- A token is not empty. -/
theorem ne_nil_of_mem_tokenChars {line t : List Char} (h : t ∈ tokenChars line) : t ≠ [] := by
  rw [tokenChars, List.mem_filter] at h
  exact of_decide_eq_true h.2

end Flowscript
