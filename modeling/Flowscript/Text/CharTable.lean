/-!
# Tables of characters

A property of characters that a standard lists is kept as a table of ranges of their numbers.

## Main definitions

* `CharTable`, `CharTable.has`.
-/

namespace Flowscript

/-- Ranges of character numbers, each given by its first and its last one. -/
abbrev CharTable := List (Nat × Nat)

/-- Whether a character lies in one of the ranges. -/
def CharTable.has (t : CharTable) (c : Char) : Bool :=
  t.any fun (first, last) => first ≤ c.toNat && c.toNat ≤ last

end Flowscript
