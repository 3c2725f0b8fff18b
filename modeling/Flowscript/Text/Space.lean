/-!
# White space around a text

The characters with the Unicode property White_Space, and texts without them at either end. A byte
order mark and a zero width space do not have the property.

## Main definitions

* `isSpace` — the property.
* `trim` — a text without white space at its ends.
-/

namespace Flowscript

/-- The Unicode property White_Space. -/
def isSpace (c : Char) : Bool :=
  ('\t' ≤ c && c ≤ '\r') || c = ' ' || c = '\x85' || c = '\xa0' || c = '\u1680' ||
    ('\u2000' ≤ c && c ≤ '\u200a') || c = '\u2028' || c = '\u2029' || c = '\u202f' ||
    c = '\u205f' || c = '\u3000'

/-- Leave out the characters at the end of a text that satisfy `p`. -/
def dropEndWhile (p : Char → Bool) (cs : List Char) : List Char :=
  (cs.reverse.dropWhile p).reverse

/-- Leave out white space at both ends of a text. -/
def trim (s : String) : String :=
  String.ofList (dropEndWhile isSpace (s.toList.dropWhile isSpace))

end Flowscript
