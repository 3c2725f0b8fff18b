/-!
# Searching a text

## Main definitions

* `occursIn` — whether a text occurs in another.
* `cutAtFirst?` — a text, cut around the first occurrence of another.
-/

namespace Flowscript

/-- Whether `needle` occurs in a text, given as characters. -/
def occursIn (needle : List Char) : List Char → Bool
  | [] => needle.isEmpty
  | c :: cs => needle.isPrefixOf (c :: cs) || occursIn needle cs

/-- Whether `s` holds `needle`. -/
def holds (s needle : String) : Bool := occursIn needle.toList s.toList

/-- Cut a text around the first occurrence of a mark: what stands before it, and what stands behind
it. -/
def cutAtFirst? (mark : List Char) : List Char → Option (List Char × List Char)
  | [] => if mark.isEmpty then some ([], []) else none
  | c :: cs =>
    if mark.isPrefixOf (c :: cs) then some ([], (c :: cs).drop mark.length)
    else (cutAtFirst? mark cs).map fun (before, after) => (c :: before, after)

/-- What a text has behind a beginning, if it begins so. -/
def behind? (beginning : String) (cs : List Char) : Option (List Char) :=
  if beginning.toList.isPrefixOf cs then some (cs.drop beginning.toList.length) else none

end Flowscript
