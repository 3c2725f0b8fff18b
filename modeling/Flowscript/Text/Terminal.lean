/-!
# Terminal colours

## Main definitions

* `terminalCode` — the mark that changes how a terminal shows text.
* `paint` — a text in a colour.
-/

namespace Flowscript

/-- The mark that changes how a terminal shows the text behind it. -/
def terminalCode (code : String) : String := "\x1b[" ++ code ++ "m"

/-- Show a text in the way a terminal code says, unless colours are off. -/
def paint (noColor : Bool) (code text : String) : String :=
  if noColor then text else terminalCode code ++ text ++ terminalCode "0"

end Flowscript
