/-!
# Leniency options

Three switches relax the strict reading of a source. Each one turns a failure or an omission into
something accepted; all off is the strict reading.

## Main definitions

* `Options` — the switches, all off by default.
* `Options.lenient` — all on.
* `Options.traced` — how the switches are shown in a trace.
-/

namespace Flowscript

/-- The switches that relax the strict reading. -/
structure Options where
  /-- Accept statements other than `fn` and `#` outside every block. -/
  topLevelStatements : Bool := false
  /-- Ignore an `end` that closes nothing. -/
  unmatchedEnd : Bool := false
  /-- Keep comments that stand outside every block. -/
  topLevelComments : Bool := false
deriving DecidableEq, Repr

namespace Options

/-- The strict reading. -/
def strict : Options := {}

/-- Every switch on. -/
def lenient : Options := ⟨true, true, true⟩

/-- The switches as a trace line shows them. -/
def traced (o : Options) : String :=
  "Options \x7b allow_top_level_statements: " ++ toString o.topLevelStatements ++
    ", tolerate_unmatched_end: " ++ toString o.unmatchedEnd ++
    ", emit_top_level_comments: " ++ toString o.topLevelComments ++ " \x7d"

end Options

end Flowscript
