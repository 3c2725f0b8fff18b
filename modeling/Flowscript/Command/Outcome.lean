/-!
# The outcome of a run

## Main definitions

* `Outcome` — an exit code and what was printed.
-/

namespace Flowscript

/-- The outcome of running the program: its exit code and what it printed. -/
structure Outcome where
  /-- The exit code; zero means success. -/
  exit : Nat := 0
  /-- What was printed as the result. -/
  stdout : String := ""
  /-- What was said to the user. -/
  stderr : String := ""
deriving DecidableEq, Repr

namespace Outcome

/-- A failure, and what is said about it. -/
def failure (said : String) : Outcome := ⟨1, "", said⟩

end Outcome

end Flowscript
