import Flowscript.Options
import Flowscript.Toml.Document

/-!
# Settings

A settings document may hold one table, `compat`, whose keys are the leniency switches. Anything
else in it is refused, so that a misspelt key does not pass unnoticed.

The switches may also be given as a list instead of a table, in the order of `switchNames`; missing
ones are off, and items beyond the last switch are ignored.

## Main definitions

* `SettingsError` — why a document is refused.
* `Settings.switches` — the switches that a value of `compat` sets.
* `Settings.ofText` — the options of a whole settings document.
-/

namespace Flowscript

/-- Why a settings document is refused. -/
inductive SettingsError where
  /-- The text is no TOML document. -/
  | malformed
  /-- A key is not known. -/
  | unknownKey (key : String)
  /-- A key has a value of the wrong kind. -/
  | wrongKind (key : String)
deriving DecidableEq, Repr

/-- The message of an error. -/
def SettingsError.message : SettingsError → String
  | .malformed => "TOML parse error: malformed document"
  | .unknownKey key => "TOML parse error: unknown field `" ++ key ++ "`"
  | .wrongKind key => "TOML parse error: invalid type for `" ++ key ++ "`"

namespace Settings

/-- The table that holds the switches. -/
def switchTable : String := "compat"

/-- The names of the switches, in the order in which a list gives them. -/
def switchNames : List String := ["top-level-statements", "unmatched-end", "top-level-comments"]

/-- Turn the switch of a name on or off. -/
def setSwitch (o : Options) (name : String) (on : Bool) : Except SettingsError Options :=
  if name = "top-level-statements" then .ok { o with topLevelStatements := on }
  else if name = "unmatched-end" then .ok { o with unmatchedEnd := on }
  else if name = "top-level-comments" then .ok { o with topLevelComments := on }
  else .error (.unknownKey name)

/-- Turn the switch of a name to a value, which has to be a truth value. -/
def setSwitchTo (o : Options) (name : String) (v : Toml.Value) : Except SettingsError Options :=
  match v with
  | .boolean on => setSwitch o name on
  | _ => .error (if name ∈ switchNames then .wrongKind name else .unknownKey name)

/-- The switches that a value sets; those it does not mention are off. -/
def switches : Toml.Value → Except SettingsError Options
  | .table _ entries => entries.foldlM (fun o (name, v) => setSwitchTo o name v) .strict
  | .array items =>
    (switchNames.zip items).foldlM (fun o (name, v) => setSwitchTo o name v) .strict
  | _ => .error (.wrongKind switchTable)

/-- The options that the entries of a settings document set. -/
def ofEntries (entries : Toml.Entries) : Except SettingsError Options :=
  entries.foldlM
    (fun _ (name, v) => if name = switchTable then switches v else .error (.unknownKey name))
    .strict

/-- The options that a settings document sets. -/
def ofText (text : String) : Except SettingsError Options :=
  match Toml.parse? text with
  | none => .error .malformed
  | some entries => ofEntries entries

end Settings

end Flowscript
