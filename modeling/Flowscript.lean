import Flowscript.Command.Session
import Flowscript.Main
import Flowscript.Proofs.Head
import Flowscript.Proofs.Line
import Flowscript.Proofs.Effect
import Flowscript.Proofs.Run
import Flowscript.Proofs.Program
import Flowscript.Proofs.Grammar
import Flowscript.Proofs.Scan
import Flowscript.Proofs.Nesting
import Flowscript.Proofs.WellFormed
import Flowscript.Proofs.Chain
import Flowscript.Proofs.Lines
import Flowscript.Proofs.Refusal
import Flowscript.Proofs.Location
import Flowscript.Proofs.Context
import Flowscript.Proofs.Lenient
import Flowscript.Proofs.Concat
import Flowscript.Proofs.Depth
import Flowscript.Proofs.Scope
import Flowscript.Proofs.Layout
import Flowscript.Proofs.Files
import Flowscript.Proofs.Build
import Flowscript.Proofs.Arguments
import Flowscript.Proofs.Dependence
import Flowscript.Proofs.Listing
import Flowscript.Proofs.Discovery
import Flowscript.Proofs.Slices
import Flowscript.Proofs.Boundaries
import Flowscript.Proofs.Respacing
import Flowscript.Proofs.Verbatim
import Flowscript.Proofs.Groups
import Flowscript.Proofs.Entities
import Flowscript.Proofs.Expectation
import Flowscript.Proofs.Selection
import Flowscript.Proofs.Counting
import Flowscript.Proofs.Signatures
import Flowscript.Proofs.Marks
import Flowscript.Proofs.Terminators
import Flowscript.Proofs.SettingsBlock
import Flowscript.Proofs.DefaultCommand
