import Flowscript.OpenBlock
import Flowscript.Options
import Flowscript.StatementError

/-!
# A document in the making

A `Draft` is what a run of statements has produced so far: the markup written, the blocks still
open, and the options under which statements are read. A `Step` is one statement's effect on it.

## Effects happen when they are reached

`Step` keeps the draft also when a statement is refused: whatever was written or opened before the
refusal stays. That a refused statement leaves no trace is therefore a property of the statements,
not of this type.

## Main definitions

* `Draft`, `Draft.new`, `Draft.depth`, `Draft.atTopLevel`, `Draft.finish`.
* `Step`, `Step.apply`, and the primitive effects `write`, `push`, `pop`, `replaceTop`.

## Main results

* `Step.apply_bind` and its companions — what each effect does to a draft.
-/

namespace Flowscript

/-- The state of a document in the making. -/
structure Draft where
  /-- The markup written so far. -/
  markup : String
  /-- The blocks that wait for an `end`, innermost first. -/
  blocks : List OpenBlock
  /-- How leniently statements are read. -/
  options : Options
deriving DecidableEq, Repr

namespace Draft

/-- A fresh draft. The header is written at once. -/
def new (options : Options) : Draft := ⟨Markup.header, [], options⟩

/-- No block is open. -/
def atTopLevel (d : Draft) : Bool := d.blocks.isEmpty

/-- How many blocks wait for an `end`. -/
def depth (d : Draft) : Nat := d.blocks.length

/-- Close the document, which is complete only if no block is open. -/
def finish (d : Draft) : Except StatementError String :=
  match d.blocks with
  | [] => .ok (d.markup ++ Markup.footer)
  | innermost :: _ => .error (.unclosedBlocks innermost.name d.depth)

end Draft

/-- The effect of a statement: it changes the draft as it goes, and may be refused on the way. -/
abbrev Step := ExceptT StatementError (StateM Draft)

namespace Step

/-- Carry out a step: what it gives, or why it is refused, and the draft it leaves either way. -/
def apply {α : Type} (s : Step α) (d : Draft) : Except StatementError α × Draft := s.run d

/-- Append to the markup. -/
def write (text : String) : Step Unit := modify fun d => { d with markup := d.markup ++ text }

/-- Open a block inside the others. -/
def push (block : OpenBlock) : Step Unit := modify fun d => { d with blocks := block :: d.blocks }

/-- Take the innermost block away, if there is one. -/
def pop : Step (Option OpenBlock) := do
  let d ← get
  set { d with blocks := d.blocks.tail }
  return d.blocks.head?

/-- Put another block in the place of the innermost one, if there is one. -/
def replaceTop (block : OpenBlock) : Step Unit := modify fun d =>
  { d with blocks := match d.blocks with
      | [] => []
      | _ :: outer => block :: outer }

/-! ### What the effects do to a draft

With these equations a statement is worked out by `simp`, without looking into the type `Step`. -/

section Apply

variable {α β : Type}

@[simp] theorem apply_pure (a : α) (d : Draft) : (pure a : Step α).apply d = (.ok a, d) := rfl

@[simp] theorem apply_throw (e : StatementError) (d : Draft) :
    (throw e : Step α).apply d = (.error e, d) := rfl

/-- Behind a refused step nothing is carried out. -/
@[simp] theorem apply_bind (s : Step α) (f : α → Step β) (d : Draft) :
    (s >>= f).apply d =
      match s.apply d with
      | (.ok a, d') => (f a).apply d'
      | (.error e, d') => (.error e, d') := by
  change (match s d with | (a, d') => ExceptT.bindCont f a d') = _
  rw [apply, ExceptT.run]
  rcases s d with ⟨_ | a, d'⟩ <;> rfl

@[simp] theorem apply_get (d : Draft) : (get : Step Draft).apply d = (.ok d, d) := rfl

@[simp] theorem apply_write (text : String) (d : Draft) :
    (write text).apply d = (.ok (), { d with markup := d.markup ++ text }) := rfl

@[simp] theorem apply_push (block : OpenBlock) (d : Draft) :
    (push block).apply d = (.ok (), { d with blocks := block :: d.blocks }) := rfl

@[simp] theorem apply_pop (d : Draft) :
    pop.apply d = (.ok d.blocks.head?, { d with blocks := d.blocks.tail }) := rfl

@[simp] theorem apply_replaceTop (block top : OpenBlock) (outer : List OpenBlock) (m : String)
    (o : Options) :
    (replaceTop block).apply ⟨m, top :: outer, o⟩ = (.ok (), ⟨m, block :: outer, o⟩) := rfl

end Apply

end Step

end Flowscript
