import Flowscript.Proofs.Program
import Flowscript.Proofs.Run

/-!
# Compilation follows the grammar

There is no parser: statements are carried out one after the other, with a stack of open blocks.
This module shows that the sources accepted so are exactly the spellings of program trees, and that
the document written on the way is the tree's markup.

## From trees to runs

`Stmt.trace_lines` is the trace of a statement's lines, by recursion on the tree. It starts from any
open blocks and ends with the same ones, so that bodies and chains follow by composition. It needs a
block to be open, or a statement that may stand outside one.

## From runs to trees

The other direction goes backwards over a trace. `Completes o bs` describes what a stack `bs` of
open blocks still asks for: for each block, from the innermost outwards, the rest of its body and of
its chain, and then a program. The last line of a trace leaves nothing to ask for, and each line
before it turns what was asked for behind it into what is asked for before it.

## Main results

* `Program.trace_lines` — the lines of an admitted program are accepted and write its markup.
* `Trace.completes` — a trace that leaves nothing open completes the blocks it starts from.
* `compile_eq_ok_iff_exists_program` — the two together, for whole sources.
-/

namespace Flowscript

/-! ### From trees to runs -/

@[simp] theorem Loop.closingTags_block (l : Loop) :
    l.block.closingTags = [.closing l.element] := by
  cases l <;> rfl

namespace Stmt

variable {o : Options}

mutual

/-- The lines of a statement write its markup, and leave open what was open. -/
theorem trace_lines (s : Stmt) {bs : List OpenBlock}
    (h : bs ≠ [] ∨ o.topLevelStatements = true ∧ ¬s.IsComment) :
    Trace o bs s.lines s.tags bs := by
  match s with
  | .simple s => exact .single (.simple s h)
  | .loop head body =>
    have hopen := Effect.loop (o := o) head (h.imp_right And.left)
    have hbody := trace_bodyLines body (List.cons_ne_nil head.block bs)
    have hclose := Trace.single (.close (o := o) head.block bs)
    simpa [lines, tags, Tag.element] using Trace.cons hopen (hbody.append hclose)
  | .ifChain condition body elseIfs otherwise =>
    have hopen := Effect.ifThen (o := o) condition (h.imp_right And.left)
    have hbody := trace_bodyLines body (List.cons_ne_nil (.ifPendingElse 0) bs)
    have hrest := trace_elseIfLines elseIfs (fun n => trace_elseLines otherwise n bs) 0
    simpa [lines, tags, Tag.element, Tag.conditional, conditionTags, OpenBlock.closeChain]
      using Trace.cons hopen (hbody.append hrest)

/-- The lines of a body write its markup, inside a block. -/
theorem trace_bodyLines (body : List Stmt) {bs : List OpenBlock} (h : bs ≠ []) :
    Trace o bs (bodyLines body) (bodyTags body) bs := by
  match body with
  | [] => exact .nil bs
  | s :: body => exact (trace_lines s (.inl h)).append (trace_bodyLines body h)

/-- The `else if` branches of a chain nest one level deeper each, and are closed together. -/
theorem trace_elseIfLines (elseIfs : List (Expression × List Stmt)) {bs : List OpenBlock}
    {lastLines : List Line} {last : List Tag}
    (hlast : ∀ n, Trace o (.ifPendingElse n :: bs) lastLines
      (.closing "then" :: last ++ OpenBlock.closeChain n) bs) (n : Nat) :
    Trace o (.ifPendingElse n :: bs) (elseIfLines elseIfs ++ lastLines)
      (.closing "then" :: elseIfTags last elseIfs ++ OpenBlock.closeChain n) bs := by
  match elseIfs with
  | [] => exact hlast n
  | (condition, body) :: rest =>
    have hturn := Effect.elseIf (o := o) n bs condition
    have hbody := trace_bodyLines body (List.cons_ne_nil (.ifPendingElse (n + 1)) bs)
    have hrest := trace_elseIfLines rest hlast (n + 1)
    simpa [elseIfLines, elseIfTags, Tag.element, Tag.conditional, turnTags, conditionTags,
      OpenBlock.closeChain] using Trace.cons hturn (hbody.append hrest)

/-- The last branch of a chain, or the lack of it, and the `end` of the chain. -/
theorem trace_elseLines (otherwise : Option (List Stmt)) (n : Nat) (bs : List OpenBlock) :
    Trace o (.ifPendingElse n :: bs) (elseLines otherwise ++ [.close])
      (.closing "then" :: elseTags otherwise ++ OpenBlock.closeChain n) bs := by
  match otherwise with
  | none => exact .single (.close (.ifPendingElse n) bs)
  | some body =>
    have hturn := Effect.otherwise (o := o) n bs
    have hbody := trace_bodyLines body (List.cons_ne_nil (.ifResolved n) bs)
    have hclose := Trace.single (.close (o := o) (.ifResolved n) bs)
    simpa [elseLines, elseTags, Tag.element, turnTags, OpenBlock.closingTags]
      using Trace.cons hturn (hbody.append hclose)

end

end Stmt

/-- The lines of an admitted item write its markup, outside every block. -/
theorem Item.trace_lines {o : Options} (item : Item) (h : item.Admitted o) :
    Trace o [] item.lines (item.tags o) [] := by
  cases item with
  | function signature body =>
    have hopen := Effect.function (o := o) signature
    have hbody := Stmt.trace_bodyLines (o := o) body (List.cons_ne_nil .function [])
    have hclose := Trace.single (.close (o := o) .function [])
    simpa [lines, tags, Signature.tags, Tag.element, OpenBlock.closingTags]
      using Trace.cons hopen (hbody.append hclose)
  | comment text => exact .single (.comment text)
  | unmatchedEnd => exact .single (.unmatchedEnd h)
  | statement s => exact s.trace_lines (.inr h)

/-- The lines of an admitted program are accepted, and write its markup. -/
theorem Program.trace_lines {o : Options} {p : Program} (h : p.Admitted o) :
    Trace o [] p.lines (p.tags o) [] := by
  induction p with
  | nil => exact .nil []
  | cons item p ih =>
    have hitem := item.trace_lines (h item List.mem_cons_self)
    exact hitem.append (ih fun other hmem => h other (List.mem_cons_of_mem _ hmem))

/-! ### From runs to trees -/

/-- What an open block still asks for: lines up to and with its `end`, and the tags they write. -/
inductive Remainder : OpenBlock → List Line → List Tag → Prop where
  /-- The rest of a body. -/
  | body (b : OpenBlock) (body : List Stmt) :
      Remainder b (Stmt.bodyLines body ++ [.close]) (Stmt.bodyTags body ++ b.closingTags)
  /-- The rest of a body, and the rest of the chain it stands in. -/
  | chain (n : Nat) (body : List Stmt) (elseIfs : List (Expression × List Stmt))
      (otherwise : Option (List Stmt)) :
      Remainder (.ifPendingElse n)
        (Stmt.bodyLines body ++ Stmt.elseIfLines elseIfs ++ Stmt.elseLines otherwise ++ [.close])
        (Stmt.bodyTags body ++ .closing "then" ::
          Stmt.elseIfTags (Stmt.elseTags otherwise) elseIfs ++ OpenBlock.closeChain n)

/-- What open blocks still ask for, innermost first: a remainder for each of them, and behind these
an admitted program. -/
def Completes (o : Options) : List OpenBlock → List Line → List Tag → Prop
  | [], lines, tags => ∃ p : Program, p.Admitted o ∧ p.lines = lines ∧ p.tags o = tags
  | b :: bs, lines, tags =>
    ∃ inner innerTags outer outerTags, Remainder b inner innerTags ∧
      Completes o bs outer outerTags ∧ inner ++ outer = lines ∧ innerTags ++ outerTags = tags

namespace Remainder

variable {b : OpenBlock} {lines : List Line} {tags : List Tag}

theorem cons (h : Remainder b lines tags) (s : Stmt) :
    Remainder b (s.lines ++ lines) (s.tags ++ tags) := by
  cases h with
  | body b body => simpa [Stmt.bodyLines, Stmt.bodyTags] using Remainder.body b (s :: body)
  | chain n body elseIfs otherwise =>
    simpa [Stmt.bodyLines, Stmt.bodyTags] using Remainder.chain n (s :: body) elseIfs otherwise

/-- Only a conditional that has not turned asks for more than the rest of a body. -/
theorem exists_body (h : Remainder b lines tags) (hb : ∀ n, b ≠ .ifPendingElse n) :
    ∃ body, lines = Stmt.bodyLines body ++ [.close] ∧
      tags = Stmt.bodyTags body ++ b.closingTags := by
  cases h with
  | body b body => exact ⟨body, rfl, rfl⟩
  | chain n => exact absurd rfl (hb n)

/-- For such a conditional the rest of a body is the rest of a chain that does not go on. -/
theorem exists_chain {n : Nat} (h : Remainder (.ifPendingElse n) lines tags) :
    ∃ body elseIfs otherwise,
      lines = Stmt.bodyLines body ++ Stmt.elseIfLines elseIfs ++ Stmt.elseLines otherwise ++
        [.close] ∧
      tags = Stmt.bodyTags body ++ .closing "then" ::
        Stmt.elseIfTags (Stmt.elseTags otherwise) elseIfs ++ OpenBlock.closeChain n := by
  cases h with
  | body _ body =>
    refine ⟨body, [], none, ?_, ?_⟩
    · simp [Stmt.elseIfLines, Stmt.elseLines]
    · simp [Stmt.elseIfTags, Stmt.elseTags, OpenBlock.closingTags]
  | chain n body elseIfs otherwise => exact ⟨body, elseIfs, otherwise, rfl, rfl⟩

end Remainder

namespace Completes

variable {o : Options} {bs : List OpenBlock} {lines : List Line} {tags : List Tag}

/-- An item goes in front of what a program asks for. -/
theorem cons_item (h : Completes o [] lines tags) (item : Item) (hitem : item.Admitted o) :
    Completes o [] (item.lines ++ lines) (item.tags o ++ tags) := by
  obtain ⟨p, hp, rfl, rfl⟩ := h
  refine ⟨item :: p, ?_, rfl, rfl⟩
  intro other hmem
  rcases List.mem_cons.mp hmem with rfl | hmem
  · exact hitem
  · exact hp other hmem

/-- A statement goes in front of what blocks ask for: into the innermost body, or, with nothing
open, in front of the program. -/
theorem cons_statement (h : Completes o bs lines tags) (s : Stmt)
    (hs : bs ≠ [] ∨ o.topLevelStatements = true ∧ ¬s.IsComment) :
    Completes o bs (s.lines ++ lines) (s.tags ++ tags) := by
  cases bs with
  | nil => exact h.cons_item (.statement s) (hs.resolve_left fun h => h rfl)
  | cons b bs =>
    obtain ⟨inner, innerTags, outer, outerTags, hinner, houter, rfl, rfl⟩ := h
    refine ⟨_, _, _, _, hinner.cons s, houter, ?_, ?_⟩ <;> simp

end Completes

/-- What is asked for behind an effect, and the effect's line before it, is what is asked for before
the effect. -/
theorem Effect.completes {o : Options} {bs bs' : List OpenBlock} {line : Line} {lines : List Line}
    {tags tags' : List Tag} (effect : Effect o bs line tags bs')
    (h : Completes o bs' lines tags') : Completes o bs (line :: lines) (tags ++ tags') := by
  cases effect with
  | simple s hs => exact h.cons_statement (.simple s) hs
  | comment text => exact h.cons_item (.comment text) trivial
  | unmatchedEnd hend => exact h.cons_item .unmatchedEnd hend
  | close b => exact ⟨_, _, _, _, .body b [], h, rfl, rfl⟩
  | function s =>
    obtain ⟨_, _, outer, outerTags, hinner, houter, rfl, rfl⟩ := h
    obtain ⟨body, rfl, rfl⟩ := hinner.exists_body (by simp)
    simpa [Item.lines, Item.tags, Signature.tags, Tag.element, OpenBlock.closingTags]
      using houter.cons_item (.function s body) trivial
  | loop l hl =>
    obtain ⟨_, _, outer, outerTags, hinner, houter, rfl, rfl⟩ := h
    obtain ⟨body, rfl, rfl⟩ := hinner.exists_body (by cases l <;> simp [Loop.block])
    simpa [Stmt.lines, Stmt.tags, Tag.element]
      using houter.cons_statement (.loop l body) (hl.imp_right fun h => ⟨h, id⟩)
  | ifThen condition hif =>
    obtain ⟨_, _, outer, outerTags, hinner, houter, rfl, rfl⟩ := h
    obtain ⟨body, elseIfs, otherwise, rfl, rfl⟩ := hinner.exists_chain
    simpa [Stmt.lines, Stmt.tags, Tag.element, Tag.conditional, conditionTags,
      OpenBlock.closeChain] using houter.cons_statement (.ifChain condition body elseIfs otherwise)
        (hif.imp_right fun h => ⟨h, id⟩)
  | otherwise n bs =>
    obtain ⟨_, _, outer, outerTags, hinner, houter, rfl, rfl⟩ := h
    obtain ⟨body, rfl, rfl⟩ := hinner.exists_body (by simp)
    refine ⟨_, _, _, _, .chain n [] [] (some body), houter, ?_, ?_⟩
    · simp [Stmt.bodyLines, Stmt.elseIfLines, Stmt.elseLines]
    · simp [Stmt.bodyTags, Stmt.elseIfTags, Stmt.elseTags, Tag.element, turnTags,
        OpenBlock.closingTags]
  | elseIf n bs condition =>
    obtain ⟨_, _, outer, outerTags, hinner, houter, rfl, rfl⟩ := h
    obtain ⟨body, elseIfs, otherwise, rfl, rfl⟩ := hinner.exists_chain
    refine ⟨_, _, _, _, .chain n [] ((condition, body) :: elseIfs) otherwise, houter, ?_, ?_⟩
    · simp [Stmt.bodyLines, Stmt.elseIfLines]
    · simp [Stmt.bodyTags, Stmt.elseIfTags, Tag.element, Tag.conditional, turnTags, conditionTags,
        OpenBlock.closeChain]

/-- A trace that leaves nothing open completes the blocks it starts from. -/
theorem Trace.completes {o : Options} {bs : List OpenBlock} {lines : List Line} {tags : List Tag}
    (h : Trace o bs lines tags []) : Completes o bs lines tags := by
  generalize hend : ([] : List OpenBlock) = final at h
  induction h with
  | nil bs =>
    subst hend
    exact ⟨[], fun _ hmem => absurd hmem List.not_mem_nil, rfl, rfl⟩
  | cons effect rest ih => exact effect.completes (ih hend)

/-! ### The grammar -/

/-- **Compilation follows the grammar.** A source has a document exactly if its statements are the
spelling of a program tree that the options allow, and the document is then the markup of the tree
inside the outermost element. -/
theorem compile_eq_ok_iff_exists_program {source : String} {file : Nat} {o : Options}
    {document : String} :
    compile source file o = .ok document ↔
      ∃ p : Program, p.Admitted o ∧
        p.statements = (tokenizeSource source).map Prod.snd ∧
        document = "<?xml version=\"1.0\"?><flowgorithm fileversion=\"4.2\">" ++
          Tag.texts (p.tags o) ++ "</flowgorithm>\n" := by
  rw [compile_eq_ok_iff, Markup.header_eq, Markup.footer_eq]
  constructor
  · rintro ⟨lines, tags, hlines, trace, rfl⟩
    obtain ⟨p, hp, rfl, rfl⟩ := trace.completes
    exact ⟨p, hp, hlines.symm, rfl⟩
  · rintro ⟨p, hp, hlines, rfl⟩
    exact ⟨p.lines, p.tags o, hlines.symm, Program.trace_lines hp, rfl⟩

/-- A comment outside every function, which is dropped, and a chain without an `else` branch, whose
missing branch is an empty element of the innermost conditional. -/
theorem compile_eq_ok_iff_exists_program_chain :
    let source := "# note\nfn f (n int) x int\nif n < 1\nscan x\nelse if n = 1\n" ++
      "println \"one\" n\nend\nend\n"
    let p : Program :=
      [.comment ⟨["note"], by simp⟩,
        .function ⟨"f", "n int", [("n", "int")], "x", "int", by decide⟩
          [.ifChain ⟨["n", "<", "1"], by simp⟩ [.simple (.scan "x")]
            [(⟨["n", "=", "1"], by simp⟩,
              [.simple (.output true ⟨["\"one\"", "n"], by simp⟩)])] none]]
    p.Admitted .strict ∧ p.statements = (tokenizeSource source).map Prod.snd ∧
      compile source 0 .strict = .ok ("<?xml version=\"1.0\"?><flowgorithm fileversion=\"4.2\">" ++
        "<function name=\"f\" type=\"int\" variable=\"x\"><parameters>" ++
        "<parameter name=\"n\" type=\"int\" array=\"False\"/></parameters><body>" ++
        "<if expression=\"n < 1\"><then><input variable=\"x\"/></then><else>" ++
        "<if expression=\"n = 1\"><then>" ++
        "<output expression=\"&quot;one&quot; &amp; n\" newline=\"True\"/></then><else/></if>" ++
        "</else></if></body></function></flowgorithm>\n") := by
  intro source p
  have hp : p.Admitted .strict := by simp [p, Program.Admitted, Item.Admitted]
  have hlines : p.statements = (tokenizeSource source).map Prod.snd := by decide +kernel
  refine ⟨hp, hlines, compile_eq_ok_iff_exists_program.mpr ⟨p, hp, hlines, ?_⟩⟩
  decide +kernel

end Flowscript
