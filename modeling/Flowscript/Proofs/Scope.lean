import Flowscript.Proofs.Run

/-!
# Functions stand outermost

No function stands inside another block, and without top-level statements nothing but functions
stands outermost. Both are facts about the stack of open blocks, and both hold of every draft that
statements lead to.

## Two checks, one invariant

They are enforced in different places. `fn` itself refuses to stand inside a block; any other word
that may not stand outside every block is refused before it is looked up, and `end`, which is let
through, opens nothing. Only `else` puts one block in the place of another, and neither of the two
is ever a function. `Scoped` holds the two facts together, and every line keeps it
(`Effect.scoped`).

## What may be written

With top-level statements switched off, the stack decides who writes. Inside a block the outermost
one is a function; outside, `fn` writes and opens it, `#` writes if comments are kept there, and an
`end` that is passed over writes nothing.

## Main definitions

* `Scoped` — the invariant of the stack.

## Main results

* `Effect.scoped`, `Draft.scoped_attempt` — one line keeps it, and so does every run.
* `Effect.outermost_of_writes` — who writes outside every block.
* `functions_stand_outermost` — functions are never nested, and strict code lives inside functions.
-/

namespace Flowscript

/-! ### The invariant -/

/-- Functions are outermost and, unless statements may stand outside every block, nothing else
is. Blocks are listed innermost first, so the outermost is the last. -/
structure Scoped (o : Options) (bs : List OpenBlock) : Prop where
  /-- No block inside another is a function. -/
  function_notMem : OpenBlock.function ∉ bs.dropLast
  /-- The outermost block is a function, in the strict reading of statements. -/
  outermost : o.topLevelStatements = false → bs ≠ [] → bs.getLast? = some .function

namespace Scoped

variable {o : Options} {b b' : OpenBlock} {bs : List OpenBlock}

theorem nil (o : Options) : Scoped o [] := ⟨List.not_mem_nil, fun _ hne => absurd rfl hne⟩

theorem function (o : Options) : Scoped o [.function] := ⟨List.not_mem_nil, fun _ _ => rfl⟩

/-- A block other than a function opens inside the others, or outside if that is allowed. -/
theorem cons (h : Scoped o bs) (hb : b ≠ .function)
    (hplace : bs ≠ [] ∨ o.topLevelStatements = true) : Scoped o (b :: bs) := by
  cases bs with
  | nil =>
    have hlenient : o.topLevelStatements = true := hplace.resolve_left fun hne => hne rfl
    refine ⟨List.not_mem_nil, fun hstrict => ?_⟩
    rw [hlenient] at hstrict
    exact Bool.noConfusion hstrict
  | cons c bs =>
    refine ⟨?_, fun hstrict _ => ?_⟩
    · rw [List.dropLast_cons_cons, List.mem_cons, not_or]
      exact ⟨hb.symm, h.function_notMem⟩
    · rw [List.getLast?_cons_cons]
      exact h.outermost hstrict (List.cons_ne_nil c bs)

/-- The innermost block is taken away. -/
theorem tail (h : Scoped o (b :: bs)) : Scoped o bs := by
  cases bs with
  | nil => exact nil o
  | cons c bs =>
    refine ⟨?_, fun hstrict _ => ?_⟩
    · intro hmem
      apply h.function_notMem
      rw [List.dropLast_cons_cons]
      exact List.mem_cons_of_mem b hmem
    · have hlast := h.outermost hstrict (List.cons_ne_nil b (c :: bs))
      rwa [List.getLast?_cons_cons] at hlast

/-- A block other than a function has a block around it, or statements may stand outside. -/
theorem place_of_ne (h : Scoped o (b :: bs)) (hb : b ≠ .function) :
    bs ≠ [] ∨ o.topLevelStatements = true := by
  cases bs with
  | cons c bs => exact .inl (List.cons_ne_nil c bs)
  | nil =>
    cases hflag : o.topLevelStatements with
    | true => exact .inr rfl
    | false => exact absurd (Option.some.inj (h.outermost hflag (List.cons_ne_nil b []))) hb

/-- The innermost block turns into another one. -/
theorem turn (h : Scoped o (b :: bs)) (hb : b ≠ .function) (hb' : b' ≠ .function) :
    Scoped o (b' :: bs) :=
  h.tail.cons hb' (h.place_of_ne hb)

/-- There is at most one function. -/
theorem count_function_le (h : Scoped o bs) : bs.count .function ≤ 1 := by
  rcases List.eq_nil_or_concat bs with rfl | ⟨inner, b, rfl⟩
  · exact Nat.zero_le 1
  · have hinner : OpenBlock.function ∉ inner := by
      have hnot := h.function_notMem
      rwa [List.concat_eq_append, List.dropLast_concat] at hnot
    rw [List.concat_eq_append, List.count_append, List.count_eq_zero.mpr hinner, Nat.zero_add]
    exact List.count_le_length

end Scoped

theorem Loop.block_ne_function (l : Loop) : l.block ≠ .function := by
  cases l <;> exact OpenBlock.noConfusion

/-- **One line.** Whatever a line does to the stack, functions stay outermost. -/
theorem Effect.scoped {o : Options} {bs bs' : List OpenBlock} {line : Line} {tags : List Tag}
    (effect : Effect o bs line tags bs') (h : Scoped o bs) : Scoped o bs' := by
  cases effect with
  | simple | comment | unmatchedEnd => exact h
  | function => exact .function o
  | ifThen condition hplace => exact h.cons OpenBlock.noConfusion hplace
  | otherwise | elseIf => exact h.turn OpenBlock.noConfusion OpenBlock.noConfusion
  | loop l hplace => exact h.cons l.block_ne_function hplace
  | close => exact h.tail

theorem Trace.scoped {o : Options} {bs bs' : List OpenBlock} {lines : List Line} {tags : List Tag}
    (trace : Trace o bs lines tags bs') (h : Scoped o bs) : Scoped o bs' := by
  induction trace with
  | nil => exact h
  | cons effect _ ih => exact ih (effect.scoped h)

/-- **Every run.** Statements, accepted or refused, leave a fresh draft with functions outermost. -/
theorem Draft.scoped_attempt (o : Options) (statements : List (List Token)) :
    Scoped o ((Draft.new o).attempt statements).blocks := by
  obtain ⟨lines, tags, blocks, -, trace, hd⟩ := (Draft.new o).exists_trace_attempt statements
  rw [hd]
  exact Trace.scoped trace (.nil o)

theorem Draft.options_attempt (d : Draft) (statements : List (List Token)) :
    (d.attempt statements).options = d.options := by
  obtain ⟨lines, tags, blocks, -, -, hd⟩ := d.exists_trace_attempt statements
  rw [hd, options_advance]

/-! ### Who writes -/

/-- Outside every block, and with statements not allowed there, only a function writes, and a
comment if it is kept. -/
theorem Effect.outermost_of_writes {o : Options} {bs : List OpenBlock} {line : Line}
    {tags : List Tag} (hstrict : o.topLevelStatements = false) (effect : Effect o [] line tags bs)
    (hwrites : tags ≠ []) :
    line.keyword = .function ∨ line.keyword = .comment ∧ o.topLevelComments = true := by
  have hnowhere {p : Prop} (h : ([] : List OpenBlock) ≠ [] ∨ o.topLevelStatements = true) : p := by
    rcases h with hne | hlenient
    · exact absurd rfl hne
    · rw [hstrict] at hlenient
      exact Bool.noConfusion hlenient
  cases effect with
  | simple s hplace => exact hnowhere (hplace.imp_right And.left)
  | ifThen condition hplace | loop l hplace => exact hnowhere hplace
  | function s => exact .inl rfl
  | comment text =>
    refine .inr ⟨rfl, ?_⟩
    by_contra hdropped
    exact hwrites (if_neg hdropped)
  | unmatchedEnd => exact absurd rfl hwrites

/-- A call that adds to the markup carries out a line that writes. -/
theorem exists_effect_of_markup_ne {tokens : List Token} {d d' : Draft}
    {result : Except StatementError Unit} (happly : (process tokens).apply d = (result, d'))
    (hadds : d'.markup ≠ d.markup) :
    result = .ok () ∧ ∃ line tags blocks, tokens = line.tokens ∧
      Effect d.options d.blocks line tags blocks ∧ tags ≠ [] := by
  rcases process_cases tokens d with ⟨e, he⟩ | ⟨line, tags, blocks, rfl, effect⟩
  · rw [he] at happly
    obtain ⟨-, rfl⟩ := Prod.mk.inj happly
    exact absurd rfl hadds
  · rw [effect.apply_process] at happly
    obtain ⟨rfl, rfl⟩ := Prod.mk.inj happly
    refine ⟨rfl, line, tags, blocks, rfl, effect, ?_⟩
    rintro rfl
    apply hadds
    rw [Draft.markup_advance, Tag.texts_nil, String.append_empty]

/-- **Functions stand outermost.** Carry out any statements on a fresh draft, accepted or refused.
At most one open block is a function, and no block inside another is. If statements may not stand
outside every block, then the outermost block, if there is one, is a function; and a statement that
adds to the markup is carried out inside a function, or is an accepted `fn` outside every block, or
a `#` outside every block where comments are kept. -/
theorem functions_stand_outermost (o : Options) (statements : List (List Token)) (d : Draft)
    (hd : (Draft.new o).attempt statements = d) :
    d.blocks.count .function ≤ 1 ∧ .function ∉ d.blocks.dropLast ∧
      (o.topLevelStatements = false →
        (d.blocks ≠ [] → d.blocks.getLast? = some .function) ∧
        ∀ tokens result d', (process tokens).apply d = (result, d') → d'.markup ≠ d.markup →
          d.blocks.getLast? = some .function ∨
          d.depth = 0 ∧ (∃ args, tokens = "fn" :: args) ∧ result = .ok () ∨
          d.depth = 0 ∧ (∃ args, tokens = "#" :: args) ∧ o.topLevelComments = true) := by
  have hscoped : Scoped o d.blocks := hd ▸ Draft.scoped_attempt o statements
  have hoptions : d.options = o := hd ▸ Draft.options_attempt (.new o) statements
  refine ⟨hscoped.count_function_le, hscoped.function_notMem, fun hstrict => ?_⟩
  refine ⟨hscoped.outermost hstrict, fun tokens result d' happly hadds => ?_⟩
  obtain ⟨hok, line, tags, blocks, rfl, effect, hwrites⟩ := exists_effect_of_markup_ne happly hadds
  by_cases hinside : d.blocks = []
  · have hdepth : d.depth = 0 := List.length_eq_zero_iff.mpr hinside
    rw [hoptions, hinside] at effect
    rcases effect.outermost_of_writes hstrict hwrites with hword | ⟨hword, hkept⟩
    · exact .inr (.inl ⟨hdepth, ⟨line.arguments, by rw [Line.tokens, hword]; rfl⟩, hok⟩)
    · exact .inr (.inr ⟨hdepth, ⟨line.arguments, by rw [Line.tokens, hword]; rfl⟩, hkept⟩)
  · exact .inl (hscoped.outermost hstrict hinside)

/-- A conditional inside a function, behind an `end` that is passed over, a statement refused
outside and a function refused inside; and a comment that is kept, which stands outside every
block. -/
theorem functions_stand_outermost_inside_if :
    (∃ d, (Draft.new ⟨false, true, true⟩).attempt [["end"], ["set", "x", "1"],
          ["fn", "f", "()", "_", "void"], ["if", "a"], ["fn", "g", "()", "_", "void"]] = d ∧
        d.depth = 2 ∧ d.blocks.count .function ≤ 1 ∧ .function ∉ d.blocks.dropLast ∧
        d.blocks.getLast? = some .function) ∧
      ∃ d d', (Draft.new ⟨false, true, true⟩).attempt [["end"]] = d ∧
        (process ["#", "b"]).apply d = (.ok (), d') ∧ d'.markup ≠ d.markup ∧ d.depth = 0 := by
  constructor
  · refine ⟨_, rfl, rfl, ?_⟩
    obtain ⟨hcount, hinner, hstrict⟩ := functions_stand_outermost ⟨false, true, true⟩ [["end"],
      ["set", "x", "1"], ["fn", "f", "()", "_", "void"], ["if", "a"],
      ["fn", "g", "()", "_", "void"]] _ rfl
    exact ⟨hcount, hinner, (hstrict rfl).1 (List.cons_ne_nil _ _)⟩
  · have hadds : ((process ["#", "b"]).apply (.new ⟨false, true, true⟩)).2.markup ≠
        (Draft.new ⟨false, true, true⟩).markup := by decide +kernel
    obtain ⟨-, -, hstrict⟩ := functions_stand_outermost ⟨false, true, true⟩ [["end"]] _ rfl
    refine ⟨_, _, rfl, rfl, hadds, ?_⟩
    rcases (hstrict rfl).2 ["#", "b"] _ _ rfl hadds with hinside | houtside | houtside
    · exact absurd hinside (by decide)
    · exact houtside.1
    · exact houtside.1

end Flowscript
