import Flowscript.Proofs.Refusal

/-!
# How far a draft is from a document

A draft with `n` open blocks is `n` statements away from a document: `n` times `end` is enough, and
nothing shorter is. This holds of every draft, so in particular of every one that some history of
accepted and refused statements leads to.

## Enough

Each `end` closes the innermost block, so the closing markup stands in the order of the stack.
`Trace.closeAll` is that run, and `Draft.closed` is where it ends.

## Not less

A chain of conditionals is closed by one `end`, however long it is, and one might expect its length
to count. It does not, because `else` and `else if` change the innermost block without opening
another: `Effect.length_le` says that no line takes more than one block away, and a run inherits
this (`Draft.depth_le_attempt`).

## Main definitions

* `Draft.closed` — the draft with every block closed.

## Main results

* `Draft.run_ends` — as many `end`s as there are blocks close them all.
* `Draft.depth_le_attempt` — a run closes at most one block with each statement.
* `finish_after_depth_ends` — when and how a draft becomes a document.
-/

namespace Flowscript

/-! ### Enough -/

/-- Every block is closed in turn, the innermost first. -/
theorem Trace.closeAll (o : Options) (bs : List OpenBlock) :
    Trace o bs (List.replicate bs.length .close) (bs.flatMap OpenBlock.closingTags) [] := by
  induction bs with
  | nil => exact .nil []
  | cons b bs ih =>
    rw [List.length_cons, List.replicate_succ, List.flatMap_cons]
    exact .cons (.close b bs) ih

theorem OpenBlock.texts_flatMap_closingTags (bs : List OpenBlock) :
    Tag.texts (bs.flatMap closingTags) = String.join (bs.map closing) := by
  induction bs with
  | nil => simp
  | cons b bs ih =>
    rw [List.flatMap_cons, Tag.texts_append, ih, texts_closingTags]
    simp

namespace Draft

/-- The draft with every block closed, the innermost first. -/
def closed (d : Draft) : Draft :=
  ⟨d.markup ++ String.join (d.blocks.map OpenBlock.closing), [], d.options⟩

/-- **Enough.** As many `end`s as there are open blocks are accepted, and close them all. -/
theorem run_ends (d : Draft) : d.run (List.replicate d.depth ["end"]) = .ok d.closed := by
  have hrun := run_of_trace (Trace.closeAll d.options d.blocks) (d := d) rfl rfl
  rw [List.map_replicate] at hrun
  rw [closed, ← OpenBlock.texts_flatMap_closingTags]
  exact hrun

theorem finish_closed (d : Draft) :
    d.closed.finish =
      .ok (d.markup ++ String.join (d.blocks.map OpenBlock.closing) ++ Markup.footer) :=
  finish_eq_ok_iff.mpr ⟨rfl, rfl⟩

/-- An `end` too many is passed over or refused, as the options say, and changes nothing. -/
theorem apply_end_of_blocks_eq_nil {d : Draft} (h : d.blocks = []) :
    (process ["end"]).apply d =
      (if d.options.unmatchedEnd then .ok () else .error .unexpectedEnd, d) := by
  obtain ⟨m, bs, o⟩ := d
  obtain rfl : bs = [] := h
  have hword := apply_process_word .close [] ⟨m, [], o⟩ (.inr (.inl rfl))
  exact hword.trans (Statement.apply_close_nil m o)

end Draft

/-! ### Not less -/

/-- A line takes at most one block away. -/
theorem Effect.length_le {o : Options} {bs bs' : List OpenBlock} {line : Line} {tags : List Tag}
    (h : Effect o bs line tags bs') : bs.length ≤ bs'.length + 1 := by
  cases h with
  | simple | comment | unmatchedEnd => exact Nat.le_succ _
  | function => exact Nat.zero_le _
  | ifThen | loop => exact Nat.le_add_right_of_le (Nat.le_succ _)
  -- the innermost block turns into another one, so the depth is the same
  | otherwise chained outer | elseIf chained outer condition => exact Nat.le_succ (outer.length + 1)
  | close b => exact Nat.le_refl _

theorem Trace.length_le {o : Options} {bs bs' : List OpenBlock} {lines : List Line}
    {tags : List Tag} (h : Trace o bs lines tags bs') : bs.length ≤ bs'.length + lines.length := by
  induction h with
  | nil bs => exact Nat.le_refl _
  | cons effect rest ih =>
    have hline := effect.length_le
    rw [List.length_cons]
    omega

namespace Draft

/-- **Not less.** Statements close at most one block each, whether they are accepted or refused. -/
theorem depth_le_attempt (d : Draft) (statements : List (List Token)) :
    d.depth ≤ (d.attempt statements).depth + statements.length := by
  obtain ⟨lines, tags, blocks, hsub, trace, hd⟩ := d.exists_trace_attempt statements
  have haccepted : lines.length ≤ statements.length := by
    simpa using hsub.length_le
  have hclosed : d.depth ≤ blocks.length + lines.length := trace.length_le
  rw [hd]
  exact hclosed.trans (Nat.add_le_add_left haccepted blocks.length)

theorem exists_finish_eq_error_iff (d : Draft) : (∃ e, d.finish = .error e) ↔ 0 < d.depth := by
  rw [depth, List.length_pos_iff_exists_cons]
  constructor
  · rintro ⟨e, he⟩
    obtain ⟨b, bs, hblocks, -⟩ := finish_eq_error_iff.mp he
    exact ⟨b, bs, hblocks⟩
  · rintro ⟨b, bs, hblocks⟩
    exact ⟨_, finish_eq_error_iff.mpr ⟨b, bs, hblocks, rfl⟩⟩

/-- A draft is finished by statements only if there are as many of them as open blocks. -/
theorem depth_le_of_finish_attempt {d : Draft} {statements : List (List Token)} {document : String}
    (h : (d.attempt statements).finish = .ok document) : d.depth ≤ statements.length := by
  have hdepth := d.depth_le_attempt statements
  have hnone : (d.attempt statements).depth = 0 :=
    List.length_eq_zero_iff.mpr (finish_eq_ok_iff.mp h).1
  omega

end Draft

/-- **A draft is `depth` ends away from a document.** Whatever statements led to it, a draft cannot
be finished exactly if blocks are open, and then the error names the innermost and counts them all.
As many `end`s as there are blocks are all accepted and leave nothing open; the document is then
what was written before, the closing markup of the blocks from the innermost to the outermost, and
the footer. Fewer statements, of whatever kind, never lead to a document. One `end` more is refused,
or passed over if the options say so, and changes nothing either way. -/
theorem finish_after_depth_ends (d : Draft) :
    ((∃ e, d.finish = .error e) ↔ 0 < d.depth) ∧
      (∀ e, d.finish = .error e →
        ∃ innermost outer, d.blocks = innermost :: outer ∧
          e = .unclosedBlocks innermost.name d.depth) ∧
      d.run (List.replicate d.depth ["end"]) = .ok d.closed ∧ d.closed.depth = 0 ∧
      d.closed.finish =
        .ok (d.markup ++ String.join (d.blocks.map OpenBlock.closing) ++ Markup.footer) ∧
      (∀ statements, statements.length < d.depth →
        ∀ document, (d.attempt statements).finish ≠ .ok document) ∧
      (process ["end"]).apply d.closed =
        (if d.options.unmatchedEnd then .ok () else .error .unexpectedEnd, d.closed) := by
  refine ⟨d.exists_finish_eq_error_iff, fun e => Draft.finish_eq_error_iff.mp, d.run_ends, rfl,
    d.finish_closed, ?_, Draft.apply_end_of_blocks_eq_nil rfl⟩
  intro statements hfew document hfinish
  exact absurd (Draft.depth_le_of_finish_attempt hfinish) (Nat.not_le.mpr hfew)

/-- A loop inside the last branch of a chain inside a function. The chain counts as one block: three
`end`s make the document, and a fourth is refused. No two statements would do, not even refused
ones. -/
theorem finish_after_depth_ends_chain :
    ∃ d, (Draft.new .strict).attempt [["fn", "f", "()", "_", "void"], ["if", "a"],
        ["else", "if", "b"], ["set"], ["else", "if", "c"], ["else"], ["while", "x"]] = d ∧
      d.finish = .error (.unclosedBlocks "while" 3) ∧
      (∃ d', d.run [["end"], ["end"], ["end"]] = .ok d' ∧
        d'.finish = .ok (d.markup ++
          "</while></else></if></else></if></else></if></body></function>" ++ Markup.footer) ∧
        (process ["end"]).apply d' = (.error .unexpectedEnd, d')) ∧
      ∀ document, (d.attempt [["end"], ["end", "end"]]).finish ≠ .ok document := by
  refine ⟨_, rfl, rfl, ?_, ?_⟩
  · obtain ⟨-, -, hrun, -, hfinish, -, hend⟩ := finish_after_depth_ends
      ((Draft.new .strict).attempt [["fn", "f", "()", "_", "void"], ["if", "a"],
        ["else", "if", "b"], ["set"], ["else", "if", "c"], ["else"], ["while", "x"]])
    exact ⟨_, hrun, hfinish, hend⟩
  · exact (finish_after_depth_ends _).2.2.2.2.2.1 [["end"], ["end", "end"]] (by decide)

end Flowscript
