import Flowscript.Proofs.Run

/-!
# Chains written out

An `else if` is short for an `else` with a conditional inside it, and the one `end` of a chain is
short for as many as there are conditionals. `unchain` writes this out on the statements, and the
document stays the same to the letter.

## Two stacks of different heights

A chain is one open block that counts its links; written out, it is one block for each conditional.
`OpenBlock.unchained` is the relation between the two stacks, and it is a function. Each effect on
the one side is a trace on the other, with the same tags (`Effect.unchain`): an `else if` takes two
lines, the `end` of a chain as many as the block has counted.

## Main definitions

* `unchainStatement`, `unchain` — a statement, and a list of them, without `else if`.
* `OpenBlock.unchained` — the blocks that stand for a chain.

## Main results

* `Effect.unchain`, `Trace.unchain` — the simulation, for a line and for all of them.
* `run_unchain` — chains written out are accepted, and make the same document.
-/

namespace Flowscript

/-! ### Writing out the statements -/

/-- The statement opens a block. -/
def opensBlock (tokens : List Token) : Bool :=
  tokens.head? ∈
    [Keyword.function, .ifThen, .whileLoop, .doLoop, .forLoop].map fun k => some k.word

/-- Write out a statement. For each open block, innermost first, `links` counts the `else if`
statements it has seen. The result is the statements to put in its place, and the new counts. -/
def unchainStatement (links : List Nat) (tokens : List Token) : List (List Token) × List Nat :=
  match links, tokens with
  | n :: outer, "else" :: "if" :: condition => ([["else"], "if" :: condition], (n + 1) :: outer)
  | n :: outer, ["end"] => (List.replicate (n + 1) ["end"], outer)
  | links, tokens => ([tokens], if opensBlock tokens then 0 :: links else links)

/-- Write out all chains in a list of statements. -/
def unchain (links : List Nat) : List (List Token) → List (List Token)
  | [] => []
  | tokens :: rest =>
    (unchainStatement links tokens).1 ++ unchain (unchainStatement links tokens).2 rest

/-! ### Writing out the blocks -/

namespace OpenBlock

/-- The links that a block has counted. -/
def links : OpenBlock → Nat
  | .ifPendingElse chained | .ifResolved chained => chained
  | .function | .whileLoop | .doLoop | .forLoop => 0

/-- The blocks that stand for a chain when it is written out, innermost first. -/
def unchained : OpenBlock → List OpenBlock
  | .ifPendingElse chained => .ifPendingElse 0 :: List.replicate chained (.ifResolved 0)
  | .ifResolved chained => .ifResolved 0 :: List.replicate chained (.ifResolved 0)
  | .function => [.function]
  | .whileLoop => [.whileLoop]
  | .doLoop => [.doLoop]
  | .forLoop => [.forLoop]

theorem unchained_ne_nil (b : OpenBlock) : b.unchained ≠ [] := by
  cases b <;> exact List.cons_ne_nil _ _

theorem flatMap_unchained_ne_nil {bs : List OpenBlock} (h : bs ≠ []) :
    bs.flatMap unchained ≠ [] := by
  obtain ⟨b, bs, rfl⟩ := List.exists_cons_of_ne_nil h
  rw [List.flatMap_cons]
  exact List.append_ne_nil_of_left_ne_nil b.unchained_ne_nil _

end OpenBlock

/-! ### The simulation -/

variable {o : Options}

/-- The tags that close the links of a chain, one link after the other. -/
theorem OpenBlock.trace_links (chained : Nat) (bs : List OpenBlock) :
    ∃ tags, closeChain chained = .closing "if" :: tags ∧
      Trace o (List.replicate chained (.ifResolved 0) ++ bs) (List.replicate chained .close) tags
        bs := by
  induction chained with
  | zero => exact ⟨[], rfl, .nil bs⟩
  | succ chained ih =>
    obtain ⟨tags, hchain, trace⟩ := ih
    refine ⟨.closing "else" :: closeChain chained, rfl, ?_⟩
    rw [List.replicate_succ, List.replicate_succ, hchain]
    exact .cons (.close (.ifResolved 0) _) trace

/-- A block is closed by one `end` for each of the blocks that stand for it. -/
theorem OpenBlock.trace_unchained (b : OpenBlock) (bs : List OpenBlock) :
    Trace o (b.unchained ++ bs) (List.replicate (b.links + 1) .close) b.closingTags bs := by
  cases b with
  | ifPendingElse chained =>
    obtain ⟨tags, hchain, trace⟩ := trace_links (o := o) chained bs
    rw [closingTags, hchain]
    exact .cons (.close (.ifPendingElse 0) _) trace
  | ifResolved chained =>
    obtain ⟨tags, hchain, trace⟩ := trace_links (o := o) chained bs
    rw [closingTags, hchain]
    exact .cons (.close (.ifResolved 0) _) trace
  | function => exact .single (.close .function bs)
  | whileLoop => exact .single (.close .whileLoop bs)
  | doLoop => exact .single (.close .doLoop bs)
  | forLoop => exact .single (.close .forLoop bs)

/-- Statements that begin with neither `else` nor `end` stay as they are. -/
theorem unchainStatement_tokens (links : List Nat) (line : Line)
    (helse : line.keyword ≠ .otherwise) (hclose : line.keyword ≠ .close) :
    unchainStatement links line.tokens =
      ([line.tokens], if opensBlock line.tokens then 0 :: links else links) := by
  unfold unchainStatement
  split
  · next heq =>
    have hword : line.keyword.word = Keyword.otherwise.word := (List.cons.inj heq).1
    exact absurd (Keyword.word_injective hword) helse
  · next heq =>
    have hword : line.keyword.word = Keyword.close.word := (List.cons.inj heq).1
    exact absurd (Keyword.word_injective hword) hclose
  · rfl

theorem Simple.keyword_ne (s : Simple) : s.keyword ≠ .otherwise ∧ s.keyword ≠ .close := by
  cases s with
  | output newline parts => cases newline <;> exact ⟨Keyword.noConfusion, Keyword.noConfusion⟩
  | declare | assign | call | scan | comment => exact ⟨Keyword.noConfusion, Keyword.noConfusion⟩

theorem Loop.keyword_ne (l : Loop) : l.keyword ≠ .otherwise ∧ l.keyword ≠ .close := by
  cases l <;> exact ⟨Keyword.noConfusion, Keyword.noConfusion⟩

theorem Simple.unchainStatement_tokens (links : List Nat) (s : Simple) :
    unchainStatement links (Line.simple s).tokens = ([(Line.simple s).tokens], links) := by
  have hopens : opensBlock (Line.simple s).tokens = false := by
    cases s with
    | output newline parts => cases newline <;> rfl
    | declare | assign | call | scan | comment => rfl
  have hstays := Flowscript.unchainStatement_tokens links (.simple s) s.keyword_ne.1 s.keyword_ne.2
  rwa [hopens, if_neg Bool.false_ne_true] at hstays

theorem Loop.unchainStatement_tokens (links : List Nat) (l : Loop) :
    unchainStatement links (Line.loop l).tokens = ([(Line.loop l).tokens], 0 :: links) := by
  have hopens : opensBlock (Line.loop l).tokens = true := by
    cases l <;> rfl
  have hstays := Flowscript.unchainStatement_tokens links (.loop l) l.keyword_ne.1 l.keyword_ne.2
  rwa [hopens, if_pos rfl] at hstays

theorem Loop.links_block (l : Loop) : l.block.links = 0 := by
  cases l <;> rfl

theorem Loop.unchained_block (l : Loop) : l.block.unchained = [l.block] := by
  cases l <;> rfl

/-- The line is an `else if`. -/
def Line.IsElseIf : Line → Prop
  | .elseIf _ => True
  | _ => False

theorem Line.isElseIf_of_tokens_eq {line : Line} {condition : List Token}
    (h : line.tokens = "else" :: "if" :: condition) : line.IsElseIf := by
  obtain ⟨hword, hargs⟩ := List.cons.inj h
  have hkeyword : line.keyword = .otherwise := Keyword.word_injective hword
  cases line with
  | elseIf => trivial
  | otherwise => simp [arguments] at hargs
  | simple s => exact absurd hkeyword s.keyword_ne.1
  | loop l => exact absurd hkeyword l.keyword_ne.1
  | function | ifThen | close => simp [keyword] at hkeyword

/-- **One line.** What a line does with chains, it does with chains written out, in one line or more
and with the same tags. -/
theorem Effect.unchain {bs bs' : List OpenBlock} {line : Line} {tags : List Tag}
    (h : Effect o bs line tags bs') :
    ∃ lines, unchainStatement (bs.map OpenBlock.links) line.tokens =
        (lines.map Line.tokens, bs'.map OpenBlock.links) ∧
      (∀ line ∈ lines, ¬line.IsElseIf) ∧
        Trace o (bs.flatMap OpenBlock.unchained) lines tags (bs'.flatMap OpenBlock.unchained) := by
  cases h with
  | simple s h =>
    exact ⟨[.simple s], s.unchainStatement_tokens _, by simp [Line.IsElseIf],
      .single (.simple s (h.imp_left OpenBlock.flatMap_unchained_ne_nil))⟩
  | comment text =>
    exact ⟨[.simple (.comment text)], rfl, by simp [Line.IsElseIf], .single (.comment text)⟩
  | function s => exact ⟨[.function s], rfl, by simp [Line.IsElseIf], .single (.function s)⟩
  | ifThen condition h =>
    refine ⟨[.ifThen condition], ?_, by simp [Line.IsElseIf],
      .single (.ifThen condition (h.imp_left OpenBlock.flatMap_unchained_ne_nil))⟩
    exact unchainStatement_tokens _ _ Keyword.noConfusion Keyword.noConfusion
  | otherwise chained bs =>
    exact ⟨[.otherwise], rfl, by simp [Line.IsElseIf], .single (.otherwise 0 _)⟩
  | elseIf chained bs condition =>
    -- the new conditional stands inside the branch that has just been opened
    refine ⟨[.otherwise, .ifThen condition], rfl, by simp [Line.IsElseIf], ?_⟩
    exact .cons (.otherwise 0 _) (.single (.ifThen condition (.inl (List.cons_ne_nil _ _))))
  | loop l h =>
    refine ⟨[.loop l], ?_, by simp [Line.IsElseIf], ?_⟩
    · simp [l.unchainStatement_tokens, l.links_block]
    · rw [List.flatMap_cons, l.unchained_block]
      exact .single (.loop l (h.imp_left OpenBlock.flatMap_unchained_ne_nil))
  | close b bs =>
    refine ⟨List.replicate (b.links + 1) .close, ?_, ?_, ?_⟩
    · rw [List.map_replicate]
      rfl
    · intro line hline
      rw [List.eq_of_mem_replicate hline]
      exact id
    · rw [List.flatMap_cons]
      exact b.trace_unchained _
  | unmatchedEnd h => exact ⟨[.close], rfl, by simp [Line.IsElseIf], .single (.unmatchedEnd h)⟩

/-- **All lines.** A trace becomes a trace with the same tags. -/
theorem Trace.unchain {bs bs' : List OpenBlock} {lines : List Line} {tags : List Tag}
    (h : Trace o bs lines tags bs') :
    ∃ lines', Flowscript.unchain (bs.map OpenBlock.links) (lines.map Line.tokens) =
        lines'.map Line.tokens ∧
      (∀ line ∈ lines', ¬line.IsElseIf) ∧
        Trace o (bs.flatMap OpenBlock.unchained) lines' tags
          (bs'.flatMap OpenBlock.unchained) := by
  induction h with
  | nil bs => exact ⟨[], rfl, by simp, .nil _⟩
  | cons effect rest ih =>
    obtain ⟨first, hfirst, hplain, htrace⟩ := effect.unchain
    obtain ⟨later, hlater, hplain', htrace'⟩ := ih
    refine ⟨first ++ later, ?_, List.forall_mem_append.mpr ⟨hplain, hplain'⟩,
      htrace.append htrace'⟩
    rw [List.map_cons, Flowscript.unchain, hfirst, hlater, List.map_append]

/-- **Chains are short for nested conditionals.** If a fresh draft accepts all statements and the
document is complete, it also accepts them with every chain written out, and the document is the
same. No `else if` is left then. -/
theorem run_unchain (o : Options) (statements : List (List Token)) {d : Draft} {document : String}
    (hrun : (Draft.new o).run statements = .ok d) (hfinish : d.finish = .ok document) :
    (∃ d', (Draft.new o).run (unchain [] statements) = .ok d' ∧ d'.finish = .ok document) ∧
      ∀ condition, "else" :: "if" :: condition ∉ unchain [] statements := by
  obtain ⟨lines, tags, rfl, trace, rfl⟩ := Draft.run_new_finish_iff.mp ⟨d, hrun, hfinish⟩
  obtain ⟨lines', hlines, hplain, trace'⟩ := trace.unchain
  refine ⟨Draft.run_new_finish_iff.mpr ⟨lines', tags, hlines, trace', rfl⟩, ?_⟩
  intro condition hmem
  rw [List.map_nil] at hlines
  rw [hlines, List.mem_map] at hmem
  obtain ⟨line, hline, htokens⟩ := hmem
  exact hplain line hline (Line.isElseIf_of_tokens_eq htokens)

/-- A chain inside a branch of a chain. -/
theorem run_unchain_nested :
    ∃ d document,
      (Draft.new .strict).run [["fn", "main", "()", "_", "void"], ["if", "a"], ["else", "if", "b"],
        ["if", "c"], ["else", "if", "d"], ["end"], ["else"], ["call", "f"], ["end"], ["end"]] =
          .ok d ∧
      d.finish = .ok document ∧
      ∃ d', (Draft.new .strict).run [["fn", "main", "()", "_", "void"], ["if", "a"], ["else"],
        ["if", "b"], ["if", "c"], ["else"], ["if", "d"], ["end"], ["end"], ["else"], ["call", "f"],
        ["end"], ["end"], ["end"]] = .ok d' ∧ d'.finish = .ok document := by
  refine ⟨_, _, rfl, rfl, ?_⟩
  exact (run_unchain .strict [["fn", "main", "()", "_", "void"], ["if", "a"], ["else", "if", "b"],
    ["if", "c"], ["else", "if", "d"], ["end"], ["else"], ["call", "f"], ["end"], ["end"]] rfl rfl).1

end Flowscript
