import Flowscript.Proofs.Run

/-!
# Bodies in context

A stretch of statements that closes what it opens, and nothing else, does the same wherever it
stands: inside any blocks, behind any markup, and under any options.

## What a line can see

`else` and `end` look at the innermost block, and `fn`, `#` and all others ask whether there is one.
A stack is split into what the stretch has opened itself (`inner`) and what was open before
(`outer`). As long as something outer stays open, a line sees its top only if `inner` is empty, and
then there are two lines that could reach it. An `end` would close it, which the hypothesis on the
depth excludes. An `else` would turn it, so the block the stretch is first run in must not be one
that turns; a loop is not.

This is a hypothesis on one run in one context. Nothing is asked of the context the stretch is moved
to, except that there is one.

## Main results

* `Effect.relocate` — one line, moved into another context.
* `Draft.run_relocate` — a run, moved into another context.
* `run_body_of_whileLoop` — a body of a loop is a body everywhere.
-/

namespace Flowscript

/-- **One line.** A line that leaves the blocks from `b` on downwards open does the same with other
blocks in their place. -/
theorem Effect.relocate {o : Options} {inner base bs' : List OpenBlock} {b : OpenBlock}
    {line : Line} {tags : List Tag} (hb : ∀ n, b ≠ .ifPendingElse n)
    (h : Effect o (inner ++ b :: base) line tags bs') (hdepth : base.length < bs'.length) :
    ∃ inner', bs' = inner' ++ b :: base ∧
      ∀ (o' : Options) (outer : List OpenBlock), outer ≠ [] →
        Effect o' (inner ++ outer) line tags (inner' ++ outer) := by
  generalize hbs : inner ++ b :: base = bs at h
  have hne : bs ≠ [] := by
    rw [← hbs]
    exact List.append_ne_nil_of_right_ne_nil inner (List.cons_ne_nil b base)
  have hinside {outer : List OpenBlock} (houter : outer ≠ []) : inner ++ outer ≠ [] :=
    List.append_ne_nil_of_right_ne_nil inner houter
  cases h with
  | simple s _ => exact ⟨inner, hbs.symm, fun o' outer houter => .simple s (.inl (hinside houter))⟩
  | ifThen condition _ =>
    refine ⟨.ifPendingElse 0 :: inner, ?_, fun o' outer houter => ?_⟩
    · rw [← hbs, List.cons_append]
    · exact .ifThen condition (.inl (hinside houter))
  | loop l _ =>
    refine ⟨l.block :: inner, ?_, fun o' outer houter => ?_⟩
    · rw [← hbs, List.cons_append]
    · exact .loop l (.inl (hinside houter))
  | otherwise n rest =>
    cases inner with
    | nil => exact absurd (List.cons.inj hbs).1 (hb n)
    | cons top inner =>
      obtain ⟨rfl, rfl⟩ := List.cons.inj hbs
      exact ⟨.ifResolved n :: inner, rfl, fun o' outer _ => .otherwise n (inner ++ outer)⟩
  | elseIf n rest condition =>
    cases inner with
    | nil => exact absurd (List.cons.inj hbs).1 (hb n)
    | cons top inner =>
      obtain ⟨rfl, rfl⟩ := List.cons.inj hbs
      exact ⟨.ifPendingElse (n + 1) :: inner, rfl,
        fun o' outer _ => .elseIf n (inner ++ outer) condition⟩
  | close top rest =>
    cases inner with
    | nil =>
      obtain ⟨-, rfl⟩ := List.cons.inj hbs
      exact absurd hdepth (Nat.lt_irrefl _)
    | cons first inner =>
      obtain ⟨rfl, rfl⟩ := List.cons.inj hbs
      exact ⟨inner, rfl, fun o' outer _ => .close first (inner ++ outer)⟩
  | comment | function | unmatchedEnd => exact absurd rfl hne

/-- **A run.** If a run never closes the blocks from `b` on downwards, it does the same with other
blocks in their place, behind other markup and under other options. -/
theorem Draft.run_relocate {base : List OpenBlock} {b : OpenBlock} (hb : ∀ n, b ≠ .ifPendingElse n)
    {s : List (List Token)} {inner : List OpenBlock} {d d' : Draft}
    (hblocks : d.blocks = inner ++ b :: base) (hrun : d.run s = .ok d')
    (hdepth : ∀ k d₁, d.run (s.take k) = .ok d₁ → base.length < d₁.depth) :
    ∃ inner' tags, d' = d.advance tags (inner' ++ b :: base) ∧
      ∀ (c : Draft) (outer : List OpenBlock), outer ≠ [] → c.blocks = inner ++ outer →
        c.run s = .ok (c.advance tags (inner' ++ outer)) := by
  induction s generalizing d inner with
  | nil =>
    obtain rfl := Except.ok.inj hrun
    refine ⟨inner, [], ?_, fun c outer _ hc => ?_⟩
    · rw [← hblocks, advance_nil]
    · rw [← hc, advance_nil]
      rfl
  | cons tokens rest ih =>
    obtain ⟨line, tags, blocks, rfl, effect, hrun⟩ := exists_effect_of_run_cons hrun
    have hfirst : base.length < blocks.length :=
      hdepth 1 (d.advance tags blocks) (run_cons_of_effect effect [])
    obtain ⟨between, rfl, heffect⟩ := (hblocks ▸ effect).relocate hb hfirst
    have hlater (k : Nat) (d₁ : Draft)
        (hd₁ : (d.advance tags (between ++ b :: base)).run (rest.take k) = .ok d₁) :
        base.length < d₁.depth := by
      rw [← run_cons_of_effect effect] at hd₁
      exact hdepth (k + 1) d₁ hd₁
    obtain ⟨inner', tags', rfl, hmoved⟩ := ih (blocks_advance ..) hrun hlater
    refine ⟨inner', tags ++ tags', advance_advance .., fun c outer houter hc => ?_⟩
    have hmove := heffect c.options outer houter
    rw [← hc] at hmove
    rw [run_cons_of_effect hmove,
      hmoved (c.advance tags (between ++ outer)) outer houter (blocks_advance ..), advance_advance]

/-- **Bodies are bodies everywhere.** If statements are accepted in a draft with one loop open,
never close the loop, and end with just the loop open again, then every draft with any blocks open
accepts them, adds the same text to its markup, and has the same blocks open as before. -/
theorem run_body_of_whileLoop (s : List (List Token)) {d d' : Draft} {t : String}
    (hblocks : d.blocks = [.whileLoop]) (hrun : d.run s = .ok d')
    (hdepth : ∀ k d₁, d.run (s.take k) = .ok d₁ → 1 ≤ d₁.depth)
    (hend : d'.blocks = [.whileLoop]) (htext : d'.markup = d.markup ++ t) (c : Draft)
    (hc : c.blocks ≠ []) : c.run s = .ok ⟨c.markup ++ t, c.blocks, c.options⟩ := by
  have hloop : ∀ n, OpenBlock.whileLoop ≠ .ifPendingElse n := fun n => OpenBlock.noConfusion
  have hsplit : d.blocks = [] ++ .whileLoop :: [] := hblocks
  obtain ⟨inner, tags, rfl, hmoved⟩ := Draft.run_relocate hloop hsplit hrun hdepth
  have hinner : inner = [] := by
    rw [Draft.blocks_advance] at hend
    simpa using hend
  have htags : Tag.texts tags = t := by
    rw [Draft.markup_advance] at htext
    exact (String.append_right_inj d.markup).mp htext
  rw [hmoved c c.blocks hc rfl, hinner, ← htags]
  rfl

/-- A chain with a comment in it, moved from a loop into a conditional that has not turned yet: its
`else` and its `end` do not reach that conditional. -/
theorem run_body_of_whileLoop_inside_if :
    ∃ t, (Draft.mk "" [.whileLoop] .strict).run
        [["if", "a"], ["else", "if", "b"], ["#", "x"], ["else"], ["end"]] =
          .ok ⟨t, [.whileLoop], .strict⟩ ∧
      (Draft.mk "<m>" [.ifPendingElse 2, .function] .lenient).run
        [["if", "a"], ["else", "if", "b"], ["#", "x"], ["else"], ["end"]] =
          .ok ⟨"<m>" ++ t, [.ifPendingElse 2, .function], .lenient⟩ := by
  have hrun : ∃ t, (Draft.mk "" [.whileLoop] .strict).run
      [["if", "a"], ["else", "if", "b"], ["#", "x"], ["else"], ["end"]] =
        .ok ⟨t, [.whileLoop], .strict⟩ := ⟨_, rfl⟩
  obtain ⟨t, hrun⟩ := hrun
  refine ⟨t, hrun, run_body_of_whileLoop _ rfl hrun ?_ rfl String.empty_append.symm
    ⟨"<m>", [.ifPendingElse 2, .function], .lenient⟩ (List.cons_ne_nil _ _)⟩
  intro k d₁ hd₁
  match k with
  | 0 | 1 | 2 | 3 | 4 =>
    obtain rfl := Except.ok.inj hd₁
    decide
  | k + 5 =>
    rw [List.take_of_length_le (Nat.le_add_left 5 k), hrun] at hd₁
    obtain rfl := Except.ok.inj hd₁
    exact Nat.le_refl 1

end Flowscript
