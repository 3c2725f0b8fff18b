import Flowscript.Proofs.Run

/-!
# Refusals

What is left of a statement that is refused, which errors it may be refused with, and what the
refusal depends on. `Flowscript.Proofs.Effect` treats all refusals alike; here they are told apart.

## Nothing is left

Checks and writes alternate in some statements, and `end` takes a block away before it knows whether
there was one. Still no refused statement changes the draft, so a run that passes over refusals is
the run of the statements that are accepted.

## Which error

`Step.Raises` bounds the errors of a step, and is closed under everything that steps are built from.
A statement's own checks raise none of the errors that are about words and places, and none of the
errors about the end of a source: `process_error_cases` lists what remains.

## What the error depends on

A refusal does not depend on the markup, and on the options in two places only: whether a word may
stand outside every block, and whether an `end` may. `verdict_process` is the part about the markup,
and `verdict_ofKeyword` the part that lies below the choice of the statement.

## Main definitions

* `Draft.accepted` — the statements that a run passing over refusals accepts.
* `Step.Raises` — a bound on the errors of a step.
* `StatementError.IsOwn` — the errors that a statement's own checks raise.

## Main results

* `refused_leave_no_trace` — refusals change nothing, and what is accepted only adds.
* `process_error_cases` — the errors of a statement.
* `verdict_process` — the verdict on a statement does not depend on the markup.
* `compile_of_refused`, `compile_of_unfinished`, `exists_of_compile_eq_error` — where the error of a
  source comes from.
-/

namespace Flowscript

/-! ### Nothing is left -/

namespace Draft

/-- The statements that are accepted in a run that passes over refusals. Behind a refused statement
the run goes on with the draft that it leaves. -/
def accepted (d : Draft) : List (List Token) → List (List Token)
  | [] => []
  | tokens :: rest =>
    match (process tokens).apply d with
    | (.ok (), d') => tokens :: d'.accepted rest
    | (.error _, d') => d'.accepted rest

/-- Passing over refusals comes to the same as leaving out the refused statements. -/
theorem run_accepted (d : Draft) (statements : List (List Token)) :
    d.run (d.accepted statements) = .ok (d.attempt statements) := by
  induction statements generalizing d with
  | nil => rfl
  | cons tokens rest ih =>
    rw [attempt_cons, accepted]
    rcases process_cases tokens d with ⟨e, he⟩ | ⟨line, tags, blocks, rfl, effect⟩
    · rw [he]
      exact ih d
    · rw [effect.apply_process]
      simp only
      rw [run_cons_of_effect effect]
      exact ih (d.advance tags blocks)

end Draft

/-- **Refusals leave no trace.** From every draft: a refused statement leaves the draft as it was,
an accepted one only adds to the markup and keeps the options, and a run that passes over refusals
ends where the run of the accepted statements ends, none of which is refused. -/
theorem refused_leave_no_trace (d : Draft) :
    (∀ tokens e d', (process tokens).apply d = (.error e, d') → d' = d) ∧
      (∀ tokens d', (process tokens).apply d = (.ok (), d') →
        d'.options = d.options ∧ ∃ added, d'.markup = d.markup ++ added) ∧
      ∀ statements, d.run (d.accepted statements) = .ok (d.attempt statements) := by
  refine ⟨fun tokens e d' h => draft_eq_of_apply_process_eq_error h, ?_, d.run_accepted⟩
  intro tokens d' h
  obtain ⟨line, tags, blocks, -, -, rfl⟩ := apply_process_eq_ok_iff.mp h
  exact ⟨rfl, Tag.texts tags, rfl⟩

/-- An `end` that closes nothing, an empty argument, and refusals inside a chain. -/
theorem refused_leave_no_trace_within_chain :
    (∃ d', (process ["end"]).apply (.new .strict) = (.error .unexpectedEnd, d') ∧
        d' = .new .strict) ∧
      (∃ d', (process ["scan", ""]).apply (.new .lenient) = (.ok (), d') ∧
        d'.options = .lenient ∧ ∃ added, d'.markup = Markup.header ++ added) ∧
      (Draft.new .lenient).run [["if", "a"], ["else"], ["end"], ["call", "f"]] =
        .ok ((Draft.new .lenient).attempt [["if", "a"], ["else", "if"], ["else", ""], ["else"],
          ["fn", "f", "()", "_", "void"], ["end"], ["call", "f"], []]) :=
  ⟨⟨_, rfl, (refused_leave_no_trace (.new .strict)).1 ["end"] _ _ rfl⟩,
    ⟨_, rfl, (refused_leave_no_trace (.new .lenient)).2.1 ["scan", ""] _ rfl⟩,
    (refused_leave_no_trace (.new .lenient)).2.2 [["if", "a"], ["else", "if"], ["else", ""],
      ["else"], ["fn", "f", "()", "_", "void"], ["end"], ["call", "f"], []]⟩

/-! ### Which error -/

/-- Whenever the step is refused, its error has the property. -/
def Step.Raises {α : Type} (s : Step α) (P : StatementError → Prop) : Prop :=
  ∀ ⦃d : Draft⦄ ⦃e : StatementError⦄ ⦃d' : Draft⦄, s.apply d = (.error e, d') → P e

namespace Step.Raises

variable {α β : Type} {P : StatementError → Prop}

/-- A step that is never refused has no errors. -/
theorem of_ok {s : Step α} (h : ∀ d, ∃ a d', s.apply d = (.ok a, d')) : s.Raises P := by
  intro d e d' he
  obtain ⟨a, d'', hok⟩ := h d
  rw [hok] at he
  simp at he

theorem pure (a : α) : (Pure.pure a : Step α).Raises P := of_ok fun d => ⟨a, d, rfl⟩

theorem get : (MonadState.get : Step Draft).Raises P := of_ok fun d => ⟨d, d, rfl⟩

theorem write (text : String) : (Step.write text).Raises P := of_ok fun _ => ⟨_, _, rfl⟩

theorem push (block : OpenBlock) : (Step.push block).Raises P := of_ok fun _ => ⟨_, _, rfl⟩

theorem pop : Step.pop.Raises P := of_ok fun _ => ⟨_, _, rfl⟩

theorem replaceTop (block : OpenBlock) : (Step.replaceTop block).Raises P :=
  of_ok fun _ => ⟨_, _, rfl⟩

theorem throw {e : StatementError} (h : P e) : (MonadExcept.throw e : Step α).Raises P := by
  intro d e' d' he
  rw [apply_throw] at he
  obtain ⟨rfl⟩ := Except.error.inj (Prod.mk.inj he).1
  exact h

theorem bind {s : Step α} {f : α → Step β} (hs : s.Raises P) (hf : ∀ a, (f a).Raises P) :
    (s >>= f).Raises P := by
  intro d e d' he
  rw [apply_bind] at he
  cases hfirst : s.apply d with
  | mk result between =>
    rw [hfirst] at he
    cases result with
    | error e' =>
      obtain ⟨rfl⟩ := Except.error.inj (Prod.mk.inj he).1
      exact hs hfirst
    | ok a => exact hf a he

theorem ite {c : Prop} [Decidable c] {s t : Step α} (hs : s.Raises P) (ht : t.Raises P) :
    (if c then s else t).Raises P := by
  split
  · exact hs
  · exact ht

end Step.Raises

/-- The errors that a statement's own checks raise, once its word is known and may stand where it
stands. -/
def StatementError.IsOwn : StatementError → Prop
  | .argumentCount .. | .missingExpression _ | .elseArguments _ | .malformedParameters _
  | .missingDelimiter .. | .nestedFunction _ | .elseWithoutIf | .unexpectedEnd => True
  | .unclosedBlocks .. | .outsideFunction _ | .emptyStatement | .unknownCommand _ => False

namespace Statement

open StatementError Step

theorem raises_refuseCount {α : Type} (k : Keyword) (expected : Arity) (args : List Token) :
    (refuseCount k expected args : Step α).Raises IsOwn := .throw trivial

theorem raises_requireCount (k : Keyword) (n : Nat) (args : List Token) :
    (requireCount k n args).Raises IsOwn := .ite (raises_refuseCount ..) (.pure ())

theorem raises_requireExpression (k : Keyword) (args : List Token) :
    (requireExpression k args).Raises IsOwn := .ite (.throw trivial) (.pure ())

theorem raises_function (args : List Token) : (function args).Raises IsOwn := by
  unfold function
  split
  · refine .bind .get fun d => .ite (.bind (.throw trivial) fun _ => ?_) ?_
    all_goals
      split
      · exact .throw trivial
      · exact .bind (.write _) fun _ => .push _
  · exact raises_refuseCount ..

theorem raises_otherwise (args : List Token) : (otherwise args).Raises IsOwn := by
  refine .bind .get fun d => ?_
  split
  · split
    · exact .bind (.write _) fun _ => .replaceTop _
    · refine .ite ?_ (.throw trivial)
      exact .bind (raises_requireExpression ..) fun _ => .bind (.write _) fun _ =>
        .bind (.write _) fun _ => .replaceTop _
  · exact .throw trivial

theorem ForHead.isOwn_of_ofTokens {args : List Token} {e : StatementError}
    (h : ForHead.ofTokens args = .error e) : e.IsOwn := by
  unfold ForHead.ofTokens at h
  split at h
  · obtain ⟨rfl⟩ := Except.error.inj h
    trivial
  · split at h
    · split at h
      · obtain ⟨rfl⟩ := Except.error.inj h
        trivial
      · split at h
        · obtain ⟨rfl⟩ := Except.error.inj h
          trivial
        · simp at h
    · obtain ⟨rfl⟩ := Except.error.inj h
      trivial

theorem raises_forLoop (args : List Token) : (forLoop args).Raises IsOwn := by
  unfold forLoop
  split
  · next e he => exact .throw (ForHead.isOwn_of_ofTokens he)
  · exact .bind (.write _) fun _ => .push _

theorem raises_close (args : List Token) : (close args).Raises IsOwn := by
  refine .ite (.bind (raises_refuseCount ..) fun _ => ?_) ?_
  all_goals
    refine .bind .pop fun block => ?_
    split
    · exact .write _
    · exact .bind .get fun _ => .ite (.throw trivial) (.pure ())

theorem raises_assign (args : List Token) : (assign args).Raises IsOwn := by
  unfold assign
  split
  · exact .write _
  · exact raises_refuseCount ..

theorem raises_scan (args : List Token) : (scan args).Raises IsOwn := by
  unfold scan
  split
  · exact .write _
  · exact raises_refuseCount ..

/-- Behind the choice of the statement there are only its own checks. -/
theorem raises_ofKeyword (k : Keyword) (args : List Token) : (ofKeyword k args).Raises IsOwn := by
  cases k with
  | function => exact raises_function args
  | otherwise => exact raises_otherwise args
  | forLoop => exact raises_forLoop args
  | close => exact raises_close args
  | ifThen | whileLoop | doLoop =>
    exact .bind (raises_requireExpression ..) fun _ => .bind (.write _) fun _ => .push _
  | declare | call | print | println => exact .bind (raises_requireCount ..) fun _ => .write _
  | assign => exact raises_assign args
  | scan => exact raises_scan args
  | comment =>
    exact .bind (raises_requireCount ..) fun _ => .bind .get fun _ => .ite (.write _) (.pure ())

end Statement

/-- **Which error.** A statement without tokens is refused for that; any other for its word, for the
place of its word, or by a check of its own. -/
theorem process_error_cases {tokens : List Token} {d d' : Draft} {e : StatementError}
    (h : (process tokens).apply d = (.error e, d')) :
    tokens = [] ∧ e = .emptyStatement ∨
      ∃ word args, tokens = word :: args ∧
        (e = .outsideFunction word ∨ e = .unknownCommand word ∨ e.IsOwn) := by
  match tokens with
  | [] => exact .inl ⟨rfl, (Except.error.inj (Prod.mk.inj h).1).symm⟩
  | word :: args =>
    refine .inr ⟨word, args, rfl, ?_⟩
    rw [apply_process_cons] at h
    split at h
    · split at h
      · exact .inr (.inl (Except.error.inj (Prod.mk.inj h).1).symm)
      · next k _ => exact .inr (.inr (Statement.raises_ofKeyword k args h))
    · exact .inl (Except.error.inj (Prod.mk.inj h).1).symm

/-- No statement of a source is refused for having no tokens. -/
theorem ne_emptyStatement_of_process {tokens : List Token} {d d' : Draft} {e : StatementError}
    (hne : tokens ≠ []) (h : (process tokens).apply d = (.error e, d')) : e ≠ .emptyStatement := by
  rintro rfl
  rcases process_error_cases h with ⟨hnil, -⟩ | ⟨word, args, -, he | he | he⟩
  · exact hne hnil
  · simp at he
  · simp at he
  · exact he

/-! ### What the error depends on -/

/-- An `end` that closes nothing is passed over or refused, as the options say. -/
theorem Statement.apply_close_nil (m : String) (o : Options) :
    (close []).apply ⟨m, [], o⟩ =
      (if o.unmatchedEnd then .ok () else .error .unexpectedEnd, ⟨m, [], o⟩) := by
  cases h : o.unmatchedEnd <;> simp [close, h]

theorem apply_process_eq_error_of_fst {tokens : List Token} {d : Draft} {e : StatementError}
    (h : ((process tokens).apply d).1 = .error e) : (process tokens).apply d = (.error e, d) := by
  rcases process_cases tokens d with ⟨e', he⟩ | ⟨line, tags, blocks, rfl, effect⟩
  · rw [he] at h ⊢
    rw [Except.error.inj h]
  · rw [effect.apply_process] at h
    simp at h

namespace Statement

variable (args : List Token) (m m' : String) (bs : List OpenBlock) (o o' : Options)

theorem verdict_function :
    ((function args).apply ⟨m, bs, o⟩).1 = ((function args).apply ⟨m', bs, o'⟩).1 := by
  unfold function
  split
  · next name parameters result type =>
    by_cases htop : bs = []
    · cases parameterPairs? parameters <;> simp [Draft.atTopLevel, htop]
    · simp [Draft.atTopLevel, htop]
  · rfl

theorem verdict_otherwise :
    ((otherwise args).apply ⟨m, bs, o⟩).1 = ((otherwise args).apply ⟨m', bs, o'⟩).1 := by
  match bs with
  | .ifPendingElse chained :: bs =>
    match args with
    | [] => rfl
    | first :: condition =>
      by_cases hfirst : first = Keyword.ifThen.word
      · by_cases hne : condition = [] <;> simp [otherwise, hfirst, requireExpression, hne]
      · simp [otherwise, hfirst]
  | [] | .function :: _ | .ifResolved _ :: _ | .whileLoop :: _ | .doLoop :: _ | .forLoop :: _ => rfl

theorem verdict_comment :
    ((comment args).apply ⟨m, bs, o⟩).1 = ((comment args).apply ⟨m', bs, o'⟩).1 := by
  have hok (m : String) (o : Options) (hne : args ≠ []) :
      ((comment args).apply ⟨m, bs, o⟩).1 = .ok () := by
    have hcount : ¬args.length < 1 := by
      have := List.length_pos_iff.mpr hne
      omega
    simp only [comment, requireCount, if_neg hcount, Step.apply_bind, Step.apply_pure,
      Step.apply_get]
    split <;> rfl
  by_cases hne : args = []
  · rw [hne]
    rfl
  · rw [hok m o hne, hok m' o' hne]

/-- Below the choice of the statement only an `end` that closes nothing looks at the options, and
only if it has no arguments. -/
theorem verdict_ofKeyword (k : Keyword) (hk : k = .close → args = [] → bs ≠ []) :
    ((ofKeyword k args).apply ⟨m, bs, o⟩).1 = ((ofKeyword k args).apply ⟨m', bs, o'⟩).1 := by
  cases k with
  | function => exact verdict_function ..
  | otherwise => exact verdict_otherwise ..
  | comment => exact verdict_comment ..
  | forLoop =>
    simp only [ofKeyword, forLoop]
    cases ForHead.ofTokens args <;> rfl
  | close =>
    cases args with
    | nil =>
      obtain ⟨b, bs, rfl⟩ := List.exists_cons_of_ne_nil (hk rfl rfl)
      rfl
    | cons => rfl
  | ifThen | whileLoop | doLoop => cases args <;> rfl
  | declare | call | print | println =>
    simp only [ofKeyword, declare, call, output, requireCount]
    split <;> rfl
  | assign | scan =>
    cases args with
    | nil => rfl
    | cons first rest => cases rest <;> rfl

end Statement

/-- The verdict on a statement does not depend on the markup. -/
theorem verdict_process (tokens : List Token) (m m' : String) (bs : List OpenBlock) (o : Options) :
    ((process tokens).apply ⟨m, bs, o⟩).1 = ((process tokens).apply ⟨m', bs, o⟩).1 := by
  match tokens with
  | [] => rfl
  | word :: args =>
    rw [apply_process_cons, apply_process_cons]
    by_cases hplace : MayStand (Keyword.ofWord? word) ⟨m, bs, o⟩
    · have hplace' : MayStand (Keyword.ofWord? word) ⟨m', bs, o⟩ := hplace
      rw [if_pos hplace, if_pos hplace']
      cases Keyword.ofWord? word with
      | none => rfl
      | some k =>
        -- an `end` that closes nothing looks at the options, which are the same here
        by_cases hclose : k = .close ∧ args = [] ∧ bs = []
        · obtain ⟨rfl, rfl, rfl⟩ := hclose
          simp only [Statement.ofKeyword, Statement.apply_close_nil]
        · exact Statement.verdict_ofKeyword args m m' bs o o k
            fun hk hargs hbs => hclose ⟨hk, hargs, hbs⟩
    · have hplace' : ¬MayStand (Keyword.ofWord? word) ⟨m', bs, o⟩ := hplace
      rw [if_neg hplace, if_neg hplace']

/-! ### Where the error of a source comes from -/

theorem Draft.finish_eq_error_iff {d : Draft} {e : StatementError} :
    d.finish = .error e ↔ ∃ b bs, d.blocks = b :: bs ∧ e = .unclosedBlocks b.name d.depth := by
  rw [finish]
  cases d.blocks with
  | nil => simp
  | cons b bs => simp [eq_comm]

section Lines

variable {file : Nat} {d d' : Draft} {earlier later : List (SourceLine × List Token)}
  {line : SourceLine} {tokens : List Token} {e : StatementError}

theorem runLines_of_refused (hrun : d.run (earlier.map Prod.snd) = .ok d')
    (hrefused : (process tokens).apply d' = (.error e, d')) :
    runLines file d (earlier ++ (line, tokens) :: later) =
      .error ⟨e, line.number, line.span, file⟩ := by
  induction earlier generalizing d with
  | nil =>
    obtain rfl := Except.ok.inj hrun
    rw [List.nil_append, runLines, hrefused]
  | cons first earlier ih =>
    obtain ⟨place, tokens'⟩ := first
    rw [List.map_cons] at hrun
    obtain ⟨line', tags, blocks, rfl, effect, hrun⟩ := Draft.exists_effect_of_run_cons hrun
    rw [List.cons_append, runLines, effect.apply_process]
    exact ih hrun

theorem exists_refused_of_runLines {lines : List (SourceLine × List Token)} {err : LocatedError}
    (h : runLines file d lines = .error err) :
    ∃ earlier line tokens later d' e, lines = earlier ++ (line, tokens) :: later ∧
      d.run (earlier.map Prod.snd) = .ok d' ∧ (process tokens).apply d' = (.error e, d') ∧
      err = ⟨e, line.number, line.span, file⟩ := by
  induction lines generalizing d with
  | nil => simp [runLines] at h
  | cons first lines ih =>
    obtain ⟨place, tokens⟩ := first
    rw [runLines] at h
    rcases process_cases tokens d with ⟨e, he⟩ | ⟨line, tags, blocks, rfl, effect⟩
    · rw [he] at h
      obtain rfl := Except.error.inj h
      exact ⟨[], place, tokens, lines, d, e, rfl, rfl, he, rfl⟩
    · rw [effect.apply_process] at h
      obtain ⟨earlier, place', tokens', later, d', e, rfl, hrun, hrefused, rfl⟩ := ih h
      refine ⟨(place, line.tokens) :: earlier, place', tokens', later, d', e, rfl, ?_, hrefused,
        rfl⟩
      rw [List.map_cons, Draft.run_cons_of_effect effect]
      exact hrun

variable {source : String} {o : Options}

theorem statements_eq_map (source : String) :
    statements source = (statementLines source).map Prod.snd := by
  simp [statements, tokenizeSource]

/-- The first refused statement is the error of its source. -/
theorem compile_of_refused (hlines : statementLines source = earlier ++ (line, tokens) :: later)
    (hrun : (Draft.new o).run (earlier.map Prod.snd) = .ok d)
    (hrefused : (process tokens).apply d = (.error e, d)) :
    compile source file o = .error ⟨e, line.number, line.span, file⟩ := by
  rw [compile, hlines, runLines_of_refused hrun hrefused]

/-- If no statement is refused, blocks left open are the error, reported at the end of the
source. -/
theorem compile_of_unfinished (hrun : (Draft.new o).run (statements source) = .ok d)
    (hfinish : d.finish = .error e) :
    compile source file o =
      .error ⟨e, (sourceLines source).length, endOfSource source, file⟩ := by
  rw [statements_eq_map, ← runLines_eq_ok_iff file] at hrun
  simp only [compile, hrun, hfinish]

/-- **Where errors come from.** The error of a source is its first refused statement, or else blocks
left open. -/
theorem exists_of_compile_eq_error {err : LocatedError} (h : compile source file o = .error err) :
    (∃ earlier line tokens later d e, statementLines source = earlier ++ (line, tokens) :: later ∧
        (Draft.new o).run (earlier.map Prod.snd) = .ok d ∧
        (process tokens).apply d = (.error e, d) ∧ err = ⟨e, line.number, line.span, file⟩) ∨
      ∃ d e, (Draft.new o).run (statements source) = .ok d ∧ d.finish = .error e ∧
        err = ⟨e, (sourceLines source).length, endOfSource source, file⟩ := by
  cases hrun : runLines file (.new o) (statementLines source) with
  | error err' =>
    rw [compile, hrun] at h
    obtain rfl := Except.error.inj h
    exact .inl (exists_refused_of_runLines hrun)
  | ok d =>
    rw [runLines_eq_ok_iff, ← statements_eq_map] at hrun
    cases hfinish : d.finish with
    | ok document =>
      rw [compile_eq_ok_iff_run.mpr ⟨d, hrun, hfinish⟩] at h
      simp at h
    | error e =>
      rw [compile_of_unfinished hrun hfinish] at h
      exact .inr ⟨d, e, hrun, hfinish, (Except.error.inj h).symm⟩

end Lines

end Flowscript
