import Flowscript.Compile
import Flowscript.Proofs.Effect

/-!
# Runs of statements

Two ways to carry out a list of statements. `Draft.run` stops at the first one that is refused, as a
compilation does; `Draft.attempt` passes over refused statements, as a caller may.

A run that is accepted throughout is a chain of effects. `Trace` is that chain, without the draft:
lines turn a stack of open blocks into another one and write tags on the way. What is proved about
runs is proved about traces, by induction on the chain.

## Main definitions

* `Draft.run`, `Draft.attempt` — runs that stop at a refusal, and runs that do not.
* `Trace` — a chain of effects.

## Main results

* `Draft.run_eq_ok_iff` — a run is accepted exactly if there is a trace for it.
* `Draft.exists_trace_attempt` — a run that passes over refusals is a trace of the rest.
* `compile_eq_ok_iff` — a document is what a trace writes that starts and ends with nothing open.
-/

namespace Flowscript

namespace Draft

/-- Carry out statements in order, up to the first one that is refused. -/
def run (d : Draft) : List (List Token) → Except StatementError Draft
  | [] => .ok d
  | tokens :: rest =>
    match (process tokens).apply d with
    | (.ok (), d') => d'.run rest
    | (.error e, _) => .error e

/-- Carry out statements in order, passing over those that are refused. -/
def attempt (d : Draft) (statements : List (List Token)) : Draft :=
  statements.foldl (fun d tokens => ((process tokens).apply d).2) d

end Draft

/-! ### Traces -/

/-- Under the options `o`, the lines turn the open blocks into others, one effect after the other,
and write the tags. -/
inductive Trace (o : Options) :
    List OpenBlock → List Line → List Tag → List OpenBlock → Prop where
  /-- No line, no effect. -/
  | nil (bs : List OpenBlock) : Trace o bs [] [] bs
  /-- An effect, and then a trace. -/
  | cons {bs bs' bs'' : List OpenBlock} {line : Line} {lines : List Line} {tags tags' : List Tag}
      (effect : Effect o bs line tags bs') (rest : Trace o bs' lines tags' bs'') :
      Trace o bs (line :: lines) (tags ++ tags') bs''

namespace Trace

variable {o : Options} {bs bs' bs'' : List OpenBlock} {tags tags' : List Tag}

theorem single {line : Line} (h : Effect o bs line tags bs') : Trace o bs [line] tags bs' := by
  simpa using Trace.cons h (.nil bs')

theorem append {lines lines' : List Line} (h : Trace o bs lines tags bs')
    (h' : Trace o bs' lines' tags' bs'') : Trace o bs (lines ++ lines') (tags ++ tags') bs'' := by
  induction h with
  | nil => exact h'
  | cons effect rest ih =>
    rw [List.append_assoc]
    exact .cons effect (ih h')

end Trace

/-! ### Runs that stop -/

namespace Draft

theorem advance_advance (d : Draft) (xs ys : List Tag) (bs cs : List OpenBlock) :
    (d.advance xs bs).advance ys cs = d.advance (xs ++ ys) cs := by
  simp [advance, String.append_assoc]

@[simp] theorem advance_nil (d : Draft) : d.advance [] d.blocks = d := by
  simp [advance]

/-- A line that takes effect is carried out, and the run goes on behind it. -/
theorem run_cons_of_effect {d : Draft} {line : Line} {tags : List Tag} {blocks : List OpenBlock}
    (effect : Effect d.options d.blocks line tags blocks) (rest : List (List Token)) :
    d.run (line.tokens :: rest) = (d.advance tags blocks).run rest := by
  rw [run, effect.apply_process]

/-- A run that is accepted begins with a line that takes effect. -/
theorem exists_effect_of_run_cons {d d' : Draft} {tokens : List Token} {rest : List (List Token)}
    (h : d.run (tokens :: rest) = .ok d') :
    ∃ line tags blocks, tokens = line.tokens ∧ Effect d.options d.blocks line tags blocks ∧
      (d.advance tags blocks).run rest = .ok d' := by
  rcases process_cases tokens d with ⟨e, he⟩ | ⟨line, tags, blocks, rfl, effect⟩
  · rw [run, he] at h
    simp at h
  · rw [run_cons_of_effect effect] at h
    exact ⟨line, tags, blocks, rfl, effect, h⟩

/-- A run can be cut in two. -/
theorem run_append_eq_ok_iff {d d' : Draft} {xs ys : List (List Token)} :
    d.run (xs ++ ys) = .ok d' ↔ ∃ between, d.run xs = .ok between ∧ between.run ys = .ok d' := by
  induction xs generalizing d with
  | nil => simp [run]
  | cons tokens xs ih =>
    rw [List.cons_append, run, run]
    rcases (process tokens).apply d with ⟨e | ⟨⟩, d''⟩
    · simp
    · exact ih

/-- A trace is carried out, from every draft that has its blocks open. -/
theorem run_of_trace {o : Options} {bs bs' : List OpenBlock} {lines : List Line} {tags : List Tag}
    (h : Trace o bs lines tags bs') {d : Draft} (ho : d.options = o) (hbs : d.blocks = bs) :
    d.run (lines.map Line.tokens) = .ok (d.advance tags bs') := by
  induction h generalizing d with
  | nil bs => rw [← hbs, advance_nil]; rfl
  | cons effect rest ih =>
    subst ho hbs
    rw [List.map_cons, run, effect.apply_process]
    simp only
    rw [ih (options_advance ..) (blocks_advance ..), advance_advance]

theorem exists_trace_of_run {d d' : Draft} {statements : List (List Token)}
    (h : d.run statements = .ok d') :
    ∃ lines tags blocks, statements = lines.map Line.tokens ∧
      Trace d.options d.blocks lines tags blocks ∧ d' = d.advance tags blocks := by
  induction statements generalizing d with
  | nil =>
    obtain rfl := Except.ok.inj h
    exact ⟨[], [], d.blocks, rfl, .nil _, (advance_nil d).symm⟩
  | cons tokens rest ih =>
    rw [run] at h
    rcases process_cases tokens d with ⟨e, he⟩ | ⟨line, tags, blocks, rfl, effect⟩
    · rw [he] at h
      simp at h
    · rw [effect.apply_process] at h
      obtain ⟨lines, tags', blocks', rfl, trace, rfl⟩ := ih h
      exact ⟨line :: lines, tags ++ tags', blocks', rfl, .cons effect trace, advance_advance ..⟩

/-- **Runs are traces.** A run is accepted throughout exactly if the statements spell the lines of a
trace from the open blocks, and then it writes what the trace writes. -/
theorem run_eq_ok_iff {d d' : Draft} {statements : List (List Token)} :
    d.run statements = .ok d' ↔
      ∃ lines tags blocks, statements = lines.map Line.tokens ∧
        Trace d.options d.blocks lines tags blocks ∧ d' = d.advance tags blocks := by
  refine ⟨exists_trace_of_run, ?_⟩
  rintro ⟨lines, tags, blocks, rfl, trace, rfl⟩
  exact run_of_trace trace rfl rfl

/-! ### Runs that pass over refusals -/

@[simp] theorem attempt_nil (d : Draft) : d.attempt [] = d := rfl

theorem attempt_cons (d : Draft) (tokens : List Token) (rest : List (List Token)) :
    d.attempt (tokens :: rest) = ((process tokens).apply d).2.attempt rest := rfl

/-- **Runs that pass over refusals are traces too.** Refused statements leave the draft as it was,
so such a run is the trace of the statements that are accepted. -/
theorem exists_trace_attempt (d : Draft) (statements : List (List Token)) :
    ∃ lines tags blocks, (lines.map Line.tokens).Sublist statements ∧
      Trace d.options d.blocks lines tags blocks ∧
        d.attempt statements = d.advance tags blocks := by
  induction statements generalizing d with
  | nil => exact ⟨[], [], d.blocks, .slnil, .nil _, (advance_nil d).symm⟩
  | cons tokens rest ih =>
    rw [attempt_cons]
    rcases process_cases tokens d with ⟨e, he⟩ | ⟨line, tags, blocks, rfl, effect⟩
    · rw [he]
      obtain ⟨lines, tags, blocks, hsub, trace, hd⟩ := ih d
      exact ⟨lines, tags, blocks, hsub.cons tokens, trace, hd⟩
    · rw [effect.apply_process]
      obtain ⟨lines, tags', blocks', hsub, trace, hd⟩ := ih (d.advance tags blocks)
      refine ⟨line :: lines, tags ++ tags', blocks', hsub.cons_cons _, .cons effect trace, ?_⟩
      rw [hd, advance_advance]

/-! ### Finishing -/

theorem finish_eq_ok_iff {d : Draft} {document : String} :
    d.finish = .ok document ↔ d.blocks = [] ∧ document = d.markup ++ Markup.footer := by
  rw [finish]
  cases d.blocks with
  | nil => simp [eq_comm]
  | cons b bs => simp

/-- A fresh draft is run to a document exactly by a trace that leaves nothing open. -/
theorem run_new_finish_iff {o : Options} {statements : List (List Token)} {document : String} :
    (∃ d, (Draft.new o).run statements = .ok d ∧ d.finish = .ok document) ↔
      ∃ lines tags, statements = lines.map Line.tokens ∧ Trace o [] lines tags [] ∧
        document = Markup.header ++ Tag.texts tags ++ Markup.footer := by
  constructor
  · rintro ⟨d, hrun, hfinish⟩
    obtain ⟨lines, tags, blocks, rfl, trace, rfl⟩ := run_eq_ok_iff.mp hrun
    obtain ⟨rfl, rfl⟩ := finish_eq_ok_iff.mp hfinish
    exact ⟨lines, tags, rfl, trace, rfl⟩
  · rintro ⟨lines, tags, rfl, trace, rfl⟩
    exact ⟨(Draft.new o).advance tags [], run_of_trace trace rfl rfl,
      finish_eq_ok_iff.mpr ⟨rfl, rfl⟩⟩

end Draft

/-! ### Compiling -/

/-- The statements of a source, each as its tokens. -/
def statements (source : String) : List (List Token) := (tokenizeSource source).map Prod.snd

/-- Carrying out lines is carrying out their tokens: places matter to errors only. -/
theorem runLines_eq_ok_iff (file : Nat) {d d' : Draft} {lines : List (SourceLine × List Token)} :
    runLines file d lines = .ok d' ↔ d.run (lines.map Prod.snd) = .ok d' := by
  induction lines generalizing d with
  | nil => simp [runLines, Draft.run]
  | cons line lines ih =>
    obtain ⟨place, tokens⟩ := line
    rw [runLines, List.map_cons, Draft.run]
    rcases (process tokens).apply d with ⟨e | ⟨⟩, d''⟩
    · simp
    · exact ih

theorem compile_eq_ok_iff_run {source : String} {file : Nat} {o : Options} {document : String} :
    compile source file o = .ok document ↔
      ∃ d, (Draft.new o).run (statements source) = .ok d ∧ d.finish = .ok document := by
  have htokens : statements source = (statementLines source).map Prod.snd := by
    simp [statements, tokenizeSource]
  rw [compile, htokens]
  cases hrun : runLines file (.new o) (statementLines source) with
  | error e =>
    have hno : ∀ d, (Draft.new o).run ((statementLines source).map Prod.snd) ≠ .ok d := by
      intro d h
      rw [← runLines_eq_ok_iff file, hrun] at h
      simp at h
    simp [hno]
  | ok d =>
    rw [(runLines_eq_ok_iff file).mp hrun]
    cases hfinish : d.finish <;> simp [hfinish]

/-- **Compilation is a trace.** A source has a document exactly if its statements spell the lines of
a trace that starts and ends with nothing open. -/
theorem compile_eq_ok_iff {source : String} {file : Nat} {o : Options} {document : String} :
    compile source file o = .ok document ↔
      ∃ lines tags, statements source = lines.map Line.tokens ∧ Trace o [] lines tags [] ∧
        document = Markup.header ++ Tag.texts tags ++ Markup.footer :=
  compile_eq_ok_iff_run.trans Draft.run_new_finish_iff

end Flowscript
