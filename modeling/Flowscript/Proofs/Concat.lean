import Flowscript.Proofs.Location

/-!
# Sources put together

A source is compiled line by line, so compiling the first lines and then the rest must come to the
same as compiling all of it. Three things have to fit at the seam: the lines, their places, and what
the first part leaves behind for the second.

## The seam

The cut is made behind a line feed. Then no line reaches across it (`sourceLines_append`), and the
lines behind it are the lines of the rest, with their numbers and spans moved by what stands before
(`SourceLine.shift`). A source that does not end in a line feed is given one first, which changes no
statement of it: at most a blank line is added, and a carriage return at its very end was left out
already (`statementLines_append_lf`).

## What is left behind

The first part leaves open blocks and markup. Markup is never looked at: a draft with more markup in
front of it runs in the same way, and keeps the markup in front (`apply_process_behind`). If no
block is open either, the second part runs as on a fresh draft.

An error in the first part is the error of the whole, whatever follows. The errors about blocks left
open are apart from this, because they are found at the end of the source and reported there.

## Main definitions

* `SourceLine.shift`, `LocatedError.shift` — places in a source that stands behind another one.
* `Draft.behind` — a draft with markup in front of it.
* `compileFrom` — compiling that begins with a given draft.

## Main results

* `statementLines_append` — the statements of two sources, one behind the other.
* `compileFrom_append` — compiling in two parts.
* `compile_append` — documents are put together as their sources are, and errors are moved.
* `compile_error_of_lines` — an error depends on the lines up to it only.
-/

namespace Flowscript

/-! ### Lines -/

theorem consLine_append {lines : List (List Char)} (h : lines ≠ []) (c : Char)
    (more : List (List Char)) : consLine c (lines ++ more) = consLine c lines ++ more := by
  obtain ⟨line, lines, rfl⟩ := List.exists_cons_of_ne_nil h
  by_cases hc : c = '\n' <;> simp [consLine, hc]

/-- No line reaches across a line feed. -/
theorem rawLines_append {p : List Char} (hp : p.getLast? = some '\n') (q : List Char) :
    rawLines (p ++ q) = rawLines p ++ rawLines q := by
  obtain ⟨front, rfl⟩ := List.getLast?_eq_some_iff.mp hp
  clear hp
  -- a character put in front begins the first line, and `p` always has one for it to begin
  induction front with
  | nil => exact rawLines_append_lf List.not_mem_nil q
  | cons c front ih =>
    have hne : rawLines (front ++ ['\n']) ≠ [] := rawLines_ne_nil (List.concat_ne_nil '\n' front)
    rw [List.cons_append, List.cons_append, rawLines_cons, ih, consLine_append hne, rawLines_cons]

/-- A source that ends in a line feed has as many lines as line feeds. -/
theorem length_rawLines_of_lf {p : List Char} (hp : p.getLast? = some '\n') :
    (rawLines p).length = p.count '\n' := by
  rw [length_rawLines, if_pos (.inr hp), Nat.add_zero]

/-- The span, in a source that stands behind another one. -/
def Span.shift (bytes : Nat) (s : Span) : Span := ⟨s.start + bytes, s.stop + bytes⟩

/-- The line, in a source that stands behind another one with so many lines and bytes. -/
def SourceLine.shift (lines bytes : Nat) (line : SourceLine) : SourceLine :=
  ⟨line.number + lines, line.span.shift bytes, line.text⟩

/-- The error, in a source that stands behind another one with so many lines and bytes. -/
def LocatedError.shift (lines bytes : Nat) (e : LocatedError) : LocatedError :=
  ⟨e.error, e.line + lines, e.span.shift bytes, e.file⟩

theorem numberLines_append (number offset : Nat) (xs ys : List (List Char)) :
    numberLines number offset (xs ++ ys) =
      numberLines number offset xs ++
        numberLines (number + xs.length) (offset + byteLength xs.flatten) ys := by
  induction xs generalizing number offset with
  | nil => rfl
  | cons raw xs ih =>
    rw [List.cons_append, numberLines, ih, numberLines, List.cons_append, List.length_cons,
      List.flatten_cons, byteLength_append, Nat.add_assoc offset, Nat.add_assoc number,
      Nat.add_comm 1]

theorem numberLines_shift (number offset lines bytes : Nat) (raws : List (List Char)) :
    numberLines (number + lines) (offset + bytes) raws =
      (numberLines number offset raws).map (SourceLine.shift lines bytes) := by
  induction raws generalizing number offset with
  | nil => rfl
  | cons raw raws ih =>
    rw [numberLines, numberLines, List.map_cons, SourceLine.shift, Span.shift,
      Nat.add_right_comm number, Nat.add_right_comm offset bytes, Nat.add_right_comm offset bytes,
      ih]

/-- **The seam.** Behind a line feed, the lines of the rest follow, with their places moved. -/
theorem sourceLines_append {p : String} (hp : p.toList.getLast? = some '\n') (q : String) :
    sourceLines (p ++ q) =
      sourceLines p ++
        (sourceLines q).map (SourceLine.shift (p.toList.count '\n') p.utf8ByteSize) := by
  rw [sourceLines, String.toList_append, rawLines_append hp, numberLines_append,
    length_rawLines_of_lf hp, flatten_rawLines, byteLength_toList, numberLines_shift]
  rfl

/-- Behind a line feed, the statements of the rest follow, with their places moved. -/
theorem statementLines_append {p : String} (hp : p.toList.getLast? = some '\n') (q : String) :
    statementLines (p ++ q) =
      statementLines p ++
        (statementLines q).map
          (Prod.map (SourceLine.shift (p.toList.count '\n') p.utf8ByteSize) id) := by
  rw [statementLines, sourceLines_append hp, List.map_append, List.filter_append, List.map_map]
  -- a line's tokens are those of its text, wherever it stands
  simp only [statementLines, List.filter_map, List.map_map]
  rfl

theorem lineText_append_lf {cs : List Char} (h : '\n' ∉ cs) :
    lineText (cs ++ ['\n']) = lineText cs := by
  rw [lineText, dropLastIf_append_self, lineText, dropLastIf_of_notMem h]

/-- A line feed behind a text adds at most a blank line. -/
theorem exists_blank_of_append_lf (number offset : Nat) (cs : List Char) :
    ∃ blank, numberLines number offset (rawLines (cs ++ ['\n'])) =
        numberLines number offset (rawLines cs) ++ blank ∧
      ∀ line ∈ blank, line.text = "" := by
  induction cs using lines_induction generalizing number offset with
  | nil => exact ⟨[⟨number, ⟨offset, offset⟩, ""⟩], rfl, by simp⟩
  | last cs hne hlf =>
    refine ⟨[], ?_, by simp⟩
    rw [rawLines_append_lf hlf, rawLines_of_notMem hne hlf, rawLines_nil, List.append_nil,
      numberLines, lineText_append_lf hlf]
    rfl
  | line body rest hbody ih =>
    obtain ⟨blank, hlines, hblank⟩ := ih (number + 1) (offset + byteLength (body ++ ['\n']))
    refine ⟨blank, ?_, hblank⟩
    rw [List.append_assoc, List.cons_append, rawLines_append_lf hbody, rawLines_append_lf hbody,
      numberLines, numberLines, hlines, List.cons_append]

/-- A line feed behind a source changes no statement. -/
theorem statementLines_append_lf (source : String) :
    statementLines (source ++ "\n") = statementLines source := by
  obtain ⟨blank, hlines, hblank⟩ := exists_blank_of_append_lf 1 0 source.toList
  have hsource : sourceLines (source ++ "\n") = sourceLines source ++ blank := by
    rw [sourceLines, String.toList_append]
    exact hlines
  have hnone : (blank.map fun line => (line, tokenize line.text)).filter (·.2 ≠ []) = [] := by
    rw [List.filter_eq_nil_iff]
    intro entry hentry
    obtain ⟨line, hline, rfl⟩ := List.mem_map.mp hentry
    have hempty : tokenize "" = [] := rfl
    simp [hblank line hline, hempty]
  rw [statementLines, hsource, List.map_append, List.filter_append, hnone, List.append_nil]
  rfl

/-! ### Runs -/

theorem runLines_append (file : Nat) (d : Draft) (xs ys : List (SourceLine × List Token)) :
    runLines file d (xs ++ ys) = (runLines file d xs).bind fun d' => runLines file d' ys := by
  induction xs generalizing d with
  | nil => rfl
  | cons line xs ih =>
    obtain ⟨place, tokens⟩ := line
    rw [List.cons_append, runLines, runLines]
    rcases (process tokens).apply d with ⟨e | ⟨⟩, d'⟩
    · rfl
    · exact ih d'

/-- Places matter to errors only, so moved lines run as before, up to the place of the error. -/
theorem runLines_map_shift (file lines bytes : Nat) (d : Draft)
    (xs : List (SourceLine × List Token)) :
    runLines file d (xs.map (Prod.map (SourceLine.shift lines bytes) id)) =
      (runLines file d xs).mapError (LocatedError.shift lines bytes) := by
  induction xs generalizing d with
  | nil => rfl
  | cons line xs ih =>
    obtain ⟨place, tokens⟩ := line
    rw [List.map_cons, Prod.map_apply, id_eq, runLines, runLines]
    rcases (process tokens).apply d with ⟨e | ⟨⟩, d'⟩
    · rfl
    · exact ih d'

namespace Draft

/-- The draft with markup in front of its own. -/
def behind (text : String) (d : Draft) : Draft := ⟨text ++ d.markup, d.blocks, d.options⟩

theorem behind_advance (text : String) (d : Draft) (tags : List Tag) (blocks : List OpenBlock) :
    (d.behind text).advance tags blocks = (d.advance tags blocks).behind text := by
  simp [behind, advance, String.append_assoc]

theorem finish_behind (text : String) (d : Draft) :
    (d.behind text).finish = d.finish.map (text ++ ·) := by
  obtain ⟨m, bs, o⟩ := d
  cases bs with
  | nil => simp [behind, finish, Except.map, String.append_assoc]
  | cons b bs => rfl

end Draft

/-- **Markup is never looked at.** A statement does the same behind other markup, and leaves it in
front. -/
theorem apply_process_behind (tokens : List Token) (text : String) (d : Draft) :
    (process tokens).apply (d.behind text) =
      Prod.map id (Draft.behind text) ((process tokens).apply d) := by
  rcases process_cases tokens d with ⟨e, he⟩ | ⟨line, tags, blocks, rfl, effect⟩
  · rw [he]
    refine apply_process_eq_error_of_fst ?_
    rw [Draft.behind, verdict_process tokens _ d.markup, he]
  · have heffect : Effect (d.behind text).options (d.behind text).blocks line tags blocks := effect
    rw [effect.apply_process, heffect.apply_process, Draft.behind_advance]
    rfl

theorem runLines_behind (file : Nat) (text : String) (d : Draft)
    (lines : List (SourceLine × List Token)) :
    runLines file (d.behind text) lines = (runLines file d lines).map (Draft.behind text) := by
  induction lines generalizing d with
  | nil => rfl
  | cons line lines ih =>
    obtain ⟨place, tokens⟩ := line
    rw [runLines, runLines, apply_process_behind]
    rcases (process tokens).apply d with ⟨e | ⟨⟩, d'⟩
    · rfl
    · exact ih d'

/-! ### Compiling in two parts -/

/-- The document of a source that begins with a given draft, or the first error in the source. -/
def compileFrom (d : Draft) (source : String) (file : Nat) : Except LocatedError String :=
  (runLines file d (statementLines source)).bind fun d' =>
    d'.finish.mapError fun e => ⟨e, (sourceLines source).length, endOfSource source, file⟩

theorem compile_eq_compileFrom (source : String) (file : Nat) (o : Options) :
    compile source file o = compileFrom (.new o) source file := by
  rw [compile, compileFrom]
  cases runLines file (.new o) (statementLines source) with
  | error e => rfl
  | ok d =>
    simp only [Except.bind]
    cases d.finish <;> rfl

/-- Compiling that begins behind markup leaves it in front of the document. -/
theorem compileFrom_behind (text : String) (d : Draft) (source : String) (file : Nat) :
    compileFrom (d.behind text) source file = (compileFrom d source file).map (text ++ ·) := by
  rw [compileFrom, compileFrom, runLines_behind]
  cases runLines file d (statementLines source) with
  | error e => rfl
  | ok d' =>
    simp only [Except.map, Except.bind, Draft.finish_behind]
    cases d'.finish <;> rfl

/-- **Compiling in two parts.** If the lines up to a line feed are accepted, compiling goes on with
the draft they lead to, and errors in the rest are moved behind them. -/
theorem compileFrom_append {p : String} (hp : p.toList.getLast? = some '\n') {file : Nat}
    {d d' : Draft} (hrun : runLines file d (statementLines p) = .ok d') (q : String) :
    compileFrom d (p ++ q) file =
      (compileFrom d' q file).mapError
        (LocatedError.shift (p.toList.count '\n') p.utf8ByteSize) := by
  have hlength : (sourceLines (p ++ q)).length = (sourceLines q).length + p.toList.count '\n' := by
    rw [sourceLines_append hp, List.length_append, List.length_map, sourceLines,
      length_numberLines, length_rawLines_of_lf hp, Nat.add_comm]
  have hend : endOfSource (p ++ q) = (endOfSource q).shift p.utf8ByteSize := by
    simp [endOfSource, Span.shift, Nat.add_comm]
  rw [compileFrom, statementLines_append hp, runLines_append, hrun, Except.bind,
    runLines_map_shift, compileFrom, hlength, hend]
  cases runLines file d' (statementLines q) with
  | error e => rfl
  | ok d'' =>
    simp only [Except.mapError, Except.bind]
    cases d''.finish <;> rfl

/-! ### A source behind another one -/

/-- A document is its header, and what its source writes behind no markup at all. -/
theorem compile_eq_map (source : String) (file : Nat) (o : Options) :
    compile source file o = (compileFrom ⟨"", [], o⟩ source file).map (Markup.header ++ ·) := by
  rw [compile_eq_compileFrom, ← compileFrom_behind, Draft.behind, String.append_empty]
  rfl

/-- The draft that a compiled source leaves behind: its document without the footer, and nothing
open. -/
theorem runLines_of_compile_eq_ok {source : String} {file : Nat} {o : Options} {body : String}
    (h : compile source file o = .ok (Markup.header ++ body ++ Markup.footer)) :
    runLines file (.new o) (statementLines source) = .ok ⟨Markup.header ++ body, [], o⟩ := by
  obtain ⟨d, hrun, hfinish⟩ := compile_eq_ok_iff_run.mp h
  obtain ⟨lines, tags, blocks, -, -, rfl⟩ := Draft.exists_trace_of_run hrun
  obtain ⟨hblocks, hdocument⟩ := Draft.finish_eq_ok_iff.mp hfinish
  have hmarkup : Markup.header ++ body = Markup.header ++ Tag.texts tags :=
    (String.append_left_inj Markup.footer).mp hdocument
  rw [Draft.blocks_advance] at hblocks
  rw [runLines_eq_ok_iff, ← statements_eq_map, hrun, hblocks, hmarkup]
  rfl

/-- Behind a source that has a document, a source is compiled as behind no markup at all. -/
theorem compile_append_eq_map {s₁ : String} {file : Nat} {o : Options} {b₁ : String}
    (h₁ : compile s₁ file o = .ok (Markup.header ++ b₁ ++ Markup.footer)) (s₂ : String) :
    compile (s₁ ++ "\n" ++ s₂) file o =
      ((compileFrom ⟨"", [], o⟩ s₂ file).map (Markup.header ++ b₁ ++ ·)).mapError
        (LocatedError.shift ((s₁ ++ "\n").toList.count '\n') (s₁.utf8ByteSize + 1)) := by
  have hlf : (s₁ ++ "\n").toList.getLast? = some '\n' := by simp
  have hbytes : (s₁ ++ "\n").utf8ByteSize = s₁.utf8ByteSize + 1 := String.utf8ByteSize_append
  have hrun := runLines_of_compile_eq_ok h₁
  rw [← statementLines_append_lf] at hrun
  rw [compile_eq_compileFrom, compileFrom_append hlf hrun, ← compileFrom_behind, hbytes,
    Draft.behind, String.append_empty]

/-- **Documents are put together as their sources are.** Behind a source that has a document, with a
line feed in between, another source adds what it would write by itself; or it fails with the error
it would fail with by itself, as many lines and bytes further on as stand before it. -/
theorem compile_append {s₁ s₂ : String} {file : Nat} {o : Options} {b₁ : String}
    (h₁ : compile s₁ file o = .ok (Markup.header ++ b₁ ++ Markup.footer)) :
    (∀ b₂, compile s₂ file o = .ok (Markup.header ++ b₂ ++ Markup.footer) →
        compile (s₁ ++ "\n" ++ s₂) file o =
          .ok (Markup.header ++ b₁ ++ b₂ ++ Markup.footer)) ∧
      ∀ err, compile s₂ file o = .error err →
        compile (s₁ ++ "\n" ++ s₂) file o =
          .error ⟨err.error, err.line + (s₁ ++ "\n").toList.count '\n',
            ⟨err.span.start + (s₁.utf8ByteSize + 1), err.span.stop + (s₁.utf8ByteSize + 1)⟩,
            err.file⟩ := by
  rw [compile_append_eq_map h₁, compile_eq_map]
  cases compileFrom ⟨"", [], o⟩ s₂ file with
  | ok rest =>
    refine ⟨fun b₂ h₂ => ?_, fun err herr => (nomatch herr)⟩
    have hrest : rest = b₂ ++ Markup.footer := by
      have hdocument := Except.ok.inj h₂
      rwa [String.append_assoc, String.append_right_inj] at hdocument
    rw [hrest, Except.map, Except.mapError, ← String.append_assoc]
  | error e =>
    refine ⟨fun b₂ h₂ => (nomatch h₂), fun err herr => ?_⟩
    obtain rfl := Except.error.inj herr
    rfl

/-- The first source ends in a carriage return, which becomes part of its last line end. Behind it a
function, a statement refused on a second line, and a block left open. -/
theorem compile_append_carriageReturn :
    ∃ b₁ b₂, compile "# é\r\nfn f () _ void\nend\r" 3 .strict =
        .ok (Markup.header ++ b₁ ++ Markup.footer) ∧
      compile "fn g () x int\r\nend" 3 .strict = .ok (Markup.header ++ b₂ ++ Markup.footer) ∧
      compile ("# é\r\nfn f () _ void\nend\r" ++ "\n" ++ "fn g () x int\r\nend") 3 .strict =
        .ok (Markup.header ++ b₁ ++ b₂ ++ Markup.footer) ∧
      compile ("# é\r\nfn f () _ void\nend\r" ++ "\n" ++ "\nset 日 1") 3 .strict =
        .error ⟨.outsideFunction "set", 5, ⟨27, 36⟩, 3⟩ ∧
      compile ("# é\r\nfn f () _ void\nend\r" ++ "\n" ++ "fn g () _ void\n") 3 .strict =
        .error ⟨.unclosedBlocks "function" 1, 4, ⟨41, 41⟩, 3⟩ := by
  have h₁ : compile "# é\r\nfn f () _ void\nend\r" 3 .strict =
      .ok (Markup.header ++
        "<function name=\"f\" type=\"void\" variable=\"\"><parameters/><body></body></function>" ++
        Markup.footer) := rfl
  have h₂ : compile "fn g () x int\r\nend" 3 .strict =
      .ok (Markup.header ++
        "<function name=\"g\" type=\"int\" variable=\"x\"><parameters/><body></body></function>" ++
        Markup.footer) := rfl
  exact ⟨_, _, h₁, h₂, (compile_append h₁).1 _ h₂,
    (compile_append h₁).2 ⟨.outsideFunction "set", 2, ⟨1, 10⟩, 3⟩ rfl,
    (compile_append h₁).2 ⟨.unclosedBlocks "function" 1, 1, ⟨15, 15⟩, 3⟩ rfl⟩

/-! ### The first lines of a source -/

/-- An error in the lines up to a line feed is the error of the source. -/
theorem compile_of_runLines_eq_error {p : String} (hp : p.toList.getLast? = some '\n') {file : Nat}
    {o : Options} {err : LocatedError}
    (hrun : runLines file (.new o) (statementLines p) = .error err) (q : String) :
    compile (p ++ q) file o = .error err := by
  rw [compile_eq_compileFrom, compileFrom, statementLines_append hp, runLines_append, hrun]
  rfl

/-- An error is about blocks left open, or it is on some line of the source. -/
theorem compileFrom_error_cases {d : Draft} {source : String} {file : Nat} {err : LocatedError}
    (h : compileFrom d source file = .error err) :
    (∃ innermost count, err.error = .unclosedBlocks innermost count) ∨ 1 ≤ err.line := by
  rw [compileFrom] at h
  cases hrun : runLines file d (statementLines source) with
  | error err' =>
    rw [hrun] at h
    obtain rfl := Except.error.inj h
    obtain ⟨earlier, line, tokens, later, d', e, hlines, -, -, rfl⟩ :=
      exists_refused_of_runLines hrun
    have hmem : (line, tokens) ∈ statementLines source := by
      rw [hlines]
      exact List.mem_append_right earlier List.mem_cons_self
    obtain ⟨before, after, -, -, -, hnumber⟩ :=
      (SourceLine.standsIn_of_mem (line_of_mem_statementLines hmem).1).exists_before
    refine .inr ?_
    rw [← hnumber]
    exact Nat.le_add_right 1 _
  | ok d' =>
    rw [hrun, Except.bind] at h
    cases hfinish : d'.finish with
    | ok document =>
      rw [hfinish] at h
      exact nomatch h
    | error e =>
      rw [hfinish] at h
      obtain rfl := Except.error.inj h
      obtain ⟨b, bs, -, rfl⟩ := Draft.finish_eq_error_iff.mp hfinish
      exact .inl ⟨b.name, d'.depth, rfl⟩

/-- An error on a line up to a line feed is an error in the lines up to there. -/
theorem runLines_eq_error_of_line_le {p q : String} (hp : p.toList.getLast? = some '\n')
    {file : Nat} {o : Options} {err : LocatedError} (h : compile (p ++ q) file o = .error err)
    (hstatement : ∀ innermost count, err.error ≠ .unclosedBlocks innermost count)
    (hline : err.line ≤ p.toList.count '\n') :
    runLines file (.new o) (statementLines p) = .error err := by
  cases hrun : runLines file (.new o) (statementLines p) with
  | error err' =>
    rw [compile_of_runLines_eq_error hp hrun] at h
    rw [Except.error.inj h]
  | ok d =>
    rw [compile_eq_compileFrom, compileFrom_append hp hrun] at h
    cases hrest : compileFrom d q file with
    | ok document =>
      rw [hrest] at h
      exact nomatch h
    | error rest =>
      rw [hrest] at h
      obtain rfl := Except.error.inj h
      rcases compileFrom_error_cases hrest with ⟨innermost, count, hopen⟩ | hrestline
      · exact absurd hopen (hstatement innermost count)
      · have hmoved : rest.line + p.toList.count '\n' ≤ p.toList.count '\n' := hline
        omega

/-- Lines are numbered in their order. -/
theorem pairwise_numberLines (number offset : Nat) (raws : List (List Char)) :
    (numberLines number offset raws).Pairwise (·.number < ·.number) := by
  induction raws generalizing number offset with
  | nil => exact .nil
  | cons raw raws ih =>
    refine .cons (fun line hline => ?_) (ih _ _)
    obtain ⟨before, -, -, -, hnumber, -, -⟩ := exists_of_mem_numberLines hline
    rw [hnumber]
    exact Nat.lt_of_lt_of_le (Nat.lt_succ_self number) (Nat.le_add_right _ _)

theorem pairwise_statementLines (source : String) :
    (statementLines source).Pairwise (·.1.number < ·.1.number) := by
  refine List.Pairwise.filter _ (List.pairwise_map.mpr ?_)
  exact pairwise_numberLines 1 0 (rawLines source.toList)

/-- The statements on lines before a given one are those that come before it. -/
theorem filter_tokenizeSource {source : String} {earlier later : List (SourceLine × List Token)}
    {line : SourceLine} {tokens : List Token}
    (h : statementLines source = earlier ++ (line, tokens) :: later) :
    ((tokenizeSource source).filter (·.1 < line.number)).map Prod.snd = earlier.map Prod.snd := by
  have hnumbers := pairwise_statementLines source
  rw [h, List.pairwise_append, List.pairwise_cons] at hnumbers
  obtain ⟨-, ⟨hlater, -⟩, hearlier⟩ := hnumbers
  have hbefore : earlier.filter (·.1.number < line.number) = earlier := by
    rw [List.filter_eq_self]
    intro entry hentry
    exact decide_eq_true (hearlier entry hentry _ List.mem_cons_self)
  have hbehind : ((line, tokens) :: later).filter (·.1.number < line.number) = [] := by
    rw [List.filter_eq_nil_iff, List.forall_mem_cons]
    refine ⟨by simp, fun entry hentry => ?_⟩
    have hnumber : line.number < entry.1.number := hlater entry hentry
    simp only [decide_eq_true_eq]
    omega
  calc
    ((tokenizeSource source).filter (·.1 < line.number)).map Prod.snd
    _ = ((statementLines source).filter (·.1.number < line.number)).map Prod.snd := by
      rw [tokenizeSource, List.filter_map, List.map_map]
      rfl
    _ = earlier.map Prod.snd := by
      rw [h, List.filter_append, hbefore, hbehind, List.append_nil]

/-- **An error depends on the lines up to it only.** Take a source with an error other than blocks
left open, on one of the lines up to some line feed. Whatever is put behind that line feed instead,
the error is the same, at the same place; and the statements on the lines before it are accepted. -/
theorem compile_error_of_lines {p q : String} {file : Nat} {o : Options} {err : LocatedError}
    (hp : p.toList.getLast? = some '\n') (h : compile (p ++ q) file o = .error err)
    (hstatement : ∀ innermost count, err.error ≠ .unclosedBlocks innermost count)
    (hline : err.line ≤ p.toList.count '\n') :
    (∀ q', compile (p ++ q') file o = .error err) ∧
      ∃ d, (Draft.new o).run
        (((tokenizeSource (p ++ q)).filter (·.1 < err.line)).map Prod.snd) = .ok d := by
  have hrun := runLines_eq_error_of_line_le hp h hstatement hline
  refine ⟨compile_of_runLines_eq_error hp hrun, ?_⟩
  obtain ⟨earlier, line, tokens, later, d, e, hlines, haccepted, -, rfl⟩ :=
    exists_refused_of_runLines hrun
  have hsource := statementLines_append hp q
  rw [hlines, List.append_assoc, List.cons_append] at hsource
  exact ⟨d, by rw [filter_tokenizeSource hsource]; exact haccepted⟩

/-- The second line lacks a value. Neither an unknown word nor a missing `end` behind it matters. -/
theorem compile_error_of_lines_second :
    compile ("fn f () _ void\nset é\n" ++ "end") 0 .strict =
        .error ⟨.argumentCount "set" (.atLeast 2) 1, 2, ⟨15, 21⟩, 0⟩ ∧
      compile ("fn f () _ void\nset é\n" ++ "(\"\nwhat\r") 0 .strict =
        .error ⟨.argumentCount "set" (.atLeast 2) 1, 2, ⟨15, 21⟩, 0⟩ ∧
      compile ("fn f () _ void\nset é\n" ++ "") 0 .strict =
        .error ⟨.argumentCount "set" (.atLeast 2) 1, 2, ⟨15, 21⟩, 0⟩ ∧
      ∃ d, (Draft.new .strict).run [["fn", "f", "()", "_", "void"]] = .ok d := by
  have h : compile ("fn f () _ void\nset é\n" ++ "end") 0 .strict =
      .error ⟨.argumentCount "set" (.atLeast 2) 1, 2, ⟨15, 21⟩, 0⟩ := rfl
  obtain ⟨hsame, haccepted⟩ := compile_error_of_lines rfl h
    (fun _ _ => StatementError.noConfusion) (by decide)
  exact ⟨h, hsame _, hsame _, haccepted⟩

end Flowscript
