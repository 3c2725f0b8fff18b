import Flowscript.Proofs.Lines
import Flowscript.Proofs.Refusal
import Mathlib.Data.List.Forall2

/-!
# Layout does not matter

The same lines can be laid out in many ways: with either kind of line end, with or without one
behind the last line, with blanks in front of a line, and with blank lines anywhere between them.
Whatever is chosen, the lines compile to the same document, or to the same error about the same
line.

## What a layout is

A layout is a list of rows. A row is blanks, behind them one of the given lines or nothing, and a
line end. `Layout lines` carries the proof that its rows hold exactly the given lines, in order, so
that blank rows are all that is added; and a row carries the proof that its indentation is blank.

The lines themselves may not hold a line feed, nor end in a carriage return: a line feed inside a
line would be a cut, and a carriage return at its end would be read as a part of the line end.

## How it is proved

A layout has statements in the same order as the lines it is made of, and each stands on the row of
its own line (`forall₂_statementLines`). Runs of statements differ by their places only, and only in
the place of their error (`runLines_congr`).

## What is deliberately absent

Blocks left open are reported behind the last byte of the source, which is no place of any line. The
cause is the same for all layouts, and its place is not compared.

## Main definitions

* `LineEnd`, `Row`, `Layout`, `Layout.source` — lines laid out as a source.
* `Layout.Places` — where a line stands in a layout.

## Main results

* `tokenize_append_of_blank` — blanks in front of a line are no part of it.
* `compile_eq_of_layouts` — two layouts of the same lines compile to the same.
-/

namespace Flowscript

/-! ### Blanks in front of a line -/

theorem Mode.read_plain_of_blank {c : Char} (h : isBlank c = true) :
    Mode.plain.read c = (.plain, .drop) := by
  have hc : c = ' ' ∨ c = '\t' := by simpa [isBlank] using h
  rcases hc with rfl | rfl <;> rfl

/-- A blank in front of a line cuts off an empty piece, which is no token. -/
theorem tokenChars_cons_of_blank {c : Char} (h : isBlank c = true) (cs : List Char) :
    tokenChars (c :: cs) = tokenChars cs := by
  simp [tokenChars, pieces, Mode.read_plain_of_blank h]

/-- Blanks in front of a line are no part of its tokens, whatever quotes and groups follow. -/
theorem tokenize_append_of_blank {indent : String} (h : ∀ c ∈ indent.toList, isBlank c = true)
    (text : String) : tokenize (indent ++ text) = tokenize text := by
  have key : ∀ blanks : List Char, (∀ c ∈ blanks, isBlank c = true) →
      tokenChars (blanks ++ text.toList) = tokenChars text.toList := by
    intro blanks
    induction blanks with
    | nil => intro _; rfl
    | cons c blanks ih =>
      intro hblank
      rw [List.forall_mem_cons] at hblank
      rw [List.cons_append, tokenChars_cons_of_blank hblank.1, ih hblank.2]
  rw [tokenize, String.toList_append, key indent.toList h, tokenize]

/-! ### Layouts -/

/-- How a line ends. -/
inductive LineEnd where
  /-- With a line feed. -/
  | lf
  /-- With a carriage return and a line feed. -/
  | crlf
deriving DecidableEq, Repr

/-- The characters of a line end. -/
def LineEnd.text : LineEnd → String
  | .lf => "\n"
  | .crlf => "\r\n"

/-- A row of a layout: one of the given lines behind blanks, or blanks alone. -/
structure Row where
  /-- The blanks in front. -/
  indent : String
  /-- The line, if there is one. -/
  line : Option String
  /-- How the row ends. -/
  ending : LineEnd
  /-- There is nothing but blanks in front. -/
  isBlank_of_mem : ∀ c ∈ indent.toList, isBlank c = true

namespace Row

/-- What stands on a row, without its line end. -/
def text (r : Row) : String := r.indent ++ r.line.getD ""

/-- Rows put together. The last row may go without its line end. -/
def source (closed : Bool) : List Row → String
  | [] => ""
  | row :: rest =>
    row.text ++ (if rest.isEmpty && !closed then "" else row.ending.text) ++ source closed rest

/-- The bytes that rows take, each with its line end. -/
def bytes (rows : List Row) : Nat := (source true rows).utf8ByteSize

@[simp] theorem bytes_nil : bytes [] = 0 := rfl

theorem bytes_cons (row : Row) (rows : List Row) :
    bytes (row :: rows) = (row.text ++ row.ending.text).utf8ByteSize + bytes rows := by
  simp [bytes, source]

/-- The tokens of a row are those of its line. A blank row has none. -/
theorem tokenize_text (r : Row) : tokenize r.text = tokenize (r.line.getD "") :=
  tokenize_append_of_blank r.isBlank_of_mem _

end Row

/-- A layout of lines. -/
structure Layout (lines : List String) where
  /-- The rows. -/
  rows : List Row
  /-- Whether the last row has its line end. -/
  closed : Bool
  /-- The rows hold the lines, in order, and no others. -/
  filterMap_line : rows.filterMap Row.line = lines

namespace Layout

variable {lines : List String}

/-- The source that a layout makes of its lines. -/
def source (l : Layout lines) : String := Row.source l.closed l.rows

/-- The line with `i` others before it stands on row `number` of a layout and takes the stretch
`span` of its source, the blanks in front of it included. -/
def Places (l : Layout lines) (i number : Nat) (span : Span) : Prop :=
  ∃ before row after, l.rows = before ++ row :: after ∧ row.line.isSome = true ∧
    (before.filterMap Row.line).length = i ∧ number = before.length + 1 ∧
    span = ⟨Row.bytes before, Row.bytes before + row.text.utf8ByteSize⟩

theorem Places.lt_length {l : Layout lines} {i number : Nat} {span : Span}
    (h : l.Places i number span) : i < lines.length := by
  obtain ⟨before, row, after, hrows, hline, rfl, -, -⟩ := h
  obtain ⟨line, hline⟩ := Option.isSome_iff_exists.mp hline
  rw [← l.filterMap_line, hrows, List.filterMap_append, List.filterMap_cons_some hline,
    List.length_append, List.length_cons]
  omega

end Layout

/-! ### The statements of a layout -/

/-- The lines of a text that have tokens, the first line having the given number and place. -/
def statementsFrom (number offset : Nat) (cs : List Char) : List (SourceLine × List Token) :=
  ((numberLines number offset (rawLines cs)).map fun line => (line, tokenize line.text)).filter
    (·.2 ≠ [])

theorem lineText_of_no_end {cs : List Char} (hlf : '\n' ∉ cs) (hcr : cs.getLast? ≠ some '\r') :
    lineText cs = cs := by
  rw [lineText, dropLastIf_of_notMem hlf, dropLastIf, if_neg hcr]

/-- A line end is cut off, and nothing else is. -/
theorem lineText_append_ending {cs : List Char} (hcr : cs.getLast? ≠ some '\r')
    (ending : LineEnd) : lineText (cs ++ ending.text.toList) = cs := by
  cases ending with
  | lf =>
    show dropLastIf '\r' (dropLastIf '\n' (cs ++ ['\n'])) = cs
    rw [dropLastIf_append_self, dropLastIf, if_neg hcr]
  | crlf =>
    show dropLastIf '\r' (dropLastIf '\n' (cs ++ ['\r', '\n'])) = cs
    rw [show cs ++ ['\r', '\n'] = cs ++ ['\r'] ++ ['\n'] by simp, dropLastIf_append_self,
      dropLastIf_append_self]

/-- A line is cut behind its line end, of either kind. -/
theorem rawLines_append_ending {cs : List Char} (hlf : '\n' ∉ cs) (ending : LineEnd)
    (rest : List Char) :
    rawLines (cs ++ ending.text.toList ++ rest) = (cs ++ ending.text.toList) :: rawLines rest := by
  cases ending with
  | lf =>
    show rawLines (cs ++ ['\n'] ++ rest) = (cs ++ ['\n']) :: rawLines rest
    rw [List.append_assoc, List.singleton_append, rawLines_append_lf hlf]
  | crlf =>
    have hlf' : '\n' ∉ cs ++ ['\r'] := by simpa using hlf
    show rawLines (cs ++ ['\r', '\n'] ++ rest) = (cs ++ ['\r', '\n']) :: rawLines rest
    rw [show cs ++ ['\r', '\n'] ++ rest = cs ++ ['\r'] ++ '\n' :: rest by simp,
      rawLines_append_lf hlf']
    simp

section Rows

variable {row : Row} {rest : List Row} {closed : Bool} {number offset : Nat}

/-- **One row.** Its line is a statement if it has tokens, and the statements of the other rows
follow. Without a line end an empty row is no line at all, but then it has no tokens either. -/
theorem statementsFrom_source_cons (hlf : '\n' ∉ row.text.toList)
    (hcr : row.text.toList.getLast? ≠ some '\r') :
    statementsFrom number offset (Row.source closed (row :: rest)).toList =
      [(⟨number, ⟨offset, offset + row.text.utf8ByteSize⟩, row.text⟩, tokenize row.text)].filter
          (·.2 ≠ []) ++
        statementsFrom (number + 1) (offset + (row.text ++ row.ending.text).utf8ByteSize)
          (Row.source closed rest).toList := by
  by_cases hend : (rest.isEmpty && !closed) = true
  · have hrest : rest = [] := by simpa using (Bool.and_eq_true_iff.mp hend).1
    subst hrest
    have hsource : (Row.source closed [row]).toList = row.text.toList := by
      simp [Row.source, show closed = false by simpa using hend]
    rw [hsource]
    by_cases hempty : row.text.toList = []
    · have htext : row.text = "" := String.toList_eq_nil_iff.mp hempty
      rw [htext]
      rfl
    · rw [statementsFrom, rawLines_of_notMem hempty hlf, numberLines, lineText_of_no_end hlf hcr,
        byteLength_toList, String.ofList_toList]
      simp [numberLines, Row.source, statementsFrom]
  · have hsource : (Row.source closed (row :: rest)).toList =
        row.text.toList ++ row.ending.text.toList ++ (Row.source closed rest).toList := by
      simp [Row.source, hend]
    rw [hsource, statementsFrom, rawLines_append_ending hlf, numberLines,
      lineText_append_ending hcr, byteLength_toList, String.ofList_toList, List.map_cons,
      ← String.toList_append, byteLength_toList, statementsFrom]
    rw [← List.singleton_append, List.filter_append]

end Rows

namespace Row

variable {r : Row}

theorem lf_notMem_text (h : ∀ line ∈ r.line, '\n' ∉ line.toList) : '\n' ∉ r.text.toList := by
  rw [text, String.toList_append, List.mem_append, not_or]
  constructor
  · intro hmem
    exact absurd (r.isBlank_of_mem '\n' hmem) (by decide)
  · cases hline : r.line with
    | none => exact List.not_mem_nil
    | some line => exact h line hline

theorem getLast?_text_ne (h : ∀ line ∈ r.line, line.toList.getLast? ≠ some '\r') :
    r.text.toList.getLast? ≠ some '\r' := by
  have hindent : r.indent.toList.getLast? ≠ some '\r' := by
    intro hlast
    exact absurd (r.isBlank_of_mem '\r' (List.mem_of_getLast? hlast)) (by decide)
  rw [text, String.toList_append, List.getLast?_append]
  cases hline : r.line with
  | none => simpa using hindent
  | some line =>
    -- a line that is not empty decides by its own end
    cases hlast : line.toList.getLast? with
    | none => simpa [hlast] using hindent
    | some c => simpa [hlast] using h line hline

/-- The line with `k` others before it, counting from `i`, stands on a row of `rows`, and `place`
says which, the first row having the given number and place. -/
def Stands (rows : List Row) (number offset i k : Nat) (place : SourceLine) : Prop :=
  ∃ before row after, rows = before ++ row :: after ∧ row.line.isSome = true ∧
    i + (before.filterMap Row.line).length = k ∧ place.number = number + before.length ∧
    place.span = ⟨offset + bytes before, offset + bytes before + row.text.utf8ByteSize⟩

/-- A row in front moves the places behind it. -/
theorem Stands.cons {rows : List Row} {number offset i k : Nat} {place : SourceLine} (row : Row)
    (h : Stands rows (number + 1) (offset + (row.text ++ row.ending.text).utf8ByteSize)
      (i + row.line.toList.length) k place) :
    Stands (row :: rows) number offset i k place := by
  obtain ⟨before, row', after, rfl, hline, hk, hnumber, hspan⟩ := h
  refine ⟨row :: before, row', after, rfl, hline, ?_, ?_, ?_⟩
  · rw [List.filterMap_cons]
    cases hrow : row.line with
    | none => simpa [hrow] using hk
    | some line =>
      rw [hrow] at hk
      simp only [Option.toList_some, List.length_cons, List.length_nil] at hk ⊢
      omega
  · rw [hnumber, List.length_cons]
    omega
  · rw [hspan, bytes_cons, Nat.add_assoc offset]

/-- **The statements of rows** are the lines that have tokens, in order, and each stands on the row
of its line. -/
theorem forall₂_statementsFrom {rows : List Row} (closed : Bool)
    (hlf : ∀ row ∈ rows, ∀ line ∈ row.line, '\n' ∉ line.toList)
    (hcr : ∀ row ∈ rows, ∀ line ∈ row.line, line.toList.getLast? ≠ some '\r')
    (number offset i : Nat) :
    List.Forall₂ (fun (x : String × Nat) (y : SourceLine × List Token) =>
        y.2 = tokenize x.1 ∧ Stands rows number offset i x.2 y.1)
      (((rows.filterMap Row.line).zipIdx i).filter (tokenize ·.1 ≠ []))
      (statementsFrom number offset (source closed rows).toList) := by
  induction rows generalizing number offset i with
  | nil => exact .nil
  | cons row rest ih =>
    rw [List.forall_mem_cons] at hlf hcr
    rw [statementsFrom_source_cons (lf_notMem_text hlf.1) (getLast?_text_ne hcr.1), tokenize_text,
      List.filterMap_cons]
    have hrest := (ih hlf.2 hcr.2 (number + 1)
      (offset + (row.text ++ row.ending.text).utf8ByteSize) (i + row.line.toList.length)).imp
        fun _ _ h => And.imp_right (Stands.cons row) h
    cases hline : row.line with
    | none =>
      rw [hline] at hrest
      exact hrest
    | some line =>
      rw [hline] at hrest
      have hfirst : Stands (row :: rest) number offset i i
          ⟨number, ⟨offset, offset + row.text.utf8ByteSize⟩, row.text⟩ :=
        ⟨[], row, rest, rfl, by rw [hline]; rfl, rfl, rfl, rfl⟩
      simp only [Option.getD_some, List.zipIdx_cons]
      by_cases htokens : tokenize line = []
      · simpa [htokens] using hrest
      · rw [List.filter_cons_of_pos (by simpa using htokens),
          List.filter_cons_of_pos (by simpa using htokens)]
        exact .cons ⟨rfl, hfirst⟩ hrest

end Row

theorem Layout.forall₂_statementLines {lines : List String}
    (hlf : ∀ line ∈ lines, '\n' ∉ line.toList)
    (hcr : ∀ line ∈ lines, line.toList.getLast? ≠ some '\r') (l : Layout lines) :
    List.Forall₂ (fun (x : String × Nat) (y : SourceLine × List Token) =>
        y.2 = tokenize x.1 ∧ l.Places x.2 y.1.number y.1.span)
      (lines.zipIdx.filter (tokenize ·.1 ≠ [])) (statementLines l.source) := by
  have hmem : ∀ row ∈ l.rows, ∀ line ∈ row.line, line ∈ lines := by
    intro row hrow line hline
    rw [← l.filterMap_line]
    exact List.mem_filterMap.mpr ⟨row, hrow, hline⟩
  have hrows := Row.forall₂_statementsFrom l.closed
    (fun row hrow line hline => hlf line (hmem row hrow line hline))
    (fun row hrow line hline => hcr line (hmem row hrow line hline)) 1 0 0
  rw [l.filterMap_line] at hrows
  refine hrows.imp fun x y h => ⟨h.1, ?_⟩
  obtain ⟨before, row, after, hrows, hline, hi, hnumber, hspan⟩ := h.2
  refine ⟨before, row, after, hrows, hline, by omega, by omega, ?_⟩
  rw [hspan, Nat.zero_add]

/-- The statements of a layout are the lines that have tokens. -/
theorem Layout.statements_source {lines : List String}
    (hlf : ∀ line ∈ lines, '\n' ∉ line.toList)
    (hcr : ∀ line ∈ lines, line.toList.getLast? ≠ some '\r') (l : Layout lines) :
    statements l.source = (lines.map tokenize).filter (· ≠ []) := by
  have hlines := (l.forall₂_statementLines hlf hcr).imp fun x y h => h.1
  have htokens : (statementLines l.source).map Prod.snd =
      (lines.zipIdx.filter (tokenize ·.1 ≠ [])).map (tokenize ·.1) := by
    rw [← List.forall₂_eq_eq_eq, List.forall₂_map_left_iff, List.forall₂_map_right_iff]
    exact hlines.flip
  have hmap : lines.map tokenize = lines.zipIdx.map (tokenize ·.1) := by
    rw [← Function.comp_def tokenize Prod.fst, ← List.map_map, List.zipIdx_map_fst]
  rw [statements_eq_map, htokens, hmap, List.filter_map]
  rfl

/-! ### Compiling layouts -/

/-- **Places matter to the error only.** Two runs of the same statements in different places end
alike, and if a statement is refused, it is the same one in both. -/
theorem runLines_congr {α : Type} {t : α → List Token} {R S : α → SourceLine → Prop}
    {statements : List α} {xs ys : List (SourceLine × List Token)}
    (hx : List.Forall₂ (fun a x => x.2 = t a ∧ R a x.1) statements xs)
    (hy : List.Forall₂ (fun a y => y.2 = t a ∧ S a y.1) statements ys)
    (file : Nat) (d : Draft) :
    (∃ d', runLines file d xs = .ok d' ∧ runLines file d ys = .ok d') ∨
      ∃ e a p q, R a p ∧ S a q ∧ runLines file d xs = .error ⟨e, p.number, p.span, file⟩ ∧
        runLines file d ys = .error ⟨e, q.number, q.span, file⟩ := by
  induction hx generalizing ys d with
  | nil =>
    cases hy
    exact .inl ⟨d, rfl, rfl⟩
  | @cons a x statements xs h hx ih =>
    cases hy with
    | @cons _ y _ ys h' hy =>
      obtain ⟨p, _⟩ := x
      obtain ⟨q, _⟩ := y
      obtain ⟨rfl, hp⟩ := h
      obtain ⟨rfl, hq⟩ := h'
      rw [runLines, runLines]
      rcases (process (t a)).apply d with ⟨e | ⟨⟩, d'⟩
      · exact .inr ⟨e, a, p, q, hp, hq, rfl, rfl⟩
      · exact ih hy d'

/-- **Layout does not matter.** Lay lines out in two ways. The two sources compile to the same
document, or both are refused for the same cause: at the place of the same line in both, unless the
cause is blocks left open. -/
theorem compile_eq_of_layouts {lines : List String} (hlf : ∀ line ∈ lines, '\n' ∉ line.toList)
    (hcr : ∀ line ∈ lines, line.toList.getLast? ≠ some '\r') (l m : Layout lines) (file : Nat)
    (o : Options) :
    (∃ document, compile l.source file o = .ok document ∧ compile m.source file o = .ok document) ∨
      ∃ err err', compile l.source file o = .error err ∧ compile m.source file o = .error err' ∧
        err.error = err'.error ∧ err.file = err'.file ∧
        ((∃ innermost count, err.error = .unclosedBlocks innermost count) ∨
          ∃ i < lines.length, l.Places i err.line err.span ∧ m.Places i err'.line err'.span) := by
  have hruns := runLines_congr (t := fun x : String × Nat => tokenize x.1)
    (R := fun x place => l.Places x.2 place.number place.span)
    (S := fun x place => m.Places x.2 place.number place.span)
    (l.forall₂_statementLines hlf hcr) (m.forall₂_statementLines hlf hcr) file (.new o)
  rcases hruns with ⟨d, hl, hm⟩ | ⟨e, ⟨line, i⟩, p, q, hp, hq, hl, hm⟩
  · rw [runLines_eq_ok_iff, ← statements_eq_map] at hl hm
    cases hfinish : d.finish with
    | ok document =>
      exact .inl ⟨document, compile_eq_ok_iff_run.mpr ⟨d, hl, hfinish⟩,
        compile_eq_ok_iff_run.mpr ⟨d, hm, hfinish⟩⟩
    | error e =>
      obtain ⟨b, bs, -, rfl⟩ := Draft.finish_eq_error_iff.mp hfinish
      exact .inr ⟨_, _, compile_of_unfinished hl hfinish, compile_of_unfinished hm hfinish, rfl, rfl,
        .inl ⟨b.name, d.depth, rfl⟩⟩
  · refine .inr ⟨⟨e, p.number, p.span, file⟩, ⟨e, q.number, q.span, file⟩, ?_, ?_, rfl, rfl,
      .inr ⟨i, hp.lt_length, hp, hq⟩⟩
    · rw [compile, hl]
    · rw [compile, hm]

/-- Tight lines without a last line end, against indented lines with carriage returns and blank rows
between them. The same line is refused, on row 3 of the one layout and on row 6 of the other. -/
theorem compile_eq_of_layouts_refused :
    ∃ l m : Layout ["fn f () _ void", "# \"é", "set x", "end"],
      l.source = "fn f () _ void\n# \"é\nset x\nend" ∧
      m.source = " \t\r\nfn f () _ void\r\n\t# \"é\r\n\n  \r\n\t\tset x\r\n end\n" ∧
      compile l.source 0 .strict = .error ⟨.argumentCount "set" (.atLeast 2) 1, 3, ⟨21, 26⟩, 0⟩ ∧
      compile m.source 0 .strict = .error ⟨.argumentCount "set" (.atLeast 2) 1, 6, ⟨33, 40⟩, 0⟩ ∧
      ∃ i < 4, l.Places i 3 ⟨21, 26⟩ ∧ m.Places i 6 ⟨33, 40⟩ := by
  have hblank {s : String} : s.toList.all isBlank = true → ∀ c ∈ s.toList, isBlank c = true :=
    List.all_eq_true.mp
  obtain ⟨l, hl⟩ : ∃ l : Layout ["fn f () _ void", "# \"é", "set x", "end"],
      l.source = "fn f () _ void\n# \"é\nset x\nend" :=
    ⟨⟨[⟨"", some "fn f () _ void", .lf, hblank rfl⟩, ⟨"", some "# \"é", .lf, hblank rfl⟩,
      ⟨"", some "set x", .lf, hblank rfl⟩, ⟨"", some "end", .lf, hblank rfl⟩], false, rfl⟩, rfl⟩
  obtain ⟨m, hm⟩ : ∃ m : Layout ["fn f () _ void", "# \"é", "set x", "end"],
      m.source = " \t\r\nfn f () _ void\r\n\t# \"é\r\n\n  \r\n\t\tset x\r\n end\n" :=
    ⟨⟨[⟨" \t", none, .crlf, hblank rfl⟩, ⟨"", some "fn f () _ void", .crlf, hblank rfl⟩,
      ⟨"\t", some "# \"é", .crlf, hblank rfl⟩, ⟨"", none, .lf, hblank rfl⟩,
      ⟨"  ", none, .crlf, hblank rfl⟩, ⟨"\t\t", some "set x", .crlf, hblank rfl⟩,
      ⟨" ", some "end", .lf, hblank rfl⟩], true, rfl⟩, rfl⟩
  have hlerr : compile l.source 0 .strict =
      .error ⟨.argumentCount "set" (.atLeast 2) 1, 3, ⟨21, 26⟩, 0⟩ := by rw [hl]; rfl
  have hmerr : compile m.source 0 .strict =
      .error ⟨.argumentCount "set" (.atLeast 2) 1, 6, ⟨33, 40⟩, 0⟩ := by rw [hm]; rfl
  refine ⟨l, m, hl, hm, hlerr, hmerr, ?_⟩
  rcases compile_eq_of_layouts (by decide) (by decide) l m 0 .strict with
    ⟨document, hdocument, -⟩ | ⟨err, err', herr, herr', -, -, hplace⟩
  · rw [hlerr] at hdocument
    exact nomatch hdocument
  · rw [hlerr] at herr
    rw [hmerr] at herr'
    obtain rfl := Except.error.inj herr
    obtain rfl := Except.error.inj herr'
    rcases hplace with ⟨innermost, count, hopen⟩ | hplace
    · exact nomatch hopen
    · exact hplace

end Flowscript
