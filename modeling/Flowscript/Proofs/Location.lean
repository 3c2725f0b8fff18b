import Flowscript.Proofs.Lines
import Flowscript.Proofs.Refusal

/-!
# Where errors are reported

A source can be compiled, and it can be cut into numbered lists of tokens. This module says that
compiling is running the second through a fresh draft, and that the place of an error is the place
of the line whose tokens were refused.

## Blocks left open

They are reported behind the last byte. A diagnostic shows the line that this byte belongs to, which
behind a final line feed is one more than there are lines: the line of the error and the line that
is shown for it differ by one exactly then.

## Main results

* `line_of_mem_statementLines` — the lines with tokens are lines of the source, and these are their
  tokens.
* `compile_follows_tokenizeSource` — compiling, told by the numbered lists of tokens.
-/

namespace Flowscript

theorem line_of_mem_statementLines {source : String} {line : SourceLine} {tokens : List Token}
    (h : (line, tokens) ∈ statementLines source) :
    line ∈ sourceLines source ∧ tokenize line.text = tokens ∧ tokens ≠ [] := by
  rw [statementLines, List.mem_filter, List.mem_map] at h
  obtain ⟨⟨line', hmem, heq⟩, hne⟩ := h
  obtain ⟨rfl, rfl⟩ := Prod.mk.inj heq
  exact ⟨hmem, rfl, of_decide_eq_true hne⟩

/-- A place in the numbered lists of tokens is a place in the lines. -/
theorem exists_of_tokenizeSource_eq {source : String} {earlier later : List (Nat × List Token)}
    {n : Nat} {tokens : List Token} (h : tokenizeSource source = earlier ++ (n, tokens) :: later) :
    ∃ lines line rest, statementLines source = lines ++ (line, tokens) :: rest ∧
      lines.map Prod.snd = earlier.map Prod.snd ∧ line.number = n := by
  obtain ⟨lines, tail, hlines, hearlier, htail⟩ := List.map_eq_append_iff.mp h
  obtain ⟨⟨line, tokens'⟩, rest, rfl, hline, -⟩ := List.map_eq_cons_iff.mp htail
  obtain ⟨rfl, rfl⟩ := Prod.mk.inj hline
  refine ⟨lines, line, rest, hlines, ?_, rfl⟩
  rw [← hearlier, List.map_map]
  rfl

/-- A source that opens a block has a line. -/
theorem one_le_length_sourceLines {source : String} {o : Options} {d : Draft}
    (hrun : (Draft.new o).run (statements source) = .ok d) (hopen : d.blocks ≠ []) :
    1 ≤ (sourceLines source).length := by
  by_contra hnone
  have hnil : sourceLines source = [] := List.length_eq_zero_iff.mp (by omega)
  rw [statements_eq_map, statementLines, hnil] at hrun
  obtain rfl := Except.ok.inj hrun
  exact hopen rfl

/-- The line that the end of a source lies on is its last line, or the one behind a final line
feed. -/
theorem one_add_count_lf {source : String} (h : 1 ≤ (sourceLines source).length) :
    1 + source.toList.count '\n' =
      if source.toList.getLast? = some '\n' then (sourceLines source).length + 1
      else (sourceLines source).length := by
  rw [sourceLines, length_numberLines] at h ⊢
  have hne : source.toList ≠ [] := by
    intro hnil
    rw [hnil, rawLines_nil] at h
    simp at h
  rw [length_rawLines]
  by_cases hlast : source.toList.getLast? = some '\n'
  · rw [if_pos hlast, if_pos (.inr hlast)]
    omega
  · rw [if_neg hlast, if_neg (not_or.mpr ⟨hne, hlast⟩)]
    omega

/-- **Compiling follows the tokens.** Run the numbered lists of tokens of a source through a fresh
draft. If all are accepted and the document is complete, it is what compiling gives. The first that
is refused gives the error, with its number, and with the span of the line that has this number and
these tokens; a diagnostic shows that line. If only finishing fails, blocks are left open, the error
is reported behind the last byte and on the last line. No error is about a missing statement. -/
theorem compile_follows_tokenizeSource (source : String) (file : Nat) (o : Options) :
    (∀ d document, (Draft.new o).run ((tokenizeSource source).map Prod.snd) = .ok d →
        d.finish = .ok document → compile source file o = .ok document) ∧
      (∀ earlier n tokens later d e d',
        tokenizeSource source = earlier ++ (n, tokens) :: later →
        (Draft.new o).run (earlier.map Prod.snd) = .ok d →
        (process tokens).apply d = (.error e, d') →
        ∃ line : SourceLine, line.StandsIn source ∧ line.number = n ∧ tokenize line.text = tokens ∧
          compile source file o = .error ⟨e, n, line.span, file⟩ ∧
          (ShownLine.find source line.span.start).number = n) ∧
      (∀ d e, (Draft.new o).run ((tokenizeSource source).map Prod.snd) = .ok d →
        d.finish = .error e →
        ∃ innermost line, e = .unclosedBlocks innermost d.depth ∧
          compile source file o =
            .error ⟨e, line, ⟨source.utf8ByteSize, source.utf8ByteSize⟩, file⟩ ∧
          line = (sourceLines source).length ∧ 1 ≤ line ∧
          1 + source.toList.count '\n' =
            if source.toList.getLast? = some '\n' then line + 1 else line) ∧
      ∀ err, compile source file o = .error err → err.error ≠ .emptyStatement := by
  refine ⟨?_, ?_, ?_, ?_⟩
  · intro d document hrun hfinish
    exact compile_eq_ok_iff_run.mpr ⟨d, hrun, hfinish⟩
  · intro earlier n tokens later d e d' htokens hrun hrefused
    obtain ⟨lines, line, rest, hlines, hearlier, rfl⟩ := exists_of_tokenizeSource_eq htokens
    obtain rfl := draft_eq_of_apply_process_eq_error hrefused
    have hmem : (line, tokens) ∈ statementLines source := by
      rw [hlines]
      exact List.mem_append_right lines List.mem_cons_self
    obtain ⟨hline, htext, -⟩ := line_of_mem_statementLines hmem
    have hstands := SourceLine.standsIn_of_mem hline
    rw [← hearlier] at hrun
    exact ⟨line, hstands, rfl, htext, compile_of_refused hlines hrun hrefused, hstands.number_find⟩
  · intro d e hrun hfinish
    obtain ⟨b, bs, hblocks, rfl⟩ := Draft.finish_eq_error_iff.mp hfinish
    have hopen : d.blocks ≠ [] := by
      rw [hblocks]
      exact List.cons_ne_nil b bs
    have hlines := one_le_length_sourceLines hrun hopen
    refine ⟨b.name, (sourceLines source).length, rfl, ?_, rfl, hlines, one_add_count_lf hlines⟩
    rw [compile_of_unfinished hrun hfinish, endOfSource, byteLength_toList]
  · intro err herr
    rcases exists_of_compile_eq_error herr with
      ⟨earlier, line, tokens, later, d, e, hlines, -, hrefused, rfl⟩ | ⟨d, e, -, hfinish, rfl⟩
    · have hmem : (line, tokens) ∈ statementLines source := by
        rw [hlines]
        exact List.mem_append_right earlier List.mem_cons_self
      exact ne_emptyStatement_of_process (line_of_mem_statementLines hmem).2.2 hrefused
    · obtain ⟨b, bs, -, rfl⟩ := Draft.finish_eq_error_iff.mp hfinish
      exact StatementError.noConfusion

/-- Characters of several bytes, both kinds of line end, a blank line, and a last line without an
end: a document, a refused statement on the fourth line, and a block left open behind a final line
feed. -/
theorem compile_follows_tokenizeSource_multibyte :
    (∃ document, compile "# é\r\nfn f () _ void\r\nend" 0 .strict = .ok document) ∧
      (∃ line : SourceLine,
        line.StandsIn "# é\r\nfn f () _ void\n\n\tset 日\r\nend" ∧ line.number = 4 ∧
        tokenize line.text = ["set", "日"] ∧
        compile "# é\r\nfn f () _ void\n\n\tset 日\r\nend" 7 .strict =
          .error ⟨.argumentCount "set" (.atLeast 2) 1, 4, line.span, 7⟩ ∧
        (ShownLine.find "# é\r\nfn f () _ void\n\n\tset 日\r\nend" line.span.start).number = 4) ∧
      ∃ innermost line,
        compile "fn f () _ void\nif é\n" 0 .strict =
          .error ⟨.unclosedBlocks innermost 2, line, ⟨21, 21⟩, 0⟩ ∧
        1 ≤ line ∧ 3 = line + 1 := by
  refine ⟨?_, ?_, ?_⟩
  · have hdocument := (compile_follows_tokenizeSource "# é\r\nfn f () _ void\r\nend" 0 .strict).1
    exact ⟨_, hdocument _ _ rfl rfl⟩
  · have hrefused := (compile_follows_tokenizeSource
      "# é\r\nfn f () _ void\n\n\tset 日\r\nend" 7 .strict).2.1
    exact hrefused [(1, ["#", "é"]), (2, ["fn", "f", "()", "_", "void"])] 4 ["set", "日"]
      [(5, ["end"])] _ _ _ rfl rfl rfl
  · have hopen := (compile_follows_tokenizeSource "fn f () _ void\nif é\n" 0 .strict).2.2.1
    obtain ⟨innermost, line, he, hcompile, -, hline, hcount⟩ := hopen _ _ rfl rfl
    refine ⟨innermost, line, ?_, hline, hcount⟩
    rw [hcompile, he]
    rfl

end Flowscript
