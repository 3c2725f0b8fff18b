import Flowscript.Command.Build
import Flowscript.Proofs.Lines
import Flowscript.Proofs.Slices

/-!
# Cutting into lines loses nothing

A source is cut at its line feeds, and each line leaves out its terminator. This module says what is
left out, and that nothing else is: the texts of the lines and their terminators, put together in
turn, are the source, and the spans of the lines are where the texts stand.

## Terminators

Behind a line that another one follows stands `\n` or `\r\n`. Behind the last line there may also be
a lone carriage return, which no line feed follows, or nothing. Of several carriage returns at the
end of a line one belongs to the terminator and the others to the text. `Terminates` says all this
of a text and of what follows it, so that the two determine each other.

## How many lines there are

There is a line for each line feed, and one more if something stands behind the last of them. The
count that a build reports cuts the source in the same way. It keeps a carriage return at the very
end, but no line stands or falls with that.

## Main definitions

* `lineTerminator` — what a raw line has behind its text.
* `Terminates` — what may stand behind the text of a line.
* `BuildResult.said` — what a build says to the user.

## Main results

* `terminates_of_rawLines` — what stands behind the text of a line.
* `sourceLines_lossless` — the lines of a source are slices of it, and only terminators are between.
-/

namespace Flowscript

/-! ### Terminators -/

/-- What a raw line has behind its text. -/
def lineTerminator (raw : List Char) : List Char := raw.drop (lineText raw).length

theorem lineTerminator_eq {raw text terminator : List Char} (htext : lineText raw = text)
    (h : raw = text ++ terminator) : lineTerminator raw = terminator := by
  rw [lineTerminator, htext, h, List.drop_left]

@[simp] theorem lineText_append_lineTerminator (raw : List Char) :
    lineText raw ++ lineTerminator raw = raw := by
  obtain ⟨terminator, hraw⟩ := exists_terminator raw
  rw [lineTerminator_eq rfl hraw]
  exact hraw.symm

/-- What may stand behind the text of a line. -/
structure Terminates (last : Bool) (text terminator : String) : Prop where
  /-- A line end, or, behind the last line, a carriage return alone or nothing. -/
  mem : terminator ∈ if last then ["", "\r", "\n", "\r\n"] else ["\n", "\r\n"]
  /-- Of several carriage returns one was left out: a text that ends in one had one behind it. -/
  head?_eq : text.toList.getLast? = some '\r' → terminator.toList.head? = some '\r'

/-- A raw line is a text without line feeds and a line feed, which only the last line may lack. -/
theorem exists_body_of_rawLines {cs raw : List Char} {before after : List (List Char)}
    (h : rawLines cs = before ++ raw :: after) :
    ∃ body lf, raw = body ++ lf ∧ '\n' ∉ body ∧ (lf = ['\n'] ∨ lf = [] ∧ after = []) := by
  induction cs using lines_induction generalizing before with
  | nil => simp at h
  | last cs hne hlf =>
    rw [rawLines_of_notMem hne hlf] at h
    cases before with
    | nil =>
      obtain ⟨rfl, rfl⟩ := List.cons.inj h
      exact ⟨cs, [], (List.append_nil cs).symm, hlf, .inr ⟨rfl, rfl⟩⟩
    | cons first before => simp at h
  | line body rest hbody ih =>
    rw [rawLines_append_lf hbody] at h
    cases before with
    | nil =>
      obtain ⟨rfl, -⟩ := List.cons.inj h
      exact ⟨body, ['\n'], rfl, hbody, .inl rfl⟩
    | cons first before => exact ih (List.cons.inj h).2

/-- **What stands behind the text of a line.** -/
theorem terminates_of_rawLines {cs raw : List Char} {before after : List (List Char)}
    (h : rawLines cs = before ++ raw :: after) :
    '\n' ∉ lineText raw ∧
      Terminates after.isEmpty (String.ofList (lineText raw))
        (String.ofList (lineTerminator raw)) := by
  obtain ⟨body, lf, rfl, hbody, hend⟩ := exists_body_of_rawLines h
  have htext : lineText (body ++ lf) = dropLastIf '\r' body := by
    rcases hend with rfl | ⟨rfl, -⟩
    · rw [lineText, dropLastIf_append_self]
    · rw [List.append_nil, lineText, dropLastIf_of_notMem hbody]
  rcases dropLastIf_cases '\r' body with ⟨hlast, hdrop⟩ | hdrop
  · rw [hdrop] at htext
    rw [lineTerminator_eq htext rfl, htext]
    refine ⟨hbody, ?_, fun hcr => absurd (by simpa using hcr) hlast⟩
    rcases hend with rfl | ⟨rfl, rfl⟩
    · cases after <;> simp
    · simp
  · have hraw : body ++ lf = dropLastIf '\r' body ++ '\r' :: lf := by
      conv_lhs => rw [hdrop]
      rw [List.append_assoc, List.singleton_append]
    rw [lineTerminator_eq htext hraw, htext]
    refine ⟨fun hmem => hbody (hdrop ▸ List.mem_append_left _ hmem), ?_, fun _ => by simp⟩
    rcases hend with rfl | ⟨rfl, rfl⟩
    · cases after <;> simp
    · simp

/-! ### Lines with their terminators -/

/-- The lines of a source, each with what stands behind its text. -/
def terminatedLines (source : String) : List (SourceLine × String) :=
  (sourceLines source).zip ((rawLines source.toList).map (String.ofList ∘ lineTerminator))

@[simp] theorem map_fst_terminatedLines (source : String) :
    (terminatedLines source).map Prod.fst = sourceLines source :=
  List.map_fst_zip (by simp [sourceLines])

/-- Texts and terminators, put together in turn, are the raw lines. -/
theorem join_numberLines (number offset : Nat) (raws : List (List Char)) :
    String.join (((numberLines number offset raws).zip
        (raws.map (String.ofList ∘ lineTerminator))).map fun (line, terminator) =>
          line.text ++ terminator) = String.ofList raws.flatten := by
  induction raws generalizing number offset with
  | nil => rfl
  | cons raw rest ih =>
    have hraw : String.ofList (lineText raw) ++ String.ofList (lineTerminator raw) =
        String.ofList raw := by
      rw [← String.ofList_append, lineText_append_lineTerminator]
    rw [numberLines, List.map_cons, List.zip_cons_cons, List.map_cons, String.join_cons, ih,
      List.flatten_cons, String.ofList_append, ← hraw]
    rfl

/-- Nothing is lost. -/
theorem join_terminatedLines (source : String) :
    String.join ((terminatedLines source).map fun (line, terminator) => line.text ++ terminator) =
      source := by
  rw [terminatedLines, sourceLines, join_numberLines, flatten_rawLines, String.ofList_toList]

/-- Where the line behind line `i`, counted from 0, starts; behind the last line, where the source
ends. -/
def startBehind (source : String) (i : Nat) : Nat :=
  ((sourceLines source)[i + 1]?.map fun next => next.span.start).getD source.utf8ByteSize

/-- The line behind a line starts behind its terminator. -/
theorem startBehind_eq {source : String} {before after : List (List Char)} {raw : List Char}
    (h : rawLines source.toList = before ++ raw :: after) :
    startBehind source before.length = byteLength (before.flatten ++ raw) := by
  rw [startBehind]
  cases hnext : (sourceLines source)[before.length + 1]? with
  | some next =>
    obtain ⟨before', raw', after', hraws, hlength, -, hspan, -⟩ :=
      exists_of_getElem?_numberLines hnext
    obtain ⟨rfl, -⟩ : before' = before ++ [raw] ∧ raw' :: after' = after :=
      List.append_inj (by rw [← hraws, h, List.append_assoc]; rfl) (by simp [hlength])
    simp [hspan]
  | none =>
    have hlast : after = [] := by
      rw [List.getElem?_eq_none_iff, sourceLines, length_numberLines, h] at hnext
      simpa using hnext
    rw [← byteLength_toList, ← flatten_rawLines source.toList, h, hlast]
    simp

/-- **A line with its place.** -/
theorem exists_parts_of_terminatedLines {source : String} {i : Nat} {line : SourceLine}
    {terminator : String} (h : (terminatedLines source)[i]? = some (line, terminator)) :
    ∃ before raw after, rawLines source.toList = before ++ raw :: after ∧ before.length = i ∧
      line = ⟨i + 1, ⟨byteLength before.flatten, byteLength before.flatten +
        byteLength (lineText raw)⟩, String.ofList (lineText raw)⟩ ∧
      terminator = String.ofList (lineTerminator raw) := by
  rw [terminatedLines, List.getElem?_zip_eq_some] at h
  obtain ⟨hline, hterminator⟩ := h
  obtain ⟨before, raw, after, hraws, rfl, hnumber, hspan, htext⟩ :=
    exists_of_getElem?_numberLines hline
  refine ⟨before, raw, after, hraws, rfl, ?_, ?_⟩
  · obtain ⟨number, span, text⟩ := line
    simp only at hnumber hspan htext
    rw [hnumber, hspan, htext, Nat.zero_add, Nat.add_comm 1]
  · rw [hraws] at hterminator
    simpa using hterminator.symm

/-- The source around a line. -/
theorem eq_append_of_rawLines {source : String} {before after : List (List Char)}
    {raw : List Char} (h : rawLines source.toList = before ++ raw :: after) :
    source = String.ofList before.flatten ++ String.ofList (lineText raw) ++
      String.ofList (lineTerminator raw) ++ String.ofList after.flatten := by
  rw [← String.toList_inj, ← flatten_rawLines source.toList, h]
  simp only [String.toList_append, String.toList_ofList, List.flatten_append, List.flatten_cons]
  rw [List.append_assoc before.flatten, lineText_append_lineTerminator, List.append_assoc]

/-- The spans of a line and of its terminator hold both. -/
theorem sliceAt?_of_rawLines {source : String} {before after : List (List Char)}
    {raw : List Char} (h : rawLines source.toList = before ++ raw :: after) :
    sliceAt? source ⟨byteLength before.flatten, byteLength before.flatten +
        byteLength (lineText raw)⟩ = some (String.ofList (lineText raw)) ∧
      sliceAt? source ⟨byteLength before.flatten + byteLength (lineText raw),
        byteLength (before.flatten ++ raw)⟩ = some (String.ofList (lineTerminator raw)) := by
  have htext := sliceAt?_append (String.ofList before.flatten) (String.ofList (lineText raw))
    (String.ofList (lineTerminator raw) ++ String.ofList after.flatten)
  have hterminator := sliceAt?_append
    (String.ofList before.flatten ++ String.ofList (lineText raw))
    (String.ofList (lineTerminator raw)) (String.ofList after.flatten)
  have hraw : byteLength raw = byteLength (lineText raw) + byteLength (lineTerminator raw) := by
    rw [← byteLength_append, lineText_append_lineTerminator]
  rw [← String.append_assoc, ← eq_append_of_rawLines h] at htext
  rw [← eq_append_of_rawLines h, String.utf8ByteSize_append] at hterminator
  simp only [← byteLength_eq_utf8ByteSize] at htext hterminator
  rw [byteLength_append, hraw, ← Nat.add_assoc]
  exact ⟨htext, hterminator⟩

/-! ### The count that is reported -/

/-- What a build says to the user. -/
def BuildResult.said : BuildResult → String
  | .done outcome => outcome.stderr
  | .save _ _ said => said

/-- A verbose build of a source that compiles reports how many lines it has. -/
theorem Build.exists_said_finish {source document : String} {options : Options}
    (h : compile source 0 options = .ok document) (color : Bool) (a : BuildArguments)
    (said : String) :
    ∃ more, (Build.finish color true a source said options).said =
      said ++ ("options: " ++ options.traced ++ "\n") ++
        ("translated " ++ toString (sourceLines source).length ++ " line(s) into " ++
          toString document.utf8ByteSize ++ " byte(s)\n") ++ more := by
  have hcount : (textLines source).length = (sourceLines source).length := by
    simp [textLines, sourceLines]
  rw [Build.finish, h, hcount]
  cases a.check with
  | true =>
    refine ⟨"ok: " ++ a.file ++ " translated successfully\n", ?_⟩
    rw [← String.toList_inj]
    simp [BuildResult.said, Build.trace]
  | false =>
    refine ⟨"", ?_⟩
    cases a.output <;> simp [BuildResult.said, Build.trace, String.append_assoc]

/-! ### Nothing is lost -/

/-- **Cutting into lines loses nothing.** The texts of the lines and their terminators, put
together in turn, are the source. Lines are numbered from 1, and the first starts where the source
does. Each span lies between characters and holds the text of its line, which has no line feed in
it; up to the next line, or to the end of the source, stands a terminator and nothing else. There
are as many lines as line feeds, and one more if something stands behind the last of them; a
verbose build reports this number. -/
theorem sourceLines_lossless (source : String) :
    (terminatedLines source).map Prod.fst = sourceLines source ∧
      String.join ((terminatedLines source).map fun (line, terminator) =>
        line.text ++ terminator) = source ∧
      (∀ i line terminator, (terminatedLines source)[i]? = some (line, terminator) →
        line.number = i + 1 ∧ (i = 0 → line.span.start = 0) ∧
          sliceAt? source line.span = some line.text ∧ '\n' ∉ line.text.toList ∧
          sliceAt? source ⟨line.span.stop, startBehind source i⟩ = some terminator ∧
          Terminates (i + 1 = (sourceLines source).length) line.text terminator) ∧
      (sourceLines source).length = source.toList.count '\n' +
        (if source = "" ∨ source.toList.getLast? = some '\n' then 0 else 1) ∧
      ∀ options document, compile source 0 options = .ok document →
        ∀ color a said, ∃ more, (Build.finish color true a source said options).said =
          said ++ ("options: " ++ options.traced ++ "\n") ++
            ("translated " ++ toString (sourceLines source).length ++ " line(s) into " ++
              toString document.utf8ByteSize ++ " byte(s)\n") ++ more := by
  refine ⟨map_fst_terminatedLines source, join_terminatedLines source, ?_, ?_,
    fun options document h => Build.exists_said_finish h⟩
  · intro i line terminator h
    obtain ⟨before, raw, after, hraws, rfl, rfl, rfl⟩ := exists_parts_of_terminatedLines h
    obtain ⟨htext, hterminator⟩ := sliceAt?_of_rawLines hraws
    obtain ⟨hlf, hends⟩ := terminates_of_rawLines hraws
    have hlast : after.isEmpty = decide (before.length + 1 = (sourceLines source).length) := by
      rw [sourceLines, length_numberLines, hraws]
      cases after <;> simp
    refine ⟨rfl, fun hfirst => ?_, htext, by simpa using hlf, ?_, hlast ▸ hends⟩
    · rw [List.length_eq_zero_iff.mp hfirst]
      rfl
    · rw [startBehind_eq hraws]
      exact hterminator
  · rw [sourceLines, length_numberLines, length_rawLines]
    simp only [String.toList_eq_nil_iff]

/-- Two carriage returns before a line feed behind a character of two bytes, an empty line, and a
last line with a carriage return alone. -/
theorem sourceLines_lossless_carriageReturns :
    let source := "é\r\r\n\nx\r"
    (terminatedLines source)[0]? = some (⟨1, ⟨0, 3⟩, "é\r"⟩, "\r\n") ∧
      (terminatedLines source)[2]? = some (⟨3, ⟨6, 7⟩, "x"⟩, "\r") ∧
      sliceAt? source ⟨0, 3⟩ = some "é\r" ∧ sliceAt? source ⟨3, 5⟩ = some "\r\n" ∧
      sliceAt? source ⟨6, 7⟩ = some "x" ∧ sliceAt? source ⟨7, 8⟩ = some "\r" ∧
      Terminates false "é\r" "\r\n" ∧ Terminates true "x" "\r" := by
  intro source
  have hfirst : (terminatedLines source)[0]? = some (⟨1, ⟨0, 3⟩, "é\r"⟩, "\r\n") := by
    decide +kernel
  have hlast : (terminatedLines source)[2]? = some (⟨3, ⟨6, 7⟩, "x"⟩, "\r") := by decide +kernel
  have hstart : startBehind source 0 = 5 := by decide +kernel
  have hstart' : startBehind source 2 = 8 := by decide +kernel
  have hlength : (sourceLines source).length = 3 := by decide +kernel
  obtain ⟨-, -, hlines, -, -⟩ := sourceLines_lossless source
  obtain ⟨-, -, htext, -, hbehind, hends⟩ := hlines 0 _ _ hfirst
  obtain ⟨-, -, htext', -, hbehind', hends'⟩ := hlines 2 _ _ hlast
  rw [hstart] at hbehind
  rw [hstart'] at hbehind'
  rw [hlength] at hends hends'
  exact ⟨hfirst, hlast, htext, hbehind, htext', hbehind', hends, hends'⟩

end Flowscript
