import Flowscript.Compile
import Flowscript.Diagnostic.Layout

/-!
# Lines and their places

A source is cut at its line feeds three times over: into the lines that are compiled, which carry
numbers and spans; into the lines that a diagnostic shows; and by whoever counts the line feeds
before a byte. This module shows that the three agree.

## Induction on lines

The cut is defined character by character. `lines_induction` goes line by line instead: a text is
empty, or a last line without a line feed, or a line and more text. Every fact below is proved along
it, with one equation for each of the cases (`rawLines_of_notMem`, `rawLines_append_lf`).

## Places

A span is a pair of byte counts, and says nothing by itself. `SourceLine.StandsIn` says what it has
to say: the source is some text, then the text of the line, then some more, and the counts are the
lengths of these. Both ends of the span lie between characters therefore.

## Main definitions

* `lineAt?` — the text of a line, found by its number alone.
* `SourceLine.StandsIn` — a line is where its number and its span say it is.

## Main results

* `length_rawLines` — how many lines there are.
* `SourceLine.standsIn_of_mem` — the lines of a source are where they say they are.
* `ShownLine.number_find` — the number shown for a place counts the line feeds before it.
-/

namespace Flowscript

/-! ### Cutting at line feeds -/

/-- Induction on the lines of a text: nothing, a last line without a line feed, or a line in front
of more text. -/
@[elab_as_elim]
theorem lines_induction {motive : List Char → Prop} (nil : motive [])
    (last : ∀ cs, cs ≠ [] → '\n' ∉ cs → motive cs)
    (line : ∀ body rest, '\n' ∉ body → motive rest → motive (body ++ '\n' :: rest))
    (cs : List Char) : motive cs := by
  induction hlen : cs.length using Nat.strongRecOn generalizing cs with
  | ind n ih =>
    by_cases hlf : '\n' ∈ cs
    · obtain ⟨body, rest, rfl, hbody⟩ := List.eq_append_cons_of_mem hlf
      have hshorter : rest.length < n := by
        rw [← hlen, List.length_append, List.length_cons]
        omega
      exact line body rest hbody (ih rest.length hshorter rest rfl)
    · by_cases hne : cs = []
      · rw [hne]
        exact nil
      · exact last cs hne hlf

theorem rawLines_ne_nil {cs : List Char} (h : cs ≠ []) : rawLines cs ≠ [] := by
  intro hnil
  apply h
  rw [← flatten_rawLines cs, hnil, List.flatten_nil]

theorem rawLines_of_notMem {cs : List Char} (hne : cs ≠ []) (h : '\n' ∉ cs) :
    rawLines cs = [cs] := by
  induction cs with
  | nil => exact absurd rfl hne
  | cons c cs ih =>
    rw [List.mem_cons, not_or] at h
    obtain ⟨hc, hcs⟩ := h
    by_cases hnil : cs = []
    · rw [hnil]
      rfl
    · rw [rawLines_cons, ih hnil hcs, consLine, if_neg (Ne.symm hc)]

theorem rawLines_append_lf {body : List Char} (h : '\n' ∉ body) (rest : List Char) :
    rawLines (body ++ '\n' :: rest) = (body ++ ['\n']) :: rawLines rest := by
  induction body with
  | nil =>
    rw [List.nil_append, rawLines_cons]
    cases rawLines rest with
    | nil => rfl
    | cons first more => rw [consLine, if_pos rfl, List.nil_append]
  | cons c body ih =>
    rw [List.mem_cons, not_or] at h
    obtain ⟨hc, hbody⟩ := h
    rw [List.cons_append, rawLines_cons, ih hbody, consLine, if_neg (Ne.symm hc), List.cons_append]

theorem splitOn_of_notMem {cs : List Char} (h : '\n' ∉ cs) : cs.splitOn '\n' = [cs] :=
  List.splitOnP_eq_singleton fun _ hc => beq_false_of_ne (ne_of_mem_of_not_mem hc h)

theorem splitOn_append_lf {body : List Char} (h : '\n' ∉ body) (rest : List Char) :
    (body ++ '\n' :: rest).splitOn '\n' = body :: rest.splitOn '\n' :=
  List.splitOnP_append_cons_of_forall_mem
    (fun _ hc => beq_false_of_ne (ne_of_mem_of_not_mem hc h)) '\n' (beq_self_eq_true '\n') rest

theorem dropLastIf_of_notMem {c : Char} {cs : List Char} (h : c ∉ cs) : dropLastIf c cs = cs :=
  if_neg fun hlast => h (List.mem_of_getLast? hlast)

@[simp] theorem dropLastIf_append_self (c : Char) (cs : List Char) :
    dropLastIf c (cs ++ [c]) = cs := by
  simp [dropLastIf]

theorem dropLastIf_cases (c : Char) (cs : List Char) :
    (cs.getLast? ≠ some c ∧ dropLastIf c cs = cs) ∨ cs = dropLastIf c cs ++ [c] := by
  by_cases hlast : cs.getLast? = some c
  · obtain ⟨init, rfl⟩ := List.getLast?_eq_some_iff.mp hlast
    exact .inr (by rw [dropLastIf_append_self])
  · exact .inl ⟨hlast, by rw [dropLastIf, if_neg hlast]⟩

/-- How many lines there are: one for each line feed, and one more if something stands behind the
last of them. -/
theorem length_rawLines (cs : List Char) :
    (rawLines cs).length =
      cs.count '\n' + if cs = [] ∨ cs.getLast? = some '\n' then 0 else 1 := by
  induction cs using lines_induction with
  | nil => rfl
  | last cs hne hlf =>
    have hlast : cs.getLast? ≠ some '\n' := fun h => hlf (List.mem_of_getLast? h)
    rw [rawLines_of_notMem hne hlf, List.count_eq_zero.mpr hlf, if_neg (not_or.mpr ⟨hne, hlast⟩)]
    rfl
  | line body rest hbody ih =>
    rw [rawLines_append_lf hbody, List.length_cons, ih, List.count_append, List.count_cons_self,
      List.count_eq_zero.mpr hbody]
    cases rest with
    | nil => simp
    | cons c rest => simp; omega

/-- What stands before a line is lines with a line feed each, so that the line begins behind one. -/
theorem lines_before {cs raw : List Char} {before after : List (List Char)}
    (h : rawLines cs = before ++ raw :: after) :
    before.flatten.count '\n' = before.length ∧
      (before = [] ∨ before.flatten.getLast? = some '\n') := by
  induction cs using lines_induction generalizing before with
  | nil => simp at h
  | last cs hne hlf =>
    rw [rawLines_of_notMem hne hlf] at h
    cases before with
    | nil => exact ⟨rfl, .inl rfl⟩
    | cons first before => simp at h
  | line body rest hbody ih =>
    rw [rawLines_append_lf hbody] at h
    cases before with
    | nil => exact ⟨rfl, .inl rfl⟩
    | cons first before =>
      obtain ⟨rfl, hrest⟩ := List.cons.inj h
      obtain ⟨hcount, hlast⟩ := ih hrest
      refine ⟨?_, .inr ?_⟩
      · rw [List.flatten_cons, List.count_append, hcount, List.count_append,
          List.count_eq_zero.mpr hbody, List.length_cons]
        simp; omega
      · rcases hlast with rfl | hlast
        · simp
        · rw [List.flatten_cons, List.getLast?_append, hlast]
          rfl

/-- The lines of a text are what stands between line feeds; only what stands behind the last line
feed is no line if it is empty. -/
theorem getElem?_splitOn {cs raw : List Char} {before after : List (List Char)}
    (h : rawLines cs = before ++ raw :: after) :
    (cs.splitOn '\n')[before.length]? = some (dropLastIf '\n' raw) := by
  induction cs using lines_induction generalizing before with
  | nil => simp at h
  | last cs hne hlf =>
    rw [rawLines_of_notMem hne hlf] at h
    cases before with
    | nil =>
      obtain ⟨rfl, -⟩ := List.cons.inj h
      rw [splitOn_of_notMem hlf, dropLastIf_of_notMem hlf]
      rfl
    | cons first before => simp at h
  | line body rest hbody ih =>
    rw [rawLines_append_lf hbody] at h
    rw [splitOn_append_lf hbody]
    cases before with
    | nil =>
      obtain ⟨rfl, -⟩ := List.cons.inj h
      rw [dropLastIf_append_self]
      rfl
    | cons first before =>
      obtain ⟨-, hrest⟩ := List.cons.inj h
      rw [List.length_cons, List.getElem?_cons_succ]
      exact ih hrest

/-! ### Numbered lines -/

/-- The lines are numbered in order: line `i`, counted from 0, is raw line `i`, and carries the
number and the length of those before it. -/
theorem exists_of_getElem?_numberLines {number offset i : Nat} {raws : List (List Char)}
    {line : SourceLine} (h : (numberLines number offset raws)[i]? = some line) :
    ∃ before raw after, raws = before ++ raw :: after ∧ before.length = i ∧
      line.number = number + i ∧
      line.span = ⟨offset + byteLength before.flatten,
        offset + byteLength before.flatten + byteLength (lineText raw)⟩ ∧
      line.text = String.ofList (lineText raw) := by
  induction raws generalizing number offset i with
  | nil => simp [numberLines] at h
  | cons raw rest ih =>
    rw [numberLines] at h
    cases i with
    | zero =>
      obtain rfl := Option.some.inj h
      exact ⟨[], raw, rest, rfl, rfl, rfl, rfl, rfl⟩
    | succ i =>
      obtain ⟨before, raw', after, rfl, rfl, hnumber, hspan, htext⟩ := ih h
      refine ⟨raw :: before, raw', after, rfl, rfl, ?_, ?_, htext⟩
      · rw [hnumber]
        omega
      · rw [hspan, List.flatten_cons, byteLength_append, Nat.add_assoc offset]

/-- A numbered line is one of the raw lines, and carries the number and the length of those before
it. -/
theorem exists_of_mem_numberLines {number offset : Nat} {raws : List (List Char)}
    {line : SourceLine} (h : line ∈ numberLines number offset raws) :
    ∃ before raw after, raws = before ++ raw :: after ∧
      line.number = number + before.length ∧
      line.span = ⟨offset + byteLength before.flatten,
        offset + byteLength before.flatten + byteLength (lineText raw)⟩ ∧
      line.text = String.ofList (lineText raw) := by
  obtain ⟨i, hi⟩ := List.getElem?_of_mem h
  obtain ⟨before, raw, after, hraws, rfl, hline⟩ := exists_of_getElem?_numberLines hi
  exact ⟨before, raw, after, hraws, hline⟩

@[simp] theorem length_numberLines (number offset : Nat) (raws : List (List Char)) :
    (numberLines number offset raws).length = raws.length := by
  induction raws generalizing number offset with
  | nil => rfl
  | cons raw rest ih => rw [numberLines, List.length_cons, ih, List.length_cons]

/-- A line's text is the beginning of the raw line. -/
theorem exists_terminator (raw : List Char) : ∃ terminator, raw = lineText raw ++ terminator := by
  have hdrop (c : Char) (cs : List Char) : ∃ rest, cs = dropLastIf c cs ++ rest := by
    rcases dropLastIf_cases c cs with ⟨-, hkept⟩ | hdropped
    · exact ⟨[], by rw [hkept, List.append_nil]⟩
    · exact ⟨[c], hdropped⟩
  obtain ⟨lf, hlf⟩ := hdrop '\n' raw
  obtain ⟨cr, hcr⟩ := hdrop '\r' (dropLastIf '\n' raw)
  refine ⟨cr ++ lf, ?_⟩
  rw [← List.append_assoc, lineText, ← hcr, ← hlf]

/-- The text of line `n` of a source, counted from 1: what stands between two line feeds, without a
carriage return at its end. -/
def lineAt? (source : String) (n : Nat) : Option String :=
  (source.toList.splitOn '\n')[n - 1]?.map fun cs => String.ofList (dropLastIf '\r' cs)

/-- A line is where its number and its span say it is. -/
structure SourceLine.StandsIn (line : SourceLine) (source : String) : Prop where
  /-- The span lies between characters and holds the text of the line. It starts where the source
  starts or just behind a line feed, and the line feeds before it count the lines before it. -/
  exists_before : ∃ before after, source = before ++ line.text ++ after ∧
    line.span = ⟨before.utf8ByteSize, before.utf8ByteSize + line.text.utf8ByteSize⟩ ∧
    (before = "" ∨ before.toList.getLast? = some '\n') ∧
    1 + before.toList.count '\n' = line.number
  /-- The line with this number has this text. -/
  lineAt?_number : lineAt? source line.number = some line.text

/-- The lines of a source are where they say they are. -/
theorem SourceLine.standsIn_of_mem {source : String} {line : SourceLine}
    (h : line ∈ sourceLines source) : line.StandsIn source := by
  obtain ⟨before, raw, after, hraws, hnumber, hspan, htext⟩ := exists_of_mem_numberLines h
  obtain ⟨terminator, hraw⟩ := exists_terminator raw
  obtain ⟨hcount, hlast⟩ := lines_before hraws
  have hsource : source.toList =
      before.flatten ++ lineText raw ++ (terminator ++ after.flatten) := by
    calc
      source.toList = (rawLines source.toList).flatten := (flatten_rawLines source.toList).symm
      _ = before.flatten ++ (raw ++ after.flatten) := by
        rw [hraws, List.flatten_append, List.flatten_cons]
      _ = before.flatten ++ (lineText raw ++ terminator ++ after.flatten) := by rw [← hraw]
      _ = before.flatten ++ lineText raw ++ (terminator ++ after.flatten) := by
        simp only [List.append_assoc]
  refine ⟨⟨String.ofList before.flatten, String.ofList (terminator ++ after.flatten),
    ?_, ?_, ?_, ?_⟩, ?_⟩
  · rw [← String.toList_inj, hsource, htext]
    simp
  · rw [hspan, htext, Nat.zero_add, byteLength_eq_utf8ByteSize, byteLength_eq_utf8ByteSize]
  · rcases hlast with rfl | hlast
    · exact .inl rfl
    · exact .inr (by rw [String.toList_ofList, hlast])
  · rw [String.toList_ofList, hcount, hnumber]
  · rw [lineAt?, hnumber, Nat.add_sub_cancel_left, getElem?_splitOn hraws, htext]
    rfl

/-! ### The line that is shown -/

namespace ShownLine

theorem search_linesOf_append_lf {body : List Char} (h : '\n' ∉ body) (rest : List Char)
    (byte number start : Nat) :
    search byte number start (linesOf (body ++ '\n' :: rest)) =
      if byte < start + byteLength (body ++ ['\n']) then ⟨number, start, body ++ ['\n']⟩
      else search byte (number + 1) (start + byteLength (body ++ ['\n'])) (linesOf rest) := by
  rw [linesOf, rawLines_append_lf h]
  by_cases hrest : rest = []
  · subst hrest
    simp [linesOf, search]
  · obtain ⟨next, more, hnext⟩ := List.exists_cons_of_ne_nil (rawLines_ne_nil hrest)
    have hlast : (body ++ '\n' :: rest).getLast? = rest.getLast? := by
      obtain ⟨c, rest, rfl⟩ := List.exists_cons_of_ne_nil hrest
      simp [List.getLast?_append, List.getLast?_cons]
    rw [hlast, linesOf, hnext, List.cons_append, List.cons_append, search]

theorem number_search (before after : List Char) (number start : Nat) :
    (search (start + byteLength before) number start (linesOf (before ++ after))).number =
      number + before.count '\n' := by
  generalize hcs : before ++ after = cs
  induction cs using lines_induction generalizing before number start with
  | nil =>
    rw [(List.append_eq_nil_iff.mp hcs).1]
    rfl
  | last cs hne hlf =>
    have hbefore : '\n' ∉ before := fun h => hlf (hcs ▸ List.mem_append_left after h)
    have hlast : cs.getLast? ≠ some '\n' := fun h => hlf (List.mem_of_getLast? h)
    rw [linesOf, rawLines_of_notMem hne hlf, if_neg hlast, List.count_eq_zero.mpr hbefore]
    rfl
  | line body rest hbody ih =>
    have hlf : byteLength ['\n'] = 1 := rfl
    have hplace : (∃ tail, body = before ++ tail) ∨
        ∃ tail, before = body ++ '\n' :: tail ∧ tail ++ after = rest := by
      rcases List.append_eq_append_iff.mp hcs with ⟨tail, hbody, -⟩ | ⟨tail, hbefore, htail⟩
      · exact .inl ⟨tail, hbody⟩
      · cases tail with
        | nil => exact .inl ⟨[], by rw [hbefore, List.append_nil, List.append_nil]⟩
        | cons c tail =>
          obtain ⟨rfl, hrest⟩ := List.cons.inj htail
          exact .inr ⟨tail, hbefore, hrest.symm⟩
    rw [search_linesOf_append_lf hbody, byteLength_append, hlf]
    rcases hplace with ⟨tail, rfl⟩ | ⟨tail, rfl, hrest⟩
    · have hbefore : '\n' ∉ before := fun h => hbody (List.mem_append_left tail h)
      have hbyte : start + byteLength before < start + (byteLength (before ++ tail) + 1) := by
        rw [byteLength_append]
        omega
      rw [if_pos hbyte, List.count_eq_zero.mpr hbefore, Nat.add_zero]
    · have hbyte : start + byteLength (body ++ '\n' :: tail) =
          start + (byteLength body + 1) + byteLength tail := by
        rw [byteLength_append, ← List.singleton_append, byteLength_append, hlf]
        omega
      have hcount : (body ++ '\n' :: tail).count '\n' = 1 + tail.count '\n' := by
        rw [List.count_append, List.count_cons_self, List.count_eq_zero.mpr hbody]
        omega
      rw [hbyte, if_neg (by omega), ih tail (number + 1) (start + (byteLength body + 1)) hrest,
        hcount]
      omega

/-- The number shown for a place counts the line feeds before it. -/
theorem number_find (before after : String) :
    (find (before ++ after) before.utf8ByteSize).number = 1 + before.toList.count '\n' := by
  have hsearch := number_search before.toList after.toList 1 0
  rwa [Nat.zero_add, byteLength_toList, ← String.toList_append] at hsearch

end ShownLine

/-- A diagnostic shows the line that an error is reported for. -/
theorem SourceLine.StandsIn.number_find {line : SourceLine} {source : String}
    (h : line.StandsIn source) :
    (ShownLine.find source line.span.start).number = line.number := by
  obtain ⟨before, after, hsource, hspan, -, hcount⟩ := h.exists_before
  rw [hspan, ← hcount, hsource, String.append_assoc]
  exact ShownLine.number_find before (line.text ++ after)

end Flowscript
