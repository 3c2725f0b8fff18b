import Flowscript.Proofs.Expectation
import Flowscript.Proofs.Layout

/-!
# Test files can be taken apart

A test file is put together from settings and a source, with a mark in front of each. This module
shows that taking it apart gives back both, unchanged.

## The seams

The second mark is found by its line feed and its dashes, as the first place where they stand. So
the settings may not hold a line feed with three dashes behind it. Nothing else needs to be kept out
of them: a line feed cannot stand inside a mark, so no place begins in the settings and ends behind
them, however many line feeds or dashes they end with.

A carriage return in front of the second mark may belong to its line end or to the settings, and is
never given back. The source, behind the marks, is not looked at: it may begin with a line feed and
hold any number of marks.

## Main definitions

* `testFile` — a test file, put together.

## Main results

* `cutAtFirst?_append` — cutting at a mark undoes putting together around it.
* `cut_testFile` — the two parts of a test file.
* `testFile_taken_apart` — the test that a test file holds.
-/

namespace Flowscript

/-! ### Beginnings -/

theorem behind?_append (beginning : String) (rest : List Char) :
    behind? beginning (beginning.toList ++ rest) = some rest := by
  simp [behind?]

/-- A line end of either kind is skipped, and nothing behind it. -/
theorem skipNewline_append (ending : LineEnd) (rest : List Char) :
    TestCase.skipNewline (ending.text.toList ++ rest) = rest := by
  cases ending <;> rfl

/-- Characters that are left out in front of a text. -/
theorem dropWhile_replicate_append {c : Char} (n : Nat) {text : List Char}
    (h : text.head? ≠ some c) : (List.replicate n c ++ text).dropWhile (· = c) = text := by
  rw [List.dropWhile_append_of_pos (by simp)]
  cases text with
  | nil => rfl
  | cons d text => exact List.dropWhile_cons_of_neg (by simpa using h)

/-! ### The first mark -/

/-- What begins a text and avoids a character ends in front of the first such character. -/
theorem prefix_of_notMem {c : Char} {xs before after : List Char} (hc : c ∉ xs)
    (h : xs <+: before ++ c :: after) : xs <+: before := by
  obtain ⟨rest, hrest⟩ := h
  rcases List.append_eq_append_iff.mp hrest with ⟨between, rfl, -⟩ | ⟨between, rfl, hafter⟩
  · exact List.prefix_append xs between
  · cases between with
    | nil => exact (List.append_nil before).symm ▸ List.prefix_rfl
    | cons d between =>
      obtain ⟨rfl, -⟩ := List.cons.inj hafter
      simp at hc

/-- **Cutting at a mark undoes putting together around it.** The mark begins with a character that
does not stand in the rest of it, so that no mark begins inside another one. -/
theorem cutAtFirst?_append {c : Char} {mark before : List Char} (hc : c ∉ mark)
    (h : ¬(c :: mark) <:+: before) (after : List Char) :
    cutAtFirst? (c :: mark) (before ++ c :: (mark ++ after)) = some (before, after) := by
  induction before with
  | nil => simp [cutAtFirst?]
  | cons d before ih =>
    rw [List.infix_cons_iff, not_or] at h
    obtain ⟨hhere, hlater⟩ := h
    have hno : ¬(c :: mark).isPrefixOf (d :: (before ++ c :: (mark ++ after))) = true := by
      rw [List.isPrefixOf_iff_prefix, List.cons_prefix_cons]
      rintro ⟨rfl, hmark⟩
      exact hhere (List.cons_prefix_cons.mpr ⟨rfl, prefix_of_notMem hc hmark⟩)
    rw [List.cons_append, cutAtFirst?, if_neg hno, ih hlater, Option.map_some]

/-! ### The end of the settings -/

theorem dropEndWhile_append_singleton_of_pos {p : Char → Bool} {c : Char} (h : p c = true)
    (cs : List Char) : dropEndWhile p (cs ++ [c]) = dropEndWhile p cs := by
  simp [dropEndWhile, h]

theorem dropEndWhile_of_getLast? {p : Char → Bool} {cs : List Char}
    (h : ∀ c ∈ cs.getLast?, p c = false) : dropEndWhile p cs = cs := by
  rcases List.eq_nil_or_concat cs with rfl | ⟨front, last, rfl⟩
  · rfl
  · have hlast : p last = false := h last (by simp)
    simp [dropEndWhile, hlast]

/-- A character that does not stand in a text does not help to find it. -/
theorem not_infix_append_singleton {c : Char} {xs cs : List Char} (hc : c ∉ xs)
    (h : ¬xs <:+: cs) : ¬xs <:+: cs ++ [c] := by
  rw [List.infix_concat_iff, List.suffix_concat_iff]
  rintro ((rfl | ⟨front, rfl, -⟩) | hinfix)
  · exact h List.nil_infix
  · simp at hc
  · exact h hinfix

/-! ### Test files -/

/-- A test file: byte order marks, and then the settings and the source with a mark in front of each.
The line ends behind the marks and the one behind the settings may be of either kind. -/
def testFile (byteOrderMarks : Nat) (behindFirst behindSettings behindSecond : LineEnd)
    (settings source : String) : String :=
  String.ofList (List.replicate byteOrderMarks '\ufeff') ++ "---" ++ behindFirst.text ++ settings ++
    behindSettings.text ++ "---" ++ behindSecond.text ++ source

section TestFile

variable {settings : String} (hmark : ¬"\n---".toList <:+: settings.toList)
  (hcr : settings.toList.getLast? ≠ some '\r')

include hmark hcr

/-- The second mark is found where the settings end, and what is left out of them is a part of their
line end. -/
theorem exists_cutAtFirst?_settings (ending : LineEnd) (rest : List Char) :
    ∃ block, cutAtFirst? ('\n' :: TestCase.mark.toList)
        (settings.toList ++ ending.text.toList ++ TestCase.mark.toList ++ rest) =
          some (block, rest) ∧ dropEndWhile (· = '\r') block = settings.toList := by
  have hlf : '\n' ∉ TestCase.mark.toList := by decide
  have hend : dropEndWhile (· = '\r') settings.toList = settings.toList :=
    dropEndWhile_of_getLast? fun c hc => by
      have hne : c ≠ '\r' := fun h => hcr (h ▸ hc)
      simpa using hne
  cases ending with
  | lf =>
    refine ⟨settings.toList, ?_, hend⟩
    rw [← cutAtFirst?_append hlf hmark rest]
    simp [LineEnd.text]
  | crlf =>
    have hmark' := not_infix_append_singleton (c := '\r') (by decide) hmark
    refine ⟨settings.toList ++ ['\r'], ?_, ?_⟩
    · rw [← cutAtFirst?_append hlf hmark' rest]
      simp [LineEnd.text]
    · rw [dropEndWhile_append_singleton_of_pos (by simp), hend]

/-- **The parts of a test file.** -/
theorem cut_testFile (byteOrderMarks : Nat) (behindFirst behindSettings behindSecond : LineEnd)
    (source : String) :
    TestCase.cut (testFile byteOrderMarks behindFirst behindSettings behindSecond settings source) =
      .ok (settings, source) := by
  obtain ⟨block, hcut, hblock⟩ := exists_cutAtFirst?_settings hmark hcr behindSettings
    (behindSecond.text.toList ++ source.toList)
  have hchars : (testFile byteOrderMarks behindFirst behindSettings behindSecond settings
      source).toList = List.replicate byteOrderMarks '\ufeff' ++ (TestCase.mark.toList ++
        (behindFirst.text.toList ++ (settings.toList ++ behindSettings.text.toList ++
          TestCase.mark.toList ++ (behindSecond.text.toList ++ source.toList)))) := by
    simp [testFile, TestCase.mark]
  rw [TestCase.cut, hchars, dropWhile_replicate_append _ (by simp [TestCase.mark]),
    behind?_append]
  simp only [skipNewline_append, hcut, hblock, String.ofList_toList]

end TestFile

/-- **Test files can be taken apart.** Put a test file together from settings that hold no line feed
with three dashes behind it and do not end in a carriage return, and from any source. Exactly the
settings are read as settings, and exactly the source is the source of the test, so that lines are
counted from its first one. If the settings are refused, the file is, for the same cause. -/
theorem testFile_taken_apart {settings : String} (hmark : ¬"\n---".toList <:+: settings.toList)
    (hcr : settings.toList.getLast? ≠ some '\r') (byteOrderMarks : Nat)
    (behindFirst behindSettings behindSecond : LineEnd) (source : String) :
    let content :=
      testFile byteOrderMarks behindFirst behindSettings behindSecond settings source
    TestCase.cut content = .ok (settings, source) ∧
      (∀ x, Expectations.ofText settings = .ok x →
        TestCase.ofText content = .ok ⟨x, source⟩ ∧
        ∀ path, (runTest path (.ok content)).failure = x.check (compile source 0 x.options)) ∧
      ∀ e, Expectations.ofText settings = .error e →
        TestCase.ofText content = .error (.settings e) := by
  intro content
  have hcut : TestCase.cut content = .ok (settings, source) :=
    cut_testFile hmark hcr byteOrderMarks behindFirst behindSettings behindSecond source
  refine ⟨hcut, fun x hx => ?_, fun e he => ?_⟩
  · have hread : TestCase.ofText content = .ok ⟨x, source⟩ := by
      simp only [TestCase.ofText, hcut, hx]
    refine ⟨hread, fun path => ?_⟩
    simp only [runTest, hread, TestCase.outcome]
  · simp only [TestCase.ofText, hcut, he]

/-- Settings that begin with a line feed and end in one, behind dashes; and a source that begins with
a line feed and holds a mark. The error is on its second line. -/
theorem testFile_taken_apart_seams :
    let settings := "\nexpect_error = \"end\"\nexpect_error_line = 2\n# ---\n"
    let source := "\nend\n---\n"
    let content := "\ufeff\ufeff---\r\n" ++ settings ++ "\n---\r\n" ++ source
    let x : Expectations := { error := some "end", errorLine := some 2 }
    ¬"\n---".toList <:+: settings.toList ∧ settings.toList.getLast? ≠ some '\r' ∧
      TestCase.cut content = .ok (settings, source) ∧ TestCase.ofText content = .ok ⟨x, source⟩ ∧
      (runTest "a.test.fgs" (.ok content)).failure = none := by
  intro settings source content x
  have hmark : ¬"\n---".toList <:+: settings.toList := by
    rw [← occursIn_iff_infix]
    decide +kernel
  have hcr : settings.toList.getLast? ≠ some '\r' := by decide
  have hcontent : testFile 2 .crlf .lf .crlf settings source = content := by
    decide +kernel
  obtain ⟨hcut, hread, -⟩ := testFile_taken_apart hmark hcr 2 .crlf .lf .crlf source
  rw [hcontent] at hcut hread
  have hx : Expectations.ofText settings = .ok x := by decide +kernel
  have hpass : x.check (compile source 0 x.options) = none := by decide +kernel
  exact ⟨hmark, hcr, hcut, (hread x hx).1, ((hread x hx).2 "a.test.fgs").trans hpass⟩

end Flowscript
