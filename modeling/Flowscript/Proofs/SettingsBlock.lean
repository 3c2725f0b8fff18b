import Flowscript.Proofs.Marks

/-!
# Where the settings of a test file stand

A test file is a text with lines, and the marks around its settings look like lines. They are not
looked for as lines, though, but as dashes: the first mark is the beginning of the file, and the
second one is a line feed with dashes behind it. This module says which lines are read as settings
because of that, and compares them with the lines that stand between two whole lines of dashes.

## What is read

The settings are looked for behind the first mark. If it fills its line, that is from the second
line on; otherwise what follows the mark on its line counts as a line of its own
(`linesBehindMark`). Of these lines the first is always read as settings, because the line feed
before it was skipped or is not there. The settings end in front of the first other line that begins
with dashes, and what follows the dashes on that line belongs to the source.

## Where this differs from whole lines

There are files whose marks are whole lines and which are read otherwise: without a line between the
marks the second one is missed, and a longer row of dashes between them is taken for the second
mark. These are the only ones (`settings_between_marks`). On the other hand, a file need not have a
mark that fills its line in order to be read.

## Main definitions

* `BetweenMarkLines` — the lines between two whole lines of dashes.
* `IsSettingsBlock` — the lines that are read as settings.

## Main results

* `cutAtFirst?_intercalate_iff` — cutting at a line feed and a mark, told by lines.
* `settings_between_marks` — which lines are read as settings.
-/

namespace Flowscript

/-! ### Lines put together -/

theorem lf_notMem_of_mem_splitOn {cs line : List Char} (h : line ∈ cs.splitOn '\n') :
    '\n' ∉ line := by
  induction cs using lines_induction with
  | nil => simp_all
  | last cs hne hlf =>
    rw [splitOn_of_notMem hlf, List.mem_singleton] at h
    rwa [h]
  | line body rest hbody ih =>
    rw [splitOn_append_lf hbody, List.mem_cons] at h
    rcases h with rfl | h
    · exact hbody
    · exact ih h

theorem intercalate_append_cons (sep xs line : List Char) (lines : List (List Char)) :
    sep.intercalate ((xs ++ line) :: lines) = xs ++ sep.intercalate (line :: lines) := by
  cases lines <;> simp [List.intercalate_cons_cons]

/-- What begins a text begins its first line, if no line feed is in it. -/
theorem prefix_intercalate_cons_iff {mark : List Char} (hlf : '\n' ∉ mark) (line : List Char)
    (lines : List (List Char)) :
    mark <+: ['\n'].intercalate (line :: lines) ↔ mark <+: line := by
  cases lines with
  | nil => rw [List.intercalate_singleton]
  | cons next lines =>
    rw [List.intercalate_cons_cons, List.append_assoc, List.singleton_append]
    exact ⟨prefix_of_notMem hlf, fun h => h.trans (List.prefix_append _ _)⟩

/-! ### Cutting at a line feed and a mark -/

section Cut

variable {mark : List Char}

theorem cutAtFirst?_of_notMem {cs : List Char} (h : '\n' ∉ cs) :
    cutAtFirst? ('\n' :: mark) cs = none := by
  induction cs with
  | nil => rfl
  | cons c cs ih =>
    rw [List.mem_cons, not_or] at h
    have hno : ¬('\n' :: mark).isPrefixOf (c :: cs) = true := by
      rw [List.isPrefixOf_iff_prefix, List.cons_prefix_cons]
      exact fun hmark => h.1 hmark.1
    rw [cutAtFirst?, if_neg hno, ih h.2, Option.map_none]

/-- At the end of a line the mark stands there, or it is looked for further on. -/
theorem cutAtFirst?_append_lf {body : List Char} (h : '\n' ∉ body) (rest : List Char) :
    cutAtFirst? ('\n' :: mark) (body ++ '\n' :: rest) =
      if mark <+: rest then some (body, rest.drop mark.length)
      else (cutAtFirst? ('\n' :: mark) rest).map fun (before, after) =>
        (body ++ '\n' :: before, after) := by
  induction body with
  | nil =>
    rw [List.nil_append, cutAtFirst?, List.isPrefixOf_cons_cons_self]
    simp only [List.isPrefixOf_iff_prefix, List.length_cons, List.drop_succ_cons, List.nil_append]
  | cons c body ih =>
    rw [List.mem_cons, not_or] at h
    have hno : ¬('\n' :: mark).isPrefixOf (c :: (body ++ '\n' :: rest)) = true := by
      rw [List.isPrefixOf_iff_prefix, List.cons_prefix_cons]
      exact fun hmark => h.1 hmark.1
    rw [List.cons_append, cutAtFirst?, if_neg hno, ih h.2]
    by_cases hmark : mark <+: rest
    · simp [hmark]
    · simp [hmark, Function.comp_def]

/-- The lines of `block` come first, at least one of them, and behind them is the first line that
begins with the mark, the very first line aside. `tail` follows the mark on that line. -/
structure EndsAtMark (mark : List Char) (lines block : List (List Char)) (tail : List Char)
    (others : List (List Char)) : Prop where
  /-- Where the mark stands. -/
  eq_append : lines = block ++ (mark ++ tail) :: others
  /-- The very first line is one of them. -/
  ne_nil : block ≠ []
  /-- No other of them begins with the mark. -/
  no_mark : ∀ line ∈ block.tail, ¬mark <+: line

namespace EndsAtMark

variable {lines block others : List (List Char)} {line next tail tail' : List Char}

theorem two_le_length (h : EndsAtMark mark lines block tail others) : 2 ≤ lines.length := by
  have hpos := List.length_pos_iff.mpr h.ne_nil
  rw [h.eq_append, List.length_append, List.length_cons]
  omega

/-- The mark begins the second line. -/
theorem cons_mark_iff :
    EndsAtMark mark (line :: (mark ++ tail) :: lines) block tail' others ↔
      block = [line] ∧ tail' = tail ∧ others = lines := by
  constructor
  · rintro ⟨happend, hne, hnot⟩
    obtain ⟨first, block, rfl⟩ := List.exists_cons_of_ne_nil hne
    obtain ⟨rfl, hrest⟩ := List.cons.inj happend
    cases block with
    | nil =>
      obtain ⟨htail, hothers⟩ := List.cons.inj hrest
      exact ⟨rfl, (List.append_cancel_left htail).symm, hothers.symm⟩
    | cons second block =>
      obtain ⟨rfl, -⟩ := List.cons.inj hrest
      exact absurd (List.prefix_append mark tail) (hnot _ List.mem_cons_self)
  · rintro ⟨rfl, rfl, rfl⟩
    exact ⟨rfl, List.cons_ne_nil _ _, fun _ h => absurd h List.not_mem_nil⟩

/-- The mark does not begin the second line. -/
theorem cons_iff (hnext : ¬mark <+: next) :
    EndsAtMark mark (line :: next :: lines) block tail others ↔
      ∃ block', block = line :: block' ∧ EndsAtMark mark (next :: lines) block' tail others := by
  constructor
  · rintro ⟨happend, hne, hnot⟩
    obtain ⟨first, block, rfl⟩ := List.exists_cons_of_ne_nil hne
    obtain ⟨rfl, hrest⟩ := List.cons.inj happend
    refine ⟨block, rfl, hrest, ?_, fun line h => hnot line (List.mem_of_mem_tail h)⟩
    rintro rfl
    exact hnext ((List.cons.inj hrest).1 ▸ List.prefix_append mark tail)
  · rintro ⟨block, rfl, happend, hne, hnot⟩
    refine ⟨by rw [happend, List.cons_append], List.cons_ne_nil _ _, ?_⟩
    obtain ⟨second, block, rfl⟩ := List.exists_cons_of_ne_nil hne
    obtain ⟨rfl, -⟩ := List.cons.inj happend
    exact List.forall_mem_cons.mpr ⟨hnext, hnot⟩

end EndsAtMark

/-- **Cutting at a line feed and a mark, told by lines.** -/
theorem cutAtFirst?_intercalate_iff (hmark : '\n' ∉ mark) {lines : List (List Char)}
    (hlines : ∀ line ∈ lines, '\n' ∉ line) {before after : List Char} :
    cutAtFirst? ('\n' :: mark) (['\n'].intercalate lines) = some (before, after) ↔
      ∃ block tail others, EndsAtMark mark lines block tail others ∧
        before = ['\n'].intercalate block ∧ after = ['\n'].intercalate (tail :: others) := by
  induction lines generalizing before after with
  | nil =>
    simp only [List.intercalate_nil, cutAtFirst?_of_notMem List.not_mem_nil, reduceCtorEq,
      false_iff]
    rintro ⟨block, tail, others, hends, -⟩
    exact absurd hends.two_le_length (by simp)
  | cons line lines ih =>
    obtain ⟨hline, hlines⟩ := List.forall_mem_cons.mp hlines
    cases lines with
    | nil =>
      simp only [List.intercalate_singleton, cutAtFirst?_of_notMem hline, reduceCtorEq, false_iff]
      rintro ⟨block, tail, others, hends, -⟩
      exact absurd hends.two_le_length (by simp)
    | cons next lines =>
      rw [List.intercalate_cons_cons, List.append_assoc, List.singleton_append,
        cutAtFirst?_append_lf hline]
      simp only [prefix_intercalate_cons_iff hmark]
      by_cases hnext : mark <+: next
      · obtain ⟨tail, rfl⟩ := hnext
        rw [if_pos (List.prefix_append mark tail), intercalate_append_cons, List.drop_left]
        simp [EndsAtMark.cons_mark_iff, eq_comm]
      · rw [if_neg hnext]
        simp only [EndsAtMark.cons_iff hnext, Option.map_eq_some_iff, Prod.exists, ih hlines]
        constructor
        · rintro ⟨front, rest, ⟨block, tail, others, hends, rfl, rfl⟩, hcut⟩
          obtain ⟨rfl, rfl⟩ := Prod.mk.inj hcut
          refine ⟨line :: block, tail, others, ⟨block, rfl, hends⟩, ?_, rfl⟩
          rw [List.intercalate_cons_of_ne_nil hends.ne_nil, List.append_assoc,
            List.singleton_append]
        · rintro ⟨-, tail, others, ⟨block, rfl, hends⟩, rfl, rfl⟩
          refine ⟨_, _, ⟨block, tail, others, hends, rfl, rfl⟩, ?_⟩
          rw [List.intercalate_cons_of_ne_nil hends.ne_nil, List.append_assoc,
            List.singleton_append]

end Cut

/-! ### The first mark -/

/-- The lines that settings are looked for in: what follows the first mark on its line, unless it is
nothing but a carriage return, and then the later lines. -/
def linesBehindMark (rest : List Char) (later : List (List Char)) : List (List Char) :=
  if rest = [] ∨ rest = ['\r'] then later else rest :: later

/-- A line end is skipped if nothing stands before it. -/
theorem skipNewline_append_lf {rest : List Char} (h : '\n' ∉ rest) (cs : List Char) :
    TestCase.skipNewline (rest ++ '\n' :: cs) =
      if rest = [] ∨ rest = ['\r'] then cs else rest ++ '\n' :: cs := by
  match rest, h with
  | [], _ => rfl
  | [c], h =>
    have hc : '\n' ≠ c := by simpa using h
    by_cases hcr : c = '\r'
    · subst hcr
      rfl
    · simp [TestCase.skipNewline, behind?, hc, hcr, Ne.symm hcr]
  | c :: d :: rest, h =>
    simp only [List.mem_cons, not_or] at h
    simp [TestCase.skipNewline, behind?, h.1, h.2.1]

theorem skipNewline_of_notMem {cs : List Char} (h : '\n' ∉ cs) : TestCase.skipNewline cs = cs := by
  have hno {beginning : String} (hlf : '\n' ∈ beginning.toList) : behind? beginning cs = none := by
    rw [behind?, if_neg]
    exact fun hprefix => h ((List.isPrefixOf_iff_prefix.mp hprefix).subset hlf)
  rw [TestCase.skipNewline, hno (by decide), hno (by decide), Option.getD_none]

/-- Settings are looked for in the lines behind the first mark. -/
theorem skipNewline_intercalate {rest : List Char} (h : '\n' ∉ rest)
    {later : List (List Char)} (hlater : later ≠ []) :
    TestCase.skipNewline (['\n'].intercalate (rest :: later)) =
      ['\n'].intercalate (linesBehindMark rest later) := by
  rw [List.intercalate_cons_of_ne_nil hlater, List.append_assoc, List.singleton_append,
    skipNewline_append_lf h, linesBehindMark]
  split
  · rfl
  · rw [List.intercalate_cons_of_ne_nil hlater, List.append_assoc, List.singleton_append]

/-- The second mark is looked for in the lines behind the first one. -/
theorem cutAtFirst?_skipNewline {rest : List Char} (h : '\n' ∉ rest) (mark : List Char)
    (later : List (List Char)) :
    cutAtFirst? ('\n' :: mark) (TestCase.skipNewline (['\n'].intercalate (rest :: later))) =
      cutAtFirst? ('\n' :: mark) (['\n'].intercalate (linesBehindMark rest later)) := by
  by_cases hlater : later = []
  · -- there is one line only, and no mark behind it
    subst hlater
    rw [List.intercalate_singleton, skipNewline_of_notMem h, cutAtFirst?_of_notMem h,
      linesBehindMark]
    split
    · rfl
    · rw [List.intercalate_singleton, cutAtFirst?_of_notMem h]
  · rw [skipNewline_intercalate h hlater]

/-! ### Test files -/

/-- The lines of a test file, byte order marks aside. -/
def testFileLines (content : String) : List (List Char) :=
  (content.toList.dropWhile (· = '\ufeff')).splitOn '\n'

/-- Whether a line is nothing but a mark, a carriage return at its end aside. -/
def IsMarkLine (line : List Char) : Prop := dropLastIf '\r' line = TestCase.mark.toList

instance (line : List Char) : Decidable (IsMarkLine line) :=
  inferInstanceAs (Decidable (dropLastIf '\r' line = TestCase.mark.toList))

/-- The lines of `block` stand between two whole lines of dashes: the first line, and the first
later one. -/
def BetweenMarkLines (lines block : List (List Char)) : Prop :=
  ∃ first closing later, lines = first :: (block ++ closing :: later) ∧ IsMarkLine first ∧
    IsMarkLine closing ∧ ∀ line ∈ block, ¬IsMarkLine line

/-- The lines of `block` are read as settings, and `source` is what is left. -/
def IsSettingsBlock (lines block : List (List Char)) (source : String) : Prop :=
  ∃ rest later tail others, lines = (TestCase.mark.toList ++ rest) :: later ∧
    EndsAtMark TestCase.mark.toList (linesBehindMark rest later) block tail others ∧
    source = String.ofList (TestCase.skipNewline (['\n'].intercalate (tail :: others)))

/-- The settings that lines make: the carriage returns at their end are left out. -/
def settingsOfLines (block : List (List Char)) : String :=
  String.ofList (dropEndWhile (· = '\r') (['\n'].intercalate block))

section TestFileLines

variable {content settings source : String} {first rest : List Char} {later : List (List Char)}

theorem lf_notMem_of_testFileLines (h : testFileLines content = first :: later) :
    '\n' ∉ first ∧ ∀ line ∈ later, '\n' ∉ line := by
  have hlines : ∀ line ∈ testFileLines content, '\n' ∉ line := fun _ => lf_notMem_of_mem_splitOn
  rw [h] at hlines
  exact List.forall_mem_cons.mp hlines

theorem intercalate_testFileLines (content : String) :
    content.toList.dropWhile (· = '\ufeff') = ['\n'].intercalate (testFileLines content) :=
  (List.intercalate_splitOn '\n').symm

theorem cut_of_no_mark (h : testFileLines content = first :: later)
    (hno : ¬TestCase.mark.toList <+: first) :
    TestCase.cut content = .error .noOpeningMark := by
  have hbehind : behind? TestCase.mark (['\n'].intercalate (first :: later)) = none := by
    rw [behind?, if_neg]
    rwa [List.isPrefixOf_iff_prefix, prefix_intercalate_cons_iff (by decide)]
  rw [TestCase.cut, intercalate_testFileLines, h, hbehind]

/-- Behind the first mark, the second one is looked for in lines. -/
theorem cut_of_mark (h : testFileLines content = (TestCase.mark.toList ++ rest) :: later) :
    (∃ front back, cutAtFirst? ('\n' :: TestCase.mark.toList)
        (['\n'].intercalate (linesBehindMark rest later)) = some (front, back) ∧
      TestCase.cut content = .ok (String.ofList (dropEndWhile (· = '\r') front),
        String.ofList (TestCase.skipNewline back))) ∨
      cutAtFirst? ('\n' :: TestCase.mark.toList)
          (['\n'].intercalate (linesBehindMark rest later)) = none ∧
        TestCase.cut content = .error .noClosingMark := by
  have hrest : '\n' ∉ rest := fun hlf =>
    (lf_notMem_of_testFileLines h).1 (List.mem_append_right _ hlf)
  rw [TestCase.cut, intercalate_testFileLines, h, intercalate_append_cons, behind?_append]
  simp only [cutAtFirst?_skipNewline hrest]
  rcases cutAtFirst? ('\n' :: TestCase.mark.toList)
    (['\n'].intercalate (linesBehindMark rest later)) with _ | ⟨front, back⟩
  · exact .inr ⟨rfl, rfl⟩
  · exact .inl ⟨front, back, rfl, rfl⟩

theorem exists_testFileLines_eq (content : String) :
    ∃ first later, testFileLines content = first :: later :=
  List.exists_cons_of_ne_nil (List.splitOn_ne_nil '\n' _)

theorem cut_eq_noOpeningMark_iff :
    TestCase.cut content = .error .noOpeningMark ↔
      ∀ first ∈ (testFileLines content).head?, ¬TestCase.mark.toList <+: first := by
  obtain ⟨first, later, h⟩ := exists_testFileLines_eq content
  simp only [h, List.head?_cons, Option.mem_some_iff, forall_eq']
  constructor
  · rintro hcut ⟨rest, rfl⟩
    rcases cut_of_mark h with ⟨front, back, -, hcut'⟩ | ⟨-, hcut'⟩ <;>
      exact nomatch hcut.symm.trans hcut'
  · exact cut_of_no_mark h

theorem lf_notMem_of_mem_linesBehindMark
    (h : testFileLines content = (TestCase.mark.toList ++ rest) :: later) :
    ∀ line ∈ linesBehindMark rest later, '\n' ∉ line := by
  obtain ⟨hfirst, hlater⟩ := lf_notMem_of_testFileLines h
  rw [linesBehindMark]
  split
  · exact hlater
  · exact List.forall_mem_cons.mpr ⟨fun hlf => hfirst (List.mem_append_right _ hlf), hlater⟩

/-- **A test file is cut around its settings**, which are the lines of a settings block. -/
theorem cut_eq_ok_iff :
    TestCase.cut content = .ok (settings, source) ↔
      ∃ block, IsSettingsBlock (testFileLines content) block source ∧
        settings = settingsOfLines block := by
  constructor
  · intro hcut
    obtain ⟨first, later, h⟩ := exists_testFileLines_eq content
    by_cases hmark : TestCase.mark.toList <+: first
    · obtain ⟨rest, rfl⟩ := hmark
      rcases cut_of_mark h with ⟨front, back, hfind, hcut'⟩ | ⟨-, hcut'⟩
      · obtain ⟨rfl, rfl⟩ := Prod.mk.inj (Except.ok.inj (hcut.symm.trans hcut'))
        obtain ⟨block, tail, others, hends, rfl, rfl⟩ :=
          (cutAtFirst?_intercalate_iff (by decide) (lf_notMem_of_mem_linesBehindMark h)).mp hfind
        exact ⟨block, ⟨rest, later, tail, others, h, hends, rfl⟩, rfl⟩
      · exact nomatch hcut.symm.trans hcut'
    · exact nomatch hcut.symm.trans (cut_of_no_mark h hmark)
  · rintro ⟨block, ⟨rest, later, tail, others, h, hends, rfl⟩, rfl⟩
    have hfind := (cutAtFirst?_intercalate_iff (by decide)
      (lf_notMem_of_mem_linesBehindMark h)).mpr ⟨block, tail, others, hends, rfl, rfl⟩
    rcases cut_of_mark h with ⟨front, back, hfind', hcut⟩ | ⟨hnone, -⟩
    · obtain ⟨rfl, rfl⟩ := Prod.mk.inj (Option.some.inj (hfind.symm.trans hfind'))
      exact hcut
    · exact nomatch hfind.symm.trans hnone

theorem cut_eq_noClosingMark_iff :
    TestCase.cut content = .error .noClosingMark ↔
      (∃ first ∈ (testFileLines content).head?, TestCase.mark.toList <+: first) ∧
        ∀ block source, ¬IsSettingsBlock (testFileLines content) block source := by
  constructor
  · intro hcut
    constructor
    · by_contra hno
      simp only [not_exists, not_and] at hno
      exact nomatch hcut.symm.trans (cut_eq_noOpeningMark_iff.mpr hno)
    · intro block source hblock
      exact nomatch hcut.symm.trans (cut_eq_ok_iff.mpr ⟨block, hblock, rfl⟩)
  · rintro ⟨⟨first, hfirst, rest, rfl⟩, hnone⟩
    obtain ⟨later, h⟩ := List.head?_eq_some_iff.mp hfirst
    rcases cut_of_mark h with ⟨front, back, -, hcut⟩ | ⟨-, hcut⟩
    · obtain ⟨block, hblock, -⟩ := cut_eq_ok_iff.mp hcut
      exact absurd hblock (hnone block _)
    · exact hcut

end TestFileLines

/-! ### Marks that fill their lines -/

theorem isMarkLine_iff {line : List Char} :
    IsMarkLine line ↔
      ∃ rest, line = TestCase.mark.toList ++ rest ∧ (rest = [] ∨ rest = ['\r']) := by
  rw [IsMarkLine]
  constructor
  · intro hline
    rcases dropLastIf_cases '\r' line with ⟨-, hkept⟩ | hdropped
    · exact ⟨[], by rw [List.append_nil, ← hkept, hline], .inl rfl⟩
    · exact ⟨['\r'], by rw [← hline, ← hdropped], .inr rfl⟩
  · rintro ⟨rest, rfl, rfl | rfl⟩ <;> rfl

/-- Between marks that fill their lines, the settings are the lines between them, if there is one
and none but the first begins with dashes. -/
theorem BetweenMarkLines.exists_isSettingsBlock_iff {lines block : List (List Char)}
    (h : BetweenMarkLines lines block) :
    (∃ source, IsSettingsBlock lines block source) ↔
      block ≠ [] ∧ ∀ line ∈ block.tail, ¬TestCase.mark.toList <+: line := by
  constructor
  · rintro ⟨source, rest, later, tail, others, -, hends, -⟩
    exact ⟨hends.ne_nil, hends.no_mark⟩
  · rintro ⟨hne, hnot⟩
    obtain ⟨first, closing, later, rfl, hfirst, hclosing, -⟩ := h
    obtain ⟨rest, rfl, hrest⟩ := isMarkLine_iff.mp hfirst
    obtain ⟨tail, rfl, -⟩ := isMarkLine_iff.mp hclosing
    exact ⟨_, rest, _, tail, later, rfl, ⟨by rw [linesBehindMark, if_pos hrest], hne, hnot⟩, rfl⟩

/-- **Which lines are read as settings.** A file is read if and only if it has a settings block,
and exactly the text of the block is read as settings. It is refused for want of a first mark if
and only if its first line does not begin with dashes, and otherwise for want of a second one.
Where the marks fill their lines, the block is what stands between them if and only if there is a
line between them and none but the first of these begins with dashes. -/
theorem settings_between_marks (content : String) :
    (∀ settings source, TestCase.cut content = .ok (settings, source) ↔
        ∃ block, IsSettingsBlock (testFileLines content) block source ∧
          settings = settingsOfLines block) ∧
      (∀ settings source, TestCase.cut content = .ok (settings, source) →
        TestCase.ofText content =
          ((Expectations.ofText settings).mapError .settings).map fun x => ⟨x, source⟩) ∧
      (TestCase.cut content = .error .noOpeningMark ↔
        ∀ first ∈ (testFileLines content).head?, ¬TestCase.mark.toList <+: first) ∧
      (TestCase.cut content = .error .noClosingMark ↔
        (∃ first ∈ (testFileLines content).head?, TestCase.mark.toList <+: first) ∧
          ∀ block source, ¬IsSettingsBlock (testFileLines content) block source) ∧
      ∀ block, BetweenMarkLines (testFileLines content) block →
        ((∃ source, IsSettingsBlock (testFileLines content) block source) ↔
          block ≠ [] ∧ ∀ line ∈ block.tail, ¬TestCase.mark.toList <+: line) := by
  refine ⟨fun settings source => cut_eq_ok_iff, fun settings source hcut => ?_,
    cut_eq_noOpeningMark_iff, cut_eq_noClosingMark_iff,
    fun block hblock => hblock.exists_isSettingsBlock_iff⟩
  rw [TestCase.ofText, hcut]
  cases hsettings : Expectations.ofText settings <;> simp [hsettings, Except.mapError, Except.map]

/-- Byte order marks, carriage returns, and dashes at the beginning of the first line between the
marks, which do not end the settings. -/
theorem settings_between_marks_dashes :
    let content := "\ufeff---\r\n----\r\nx = 1\r\n---\r\n---\n"
    let block := ["----\r".toList, "x = 1\r".toList]
    BetweenMarkLines (testFileLines content) block ∧
      (∃ source, IsSettingsBlock (testFileLines content) block source) ∧
      TestCase.cut content = .ok ("----\r\nx = 1", "---\n") ∧
      TestCase.ofText content = .error (.settings .malformed) := by
  intro content block
  have hcut : TestCase.cut content = .ok ("----\r\nx = 1", "---\n") := by decide +kernel
  have hsettings : Expectations.ofText "----\r\nx = 1" = .error .malformed := by decide +kernel
  have hbetween : BetweenMarkLines (testFileLines content) block :=
    ⟨"---\r".toList, "---\r".toList, ["---".toList, []], by decide +kernel, rfl, rfl, by
      decide +kernel⟩
  obtain ⟨-, hread, -, -, hblock⟩ := settings_between_marks content
  refine ⟨hbetween, (hblock block hbetween).mpr ⟨by decide, by decide +kernel⟩, hcut, ?_⟩
  rw [hread _ _ hcut, hsettings]
  rfl

/-- Marks are not whole lines. A second mark right behind the first is missed; a first line with
more than dashes on it is taken for a mark; and a row of four dashes in the settings ends them, in
front of the whole line of dashes that they go up to. -/
theorem marks_are_not_whole_lines :
    (BetweenMarkLines (testFileLines "---\n---\nend\n") [] ∧
        TestCase.cut "---\n---\nend\n" = .error .noClosingMark) ∧
      ((∀ block, ¬BetweenMarkLines (testFileLines "---description = \"x\"\n---\nend\n") block) ∧
        TestCase.cut "---description = \"x\"\n---\nend\n" =
          .ok ("description = \"x\"", "end\n")) ∧
      (BetweenMarkLines (testFileLines "---\ndescription = '''\n----'''\n---\nend\n")
          ["description = '''".toList, "----'''".toList] ∧
        TestCase.cut "---\ndescription = '''\n----'''\n---\nend\n" =
          .ok ("description = '''", "-'''\n---\nend\n")) := by
  refine ⟨⟨?_, by decide +kernel⟩, ⟨?_, by decide +kernel⟩, ⟨?_, by decide +kernel⟩⟩
  · exact ⟨"---".toList, "---".toList, ["end".toList, []], by decide +kernel, rfl, rfl, by simp⟩
  · rintro block ⟨first, closing, later, hlines, hfirst, -⟩
    have hlist : testFileLines "---description = \"x\"\n---\nend\n" =
        ["---description = \"x\"".toList, "---".toList, "end".toList, []] := by decide +kernel
    obtain ⟨rfl, -⟩ := List.cons.inj (hlist.symm.trans hlines)
    exact absurd hfirst (by decide)
  · exact ⟨"---".toList, "---".toList, ["end".toList, []], by decide +kernel, rfl, rfl, by
      decide +kernel⟩

end Flowscript
