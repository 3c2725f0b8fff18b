import Flowscript.Suite.Report
import Mathlib.Data.List.Infix

/-!
# What a passing test has shown

A test case may state five things: a part of the error message, the line of the error, the whole
document, fragments of it, and, by stating nothing about errors, that there is a document at all.
`Expectations.Met` says that all of this holds of a result.

## What is looked at

Not all of it is looked at. Whether an error is expected decides what the rest is worth: beside an
expected message, the document and its fragments are passed over; without one, the line is passed
over. `Expectations.considered` is what remains, and a test passes if and only if that is met.

So a passing test has shown what it states if and only if nothing of it was passed over. A test that
expects an error by its line alone passes on a source that compiles, and says nothing about errors
at all (`passes_despite_expected_line`).

## Main definitions

* `Expectations.Met` — everything that is stated holds.
* `Expectations.considered` — what is looked at.

## Main results

* `Expectations.check_eq_none_iff` — what is looked at is what decides.
* `test_passes_iff_considered_met` — the same for a test file, and when a pass means more.
-/

namespace Flowscript

/-- What is found in a text stands in it in one piece. -/
theorem occursIn_iff_infix {needle cs : List Char} :
    occursIn needle cs = true ↔ needle <:+: cs := by
  induction cs with
  | nil => simp [occursIn]
  | cons c cs ih =>
    rw [occursIn, Bool.or_eq_true, ih, List.isPrefixOf_iff_prefix, List.infix_cons_iff]

theorem holds_iff_infix {s needle : String} :
    holds s needle = true ↔ needle.toList <:+: s.toList :=
  occursIn_iff_infix

namespace Expectations

/-- Everything that is stated holds of a result. -/
structure Met (x : Expectations) (result : Except LocatedError String) : Prop where
  /-- The error has the expected part in its message. -/
  error : ∀ part, x.error = some part →
    ∃ e, result = .error e ∧ part.toList <:+: e.error.message.toList
  /-- The error is on the expected line. -/
  errorLine : ∀ line, x.errorLine = some line → ∃ e, result = .error e ∧ e.line = line
  /-- The document is the expected one, white space at the ends aside. -/
  output : ∀ text, x.output = some text → ∃ document, result = .ok document ∧
    trim document = trim text
  /-- The document has the expected fragments. -/
  fragments : ∀ fragment ∈ x.fragments, ∃ document, result = .ok document ∧
    fragment.toList <:+: document.toList
  /-- If nothing is stated about an error, there is a document. -/
  accepted : x.error = none → x.errorLine = none → ∃ document, result = .ok document

/-- What is looked at: with an expected error nothing about the document, and without one nothing
about the line of an error. -/
def considered (x : Expectations) : Expectations :=
  if x.error = none then { x with errorLine := none }
  else { x with output := none, fragments := [] }

variable {x : Expectations} {e : LocatedError} {document : String}

/-! ### Results that are errors -/

theorem met_error_iff :
    x.Met (.error e) ↔
      (∀ part, x.error = some part → part.toList <:+: e.error.message.toList) ∧
        (∀ line, x.errorLine = some line → e.line = line) ∧ x.output = none ∧ x.fragments = [] ∧
        (x.error = none → x.errorLine ≠ none) := by
  constructor
  · rintro ⟨herror, hline, houtput, hfragments, haccepted⟩
    refine ⟨fun part hpart => ?_, fun line hline' => ?_, ?_, ?_, fun hnone hnone' => ?_⟩
    · obtain ⟨_, hresult, hfound⟩ := herror part hpart
      rwa [Except.error.inj hresult]
    · obtain ⟨_, hresult, heq⟩ := hline line hline'
      rwa [Except.error.inj hresult]
    · rw [Option.eq_none_iff_forall_ne_some]
      intro text htext
      obtain ⟨_, hresult, -⟩ := houtput text htext
      exact nomatch hresult
    · rw [List.eq_nil_iff_forall_not_mem]
      intro fragment hfragment
      obtain ⟨_, hresult, -⟩ := hfragments fragment hfragment
      exact nomatch hresult
    · obtain ⟨_, hresult⟩ := haccepted hnone hnone'
      exact nomatch hresult
  · rintro ⟨herror, hline, houtput, hfragments, hstated⟩
    refine ⟨fun part hpart => ⟨e, rfl, herror part hpart⟩,
      fun line hline' => ⟨e, rfl, hline line hline'⟩, fun text htext => ?_,
      fun fragment hfragment => ?_, fun hnone hnone' => absurd hnone' (hstated hnone)⟩
    · rw [houtput] at htext
      cases htext
    · rw [hfragments] at hfragment
      cases hfragment

theorem check_error_iff :
    x.check (.error e) = none ↔
      (∃ part, x.error = some part ∧ part.toList <:+: e.error.message.toList) ∧
        ∀ line, x.errorLine = some line → e.line = line := by
  simp only [← holds_iff_infix]
  cases hpart : x.error with
  | none => simp [check, hpart]
  | some part =>
    by_cases hfound : holds e.error.message part = true
    · cases hline : x.errorLine with
      | none => simp [check, hpart, hfound, hline]
      | some line => simp [check, hpart, hfound, hline, @eq_comm _ e.line line]
    · simp [check, hpart, hfound]

/-! ### Results that are documents -/

theorem met_ok_iff :
    x.Met (.ok document) ↔
      x.error = none ∧ x.errorLine = none ∧
        (∀ text, x.output = some text → trim document = trim text) ∧
        ∀ fragment ∈ x.fragments, fragment.toList <:+: document.toList := by
  constructor
  · rintro ⟨herror, hline, houtput, hfragments, -⟩
    refine ⟨?_, ?_, fun text htext => ?_, fun fragment hfragment => ?_⟩
    · rw [Option.eq_none_iff_forall_ne_some]
      intro part hpart
      obtain ⟨_, hresult, -⟩ := herror part hpart
      exact nomatch hresult
    · rw [Option.eq_none_iff_forall_ne_some]
      intro line hline'
      obtain ⟨_, hresult, -⟩ := hline line hline'
      exact nomatch hresult
    · obtain ⟨_, hresult, heq⟩ := houtput text htext
      rwa [Except.ok.inj hresult]
    · obtain ⟨_, hresult, hfound⟩ := hfragments fragment hfragment
      rwa [Except.ok.inj hresult]
  · rintro ⟨herror, hline, houtput, hfragments⟩
    refine ⟨fun part hpart => ?_, fun line hline' => ?_,
      fun text htext => ⟨document, rfl, houtput text htext⟩,
      fun fragment hfragment => ⟨document, rfl, hfragments fragment hfragment⟩,
      fun _ _ => ⟨document, rfl⟩⟩
    · rw [herror] at hpart
      cases hpart
    · rw [hline] at hline'
      cases hline'

theorem check_ok_iff :
    x.check (.ok document) = none ↔
      x.error = none ∧ (∀ text, x.output = some text → trim document = trim text) ∧
        ∀ fragment ∈ x.fragments, fragment.toList <:+: document.toList := by
  simp only [← holds_iff_infix]
  cases hpart : x.error with
  | some part => simp [check, hpart]
  | none =>
    cases houtput : x.output with
    | none => simp [check, hpart, houtput]
    | some text =>
      by_cases htext : trim document = trim text <;>
        simp [check, hpart, houtput, htext, Option.filter_some]

/-! ### Verdicts -/

/-- **What is looked at decides.** -/
theorem check_eq_none_iff (x : Expectations) (result : Except LocatedError String) :
    x.check result = none ↔ x.considered.Met result := by
  cases result with
  | error e =>
    rw [check_error_iff, met_error_iff, considered]
    cases hpart : x.error with
    | none => simp
    | some part => simp
  | ok document =>
    rw [check_ok_iff, met_ok_iff, considered]
    cases hpart : x.error with
    | none => simp
    | some part => simp

/-- If what is looked at is met, then everything is met or something was passed over. -/
theorem met_iff_considered_eq {result : Except LocatedError String} (h : x.considered.Met result) :
    x.Met result ↔ x.considered = x := by
  refine ⟨fun hmet => ?_, fun heq => heq ▸ h⟩
  obtain ⟨description, output, fragments, error, errorLine, options⟩ := x
  cases result with
  | error e =>
    obtain ⟨-, -, rfl, rfl, hstated⟩ := met_error_iff.mp hmet
    obtain ⟨-, -, -, -, hconsidered⟩ := met_error_iff.mp h
    cases error with
    | none => simp [considered] at hconsidered
    | some part => simp [considered]
  | ok document =>
    obtain ⟨rfl, rfl, -, -⟩ := met_ok_iff.mp hmet
    simp [considered]

end Expectations

/-! ### Test files -/

/-- A test case passes if nothing is wrong with its result. -/
theorem passed_runTest_iff {content : String} {t : TestCase} (h : TestCase.ofText content = .ok t)
    (path : String) : (runTest path (.ok content)).passed = true ↔ t.outcome = none := by
  rw [TestResult.passed, runTest, h]
  exact Option.isNone_iff_eq_none

/-- **A test passes if and only if what is looked at is met.** A passing test therefore has shown
everything it states if and only if nothing of it was passed over. -/
theorem test_passes_iff_considered_met {content : String} {t : TestCase}
    (h : TestCase.ofText content = .ok t) (path : String) :
    let result := compile t.source 0 t.expectations.options
    ((runTest path (.ok content)).passed = true ↔ t.expectations.considered.Met result) ∧
      ((runTest path (.ok content)).passed = true →
        (t.expectations.Met result ↔ t.expectations.considered = t.expectations)) := by
  intro result
  have hpassed : (runTest path (.ok content)).passed = true ↔
      t.expectations.considered.Met result := by
    rw [passed_runTest_iff h, TestCase.outcome, Expectations.check_eq_none_iff]
  exact ⟨hpassed, fun hpass => Expectations.met_iff_considered_eq (hpassed.mp hpass)⟩

theorem eq_ok_of_toOption {ε α : Type} {r : Except ε α} {a : α} (h : r.toOption = some a) :
    r = .ok a := by
  cases r with
  | error e => exact nomatch h
  | ok b => exact congrArg Except.ok (Option.some.inj h)

/-- A test that states an error with its line, and passes. -/
theorem test_passes_iff_considered_met_error :
    let content := "---\nexpect_error = \"unexpected end\"\nexpect_error_line = 1\n---\nend\n"
    let t : TestCase := ⟨{ error := some "unexpected end", errorLine := some 1 }, "end\n"⟩
    TestCase.ofText content = .ok t ∧ (runTest "fail.test.fgs" (.ok content)).passed = true ∧
      t.expectations.Met (compile "end\n" 0 .strict) := by
  intro content t
  have hread : TestCase.ofText content = .ok t := eq_ok_of_toOption (by decide +kernel)
  have hpass : (runTest "fail.test.fgs" (.ok content)).passed = true := by decide +kernel
  obtain ⟨-, hmet⟩ := test_passes_iff_considered_met hread "fail.test.fgs"
  exact ⟨hread, hpass, (hmet hpass).mpr rfl⟩

/-- A test that passes although something it states was passed over states something that does not
hold. -/
theorem exists_passed_unmet {content : String} {t : TestCase} (h : TestCase.ofText content = .ok t)
    (path : String) (hpass : t.outcome = none)
    (hne : t.expectations.considered ≠ t.expectations) :
    ∃ t, TestCase.ofText content = .ok t ∧ (runTest path (.ok content)).passed = true ∧
      ¬t.expectations.Met (compile t.source 0 t.expectations.options) := by
  refine ⟨t, h, (passed_runTest_iff h path).mpr hpass, ?_⟩
  rw [TestCase.outcome, Expectations.check_eq_none_iff] at hpass
  rwa [Expectations.met_iff_considered_eq hpass]

/-- The line of an error is passed over where no message is expected, a document where one is. -/
theorem passes_despite_expected_line :
    let byLine := "---\nexpect_error_line = 3\n---\nfn main () _ void\nend\n"
    let mixed := "---\nexpect_error = \"end\"\nexpect_output = \"x\"\n---\nend\n"
    (∃ t, TestCase.ofText byLine = .ok t ∧ (runTest "a.test.fgs" (.ok byLine)).passed = true ∧
      ¬t.expectations.Met (compile t.source 0 t.expectations.options)) ∧
    ∃ t, TestCase.ofText mixed = .ok t ∧ (runTest "a.test.fgs" (.ok mixed)).passed = true ∧
      ¬t.expectations.Met (compile t.source 0 t.expectations.options) := by
  intro byLine mixed
  let t : TestCase := ⟨{ errorLine := some 3 }, "fn main () _ void\nend\n"⟩
  let t' : TestCase := ⟨{ error := some "end", output := some "x" }, "end\n"⟩
  have hread : TestCase.ofText byLine = .ok t := eq_ok_of_toOption (by decide +kernel)
  have hread' : TestCase.ofText mixed = .ok t' := eq_ok_of_toOption (by decide +kernel)
  have hpass : t.outcome = none := by decide +kernel
  have hpass' : t'.outcome = none := by decide +kernel
  exact ⟨exists_passed_unmet hread _ hpass (by decide),
    exists_passed_unmet hread' _ hpass' (by decide)⟩

end Flowscript
