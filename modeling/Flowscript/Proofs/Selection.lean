import Flowscript.Command.Test
import Flowscript.Proofs.Discovery
import Mathlib.Data.List.Flatten
import Mathlib.Data.List.TakeWhile

/-!
# Which tests are run, and what their run is worth

A run of a suite may be restricted by requests. A request names a category, with any slashes around
it, and asks for that category and for those below it. Every category that is asked for is run once,
however many requests ask for it, and the run succeeds if and only if it ran something and all of it
passed.

## One request after the other

The selection is gathered request by request: the categories that a request asks for are put in
their places among those that are there already. What is gathered is at any time a part of the
suite, in the suite's order, so that to put in a category is to keep one more (`insert_keeping`).
In the end the selection is the suite with the other categories left out (`select_eq_keeping`), in
which nothing is left of the order of the requests.

## What is said

The warnings about requests that ask for nothing come first, one for each such request. They are all
that depends on how the requests are written down. Behind them, and for every way to write the same
requests, come the same lines about the same tests, and a summary whose two numbers make up the
selection. The texts are spelled out here, so that a report that leaves something out is no report.

## Main definitions

* `Suite.Requested` — a category is asked for.
* `Test.categoryText`, `Test.reasonText` — what a report says about tests.
* `Test.Reports` — how a run of a selection ends, and what it says.

## Main results

* `Suite.select_eq_keeping`, `Suite.select_congr` — the selection.
* `test_runs_selection` — the command runs the selection, and reports on it.
-/

namespace Flowscript

namespace Suite

/-! ### Requests -/

/-- A request, without the slashes around it. -/
def Trims (request name : String) : Prop :=
  ∃ m n, request.toList = List.replicate m '/' ++ name.toList ++ List.replicate n '/' ∧
    name.toList.head? ≠ some '/' ∧ name.toList.getLast? ≠ some '/'

/-- A category is asked for: by every list without requests, or by one that names it or a category
around it. -/
def Requested (requests : List String) (category : String) : Prop :=
  requests = [] ∨ ∃ request ∈ requests, ∃ name, Trims request name ∧
    (category = name ∨ name.toList ++ ['/'] <+: category.toList)

theorem dropWhile_slash_append {cs : List Char} (h : cs.head? ≠ some '/') (n : Nat) :
    (List.replicate n '/' ++ cs).dropWhile (· = '/') = cs := by
  rw [List.dropWhile_append_of_pos (by simp)]
  cases cs with
  | nil => rfl
  | cons c cs => exact List.dropWhile_cons_of_neg (by simpa using h)

theorem eq_replicate_takeWhile_slash (cs : List Char) :
    cs.takeWhile (· = '/') = List.replicate (cs.takeWhile (· = '/')).length '/' := by
  rw [List.eq_replicate_iff]
  exact ⟨rfl, fun c hc => by simpa using List.mem_takeWhile_imp hc⟩

theorem head?_dropWhile_slash_ne (cs : List Char) :
    (cs.dropWhile (· = '/')).head? ≠ some '/' := by
  have h := List.head?_dropWhile_not (· = '/') cs
  intro hslash
  rw [hslash] at h
  simp at h

theorem trims_requestName (request : String) : Trims request (requestName request) := by
  -- slashes are cut off in front, and then in front of what is left read backwards
  have hfront := List.takeWhile_append_dropWhile (p := (· = '/')) (l := request.toList)
  rw [eq_replicate_takeWhile_slash] at hfront
  have hback := List.takeWhile_append_dropWhile (p := (· = '/'))
    (l := (request.toList.dropWhile (· = '/')).reverse)
  rw [eq_replicate_takeWhile_slash] at hback
  have hname := congrArg List.reverse hback
  rw [List.reverse_append, List.reverse_reverse, List.reverse_replicate] at hname
  rw [← hname, ← List.append_assoc] at hfront
  refine ⟨_, _, by rw [requestName, String.toList_ofList, hfront], ?_, ?_⟩
  · rw [requestName, String.toList_ofList]
    intro hslash
    have hhead := head?_dropWhile_slash_ne request.toList
    rw [← hname, List.head?_append, hslash] at hhead
    exact hhead rfl
  · rw [requestName, String.toList_ofList, List.getLast?_reverse]
    exact head?_dropWhile_slash_ne _

theorem trims_iff {request name : String} : Trims request name ↔ requestName request = name := by
  refine ⟨?_, fun h => h ▸ trims_requestName request⟩
  rintro ⟨m, n, hrequest, hhead, hlast⟩
  rw [requestName, hrequest, List.append_assoc, ← String.toList_inj, String.toList_ofList]
  by_cases hempty : name.toList = []
  · simp [hempty]
  · have hhead' : (name.toList ++ List.replicate n '/').head? ≠ some '/' := by
      rwa [List.head?_append_of_ne_nil _ hempty]
    have hlast' : name.toList.reverse.head? ≠ some '/' := by
      rwa [List.head?_reverse]
    rw [dropWhile_slash_append hhead', List.reverse_append, List.reverse_replicate,
      dropWhile_slash_append hlast', List.reverse_reverse]

theorem requested_iff {requests : List String} {category : String} :
    Requested requests category ↔
      (requests.isEmpty || requests.any (asksFor · category)) = true := by
  rw [Requested, Bool.or_eq_true, List.isEmpty_iff, List.any_eq_true]
  refine or_congr_right (exists_congr fun request => and_congr_right fun _ => ?_)
  simp only [trims_iff, exists_eq_left']
  simp [asksFor, List.isPrefixOf_iff_prefix]

/-! ### Selections -/

section Selection

variable {s : Suite} {p : String × List TestFile} {requests requests' : List String}

/-- The categories of a suite are in order, and each is there once. -/
def Sorted (s : Suite) : Prop := s.Pairwise fun p q => p.1 < q.1

/-- The categories of a suite that satisfy `keep`. -/
def keeping (keep : String → Bool) (s : Suite) : Suite := s.filter fun p => keep p.1

theorem keeping_cons (keep : String → Bool) (p : String × List TestFile) (s : Suite) :
    keeping keep (p :: s) = if keep p.1 then p :: keeping keep s else keeping keep s :=
  List.filter_cons

theorem keeping_congr {keep keep' : String → Bool} (h : ∀ p ∈ s, keep p.1 = keep' p.1) :
    keeping keep s = keeping keep' s :=
  List.filter_congr h

theorem insert_of_lt {category : String} {files : List TestFile} (h : ∀ p ∈ s, category < p.1) :
    insert category files s = (category, files) :: s := by
  cases s with
  | nil => rfl
  | cons q s =>
    have hlt := h q List.mem_cons_self
    rw [insert, if_neg hlt.ne, if_pos hlt]

/-- **To put a category of the suite in its place is to keep it as well.** -/
theorem insert_keeping (hs : s.Sorted) (hp : p ∈ s) (keep : String → Bool) :
    insert p.1 p.2 (keeping keep s) = keeping (fun c => keep c || c == p.1) s := by
  induction s with
  | nil => exact absurd hp List.not_mem_nil
  | cons q s ih =>
    obtain ⟨hfirst, hrest⟩ := List.pairwise_cons.mp hs
    rw [keeping_cons, keeping_cons]
    rcases List.mem_cons.mp hp with rfl | hmem
    · have hlater : keeping (fun c => keep c || c == p.1) s = keeping keep s :=
        keeping_congr fun q hq => by simp [(hfirst q hq).ne']
      have hlt : ∀ q ∈ keeping keep s, p.1 < q.1 := fun q hq => hfirst q (List.mem_of_mem_filter hq)
      rw [hlater]
      by_cases hthere : keep p.1 = true
      · simp [hthere, insert]
      · simp [hthere, insert_of_lt hlt]
    · have hlt := hfirst p hmem
      rw [← ih hrest hmem]
      by_cases hthere : keep q.1 = true
      · simp [hthere, insert, hlt.ne', hlt.not_gt]
      · simp [hthere, hlt.ne]

/-- The same for any number of categories. -/
theorem foldl_insert_keeping (hs : s.Sorted) {l : Suite} (hl : ∀ p ∈ l, p ∈ s)
    (keep : String → Bool) :
    l.foldl (fun chosen p => insert p.1 p.2 chosen) (keeping keep s) =
      keeping (fun c => keep c || l.any (c == ·.1)) s := by
  induction l generalizing keep with
  | nil => simp
  | cons p l ih =>
    obtain ⟨hp, hl⟩ := List.forall_mem_cons.mp hl
    rw [List.foldl_cons, insert_keeping hs hp, ih hl]
    simp [Bool.or_assoc]

theorem choose_keeping (hs : s.Sorted) (keep : String → Bool) (request : String) :
    choose s (keeping keep s) request = keeping (fun c => keep c || asksFor request c) s := by
  rw [choose, foldl_insert_keeping hs fun p hp => List.mem_of_mem_filter hp]
  refine keeping_congr fun p hp => congrArg (keep p.1 || ·) ?_
  rw [Bool.eq_iff_iff, List.any_eq_true]
  constructor
  · rintro ⟨q, hq, heq⟩
    rw [eq_of_beq heq]
    exact (List.mem_filter.mp hq).2
  · intro hasks
    exact ⟨p, List.mem_filter.mpr ⟨hp, hasks⟩, beq_self_eq_true _⟩

theorem foldl_choose_keeping (hs : s.Sorted) (requests : List String) (keep : String → Bool) :
    requests.foldl (choose s) (keeping keep s) =
      keeping (fun c => keep c || requests.any (asksFor · c)) s := by
  induction requests generalizing keep with
  | nil => simp
  | cons request requests ih =>
    rw [List.foldl_cons, choose_keeping hs, ih]
    simp [Bool.or_assoc]

/-- **The selection is the suite, with the categories left out that nobody asks for.** -/
theorem select_eq_keeping (hs : s.Sorted) (requests : List String) :
    select requests s = keeping (fun c => requests.isEmpty || requests.any (asksFor · c)) s := by
  cases requests with
  | nil => simp [select, keeping]
  | cons request requests =>
    -- before the first request nothing is kept
    have hnone : keeping (fun _ => false) s = [] := by simp [keeping]
    have hall := foldl_choose_keeping hs (request :: requests) fun _ => false
    rw [hnone] at hall
    simpa [select] using hall

theorem mem_select_iff (hs : s.Sorted) :
    p ∈ select requests s ↔ p ∈ s ∧ Requested requests p.1 := by
  rw [select_eq_keeping hs, keeping, List.mem_filter, requested_iff]

/-- The same requests, in any order and any number of times, select the same. -/
theorem select_congr (hs : s.Sorted) (h : ∀ r, r ∈ requests ↔ r ∈ requests') :
    select requests s = select requests' s := by
  have hempty : requests = [] ↔ requests' = [] := by
    simp only [List.eq_nil_iff_forall_not_mem, h]
  rw [select_eq_keeping hs, select_eq_keeping hs]
  refine keeping_congr fun p _ => ?_
  rw [Bool.eq_iff_iff, ← requested_iff, ← requested_iff, Requested, Requested, hempty]
  simp only [h]

theorem sorted_ofTree (t : FileTree) : (ofTree t).Sorted := by
  have hnames := pairwise_categoryNames (testFiles t)
  rw [← map_fst_ofFiles, List.pairwise_map] at hnames
  exact hnames

/-- The tests of a suite, one category after the other. -/
def tests (s : Suite) : List TestFile := s.flatMap Prod.snd

/-- The tests of a selection are those whose categories are asked for. -/
theorem mem_tests_select_iff {t : FileTree} {f : TestFile} :
    f ∈ (select requests (ofTree t)).tests ↔ f ∈ testFiles t ∧ Requested requests f.category := by
  rw [tests, List.mem_flatMap]
  constructor
  · rintro ⟨⟨c, group⟩, hp, hf⟩
    obtain ⟨hgroup, hasked⟩ := (mem_select_iff (sorted_ofTree t)).mp hp
    obtain ⟨hfound, rfl⟩ := exists_mem_ofFiles_iff.mp ⟨group, hgroup, hf⟩
    exact ⟨hfound, hasked⟩
  · rintro ⟨hfound, hasked⟩
    obtain ⟨group, hgroup, hf⟩ := exists_mem_ofFiles_iff.mpr ⟨hfound, rfl⟩
    exact ⟨_, (mem_select_iff (sorted_ofTree t)).mpr ⟨hgroup, hasked⟩, hf⟩

/-- The tests of a selection are among those of the suite, in the same order. -/
theorem tests_select_sublist (hs : s.Sorted) (requests : List String) :
    (select requests s).tests.Sublist s.tests := by
  rw [select_eq_keeping hs]
  exact List.filter_sublist.flatMap _

/-- A selection of one test is one category. -/
theorem eq_singleton_of_tests {f : TestFile} (hgroups : ∀ p ∈ s, p.2 ≠ []) (h : s.tests = [f]) :
    ∃ c, s = [(c, [f])] := by
  cases s with
  | nil => cases h
  | cons first rest =>
    obtain ⟨c, group⟩ := first
    obtain ⟨hfirst, hrest⟩ := List.forall_mem_cons.mp hgroups
    obtain ⟨g, group, rfl⟩ := List.exists_cons_of_ne_nil hfirst
    rw [tests, List.flatMap_cons, List.cons_append, List.cons.injEq, List.append_eq_nil_iff,
      List.flatMap_eq_nil_iff] at h
    obtain ⟨rfl, rfl, hnone⟩ := h
    obtain rfl : rest = [] := by
      rw [List.eq_nil_iff_forall_not_mem]
      exact fun p hp => hrest p hp (hnone p hp)
    exact ⟨c, rfl⟩

end Selection

end Suite

/-! ### Texts -/

namespace Test

/-- A text between terminal codes, unless colours are off. -/
def shown (noColor : Bool) (code text : String) : String :=
  if noColor then text else "\x1b[" ++ code ++ "m" ++ text ++ "\x1b[0m"

/-- What a category is called; the one of the tests in the folder itself has no name. -/
def categoryName (category : String) : String := if category = "" then "(root)" else category

/-- What is said about a category: its name, and a line for each of its tests. -/
def categoryText (noColor : Bool) (category : String) (results : List TestResult) : String :=
  "\n" ++ shown noColor "1" (categoryName category) ++ "\n" ++
    String.join (results.map fun r =>
      "  " ++ (if r.passed then shown noColor "32" "PASS" else shown noColor "31" "FAIL") ++ "  " ++
        r.label ++ "\n")

/-- What is said about a test that failed: its file, and the lines of the reason. -/
def reasonText (r : TestResult) : String :=
  "\n  --- " ++ r.path ++ " ---\n" ++
    String.join ((textLines (r.failure.getD "")).map fun line => "  " ++ line ++ "\n")

/-- The warnings about requests that ask for nothing. -/
def warnings (suite : Suite) (requests : List String) : String :=
  String.join ((requests.filter fun r => !suite.any fun p => Suite.asksFor r p.1).map fun r =>
    "warning: category '" ++ Suite.requestName r ++ "' not found (available: " ++
      String.intercalate ", " (suite.map fun p => categoryName p.1) ++ ")\n")

theorem paint_eq (noColor : Bool) (code text : String) :
    paint noColor code text = shown noColor code text := by
  rw [paint, shown, terminalCode, terminalCode]
  rfl

theorem categoryLines_eq (noColor : Bool) (category : String) (results : List TestResult) :
    Suite.categoryLines noColor category results = categoryText noColor category results := by
  simp only [Suite.categoryLines, paint_eq]
  rfl

theorem failureLines_eq : TestResult.failureLines = reasonText := rfl

theorem noTests_eq (root : String) :
    noTests root = "no .test.fgs files found in " ++ root ++ "\n" := by
  have hsuffix : "no " ++ testSuffix ++ " files found in " = "no .test.fgs files found in " := by
    decide
  rw [noTests, hsuffix]

theorem unmatched_eq (suite : Suite) (requests : List String) :
    String.join ((suite.unmatched requests).map (unmatchedLine suite)) =
      warnings suite requests := by
  rw [Suite.unmatched, List.map_map]
  rfl

/-- If every request asks for something, there is nothing to warn of. -/
theorem warnings_eq_empty {suite : Suite} {requests : List String}
    (h : ∀ r ∈ requests, ∃ p ∈ suite, Suite.asksFor r p.1 = true) :
    warnings suite requests = "" := by
  have hnone : (requests.filter fun r => !suite.any fun p => Suite.asksFor r p.1) = [] := by
    rw [List.filter_eq_nil_iff]
    intro r hr
    simpa using h r hr
  rw [warnings, hnone, List.map_nil, String.join_nil]

/-! ### Runs -/

/-- How a run of the tests that were chosen below `root` ends, and what it says behind `said`. -/
structure Reports (view : View) (noColor : Bool) (root said : String) (chosen : Suite)
    (o : Outcome) : Prop where
  /-- It succeeds if and only if there are tests and all of them pass. -/
  exit_eq_zero_iff : o.exit = 0 ↔
    chosen.tests ≠ [] ∧ ∀ f ∈ chosen.tests, (runFound view root f).passed = true
  /-- There is one way to fail. -/
  exit_le_one : o.exit ≤ 1
  /-- Every category is listed with a line for each of its tests. Behind them come the reasons of
  the failures, if there are any, and a summary with the numbers of tests that passed and that
  failed, which are all of them. -/
  stderr_eq : chosen.tests ≠ [] → ∃ passed failed, passed + failed = chosen.tests.length ∧
    passed = (chosen.tests.filter fun f => (runFound view root f).passed).length ∧
    o.stderr = said ++
      String.join (chosen.map fun p =>
        categoryText noColor p.1 (p.2.map (runFound view root))) ++
      if failed = 0 then
        "\ntest result: " ++ shown noColor "32" "ok" ++ ". " ++ toString passed ++
          " passed, 0 failed\n"
      else
        "\nfailures:\n" ++
          String.join ((chosen.tests.filter fun f => !(runFound view root f).passed).map fun f =>
            reasonText (runFound view root f)) ++
          "\ntest result: " ++ shown noColor "31" "FAILED" ++ ". " ++ toString passed ++
          " passed, " ++ toString failed ++ " failed (of " ++ toString chosen.tests.length ++ ")\n"
  /-- Without tests there is nothing to list. -/
  stderr_of_nil : chosen.tests = [] →
    o.stderr = "no .test.fgs files found in " ++ root ++ "\n" ∨
      o.stderr = said ++ "no matching categories found\n"

theorem flatMap_results (view : View) (root : String) (chosen : Suite) :
    (results view root chosen).flatMap (·.2) = chosen.tests.map (runFound view root) := by
  rw [results, Suite.tests, List.flatMap_map, List.map_flatMap]

theorem exitCode_eq_zero_iff {rs : List TestResult} :
    Suite.exitCode rs = 0 ↔ ∀ r ∈ rs, r.passed = true := by
  rw [Suite.exitCode, ← List.all_eq_true]
  split <;> simp_all

/-- What follows the lines about the tests depends on whether one of them failed. -/
theorem closing_eq (noColor : Bool) (rs : List TestResult) {passed failed : Nat}
    (hpassed : passed = (rs.filter TestResult.passed).length)
    (hfailed : failed = (rs.filter fun r => !r.passed).length) :
    Suite.closing noColor rs =
      if failed = 0 then
        "\ntest result: " ++ shown noColor "32" "ok" ++ ". " ++ toString passed ++
          " passed, 0 failed\n"
      else
        "\nfailures:\n" ++ String.join ((rs.filter fun r => !r.passed).map reasonText) ++
          "\ntest result: " ++ shown noColor "31" "FAILED" ++ ". " ++ toString passed ++
          " passed, " ++ toString failed ++ " failed (of " ++ toString (passed + failed) ++
          ")\n" := by
  rw [Suite.closing, Suite.summary, Suite.tally, ← hpassed, ← hfailed]
  by_cases hnone : failed = 0
  · have hempty : (rs.filter fun r => !r.passed) = [] :=
      List.length_eq_zero_iff.mp (hfailed.symm.trans hnone)
    simp [Suite.failures, hempty, hnone, paint_eq, String.append_assoc]
  · obtain ⟨first, rest, hfirst⟩ : ∃ first rest, (rs.filter fun r => !r.passed) = first :: rest :=
      List.exists_cons_of_ne_nil (List.length_pos_iff.mp (by omega))
    simp [Suite.failures, hfirst, hnone, paint_eq, failureLines_eq, String.append_assoc]

/-- **A run of tests reports on each of them.** -/
theorem reports_runSuite (view : View) (noColor : Bool) (root said : String) {chosen : Suite}
    (h : chosen.tests ≠ []) :
    Reports view noColor root said chosen (runSuite view noColor root said chosen) := by
  refine ⟨?_, ?_, fun _ => ?_, fun hnil => absurd hnil h⟩
  · show Suite.exitCode ((results view root chosen).flatMap (·.2)) = 0 ↔ _
    rw [flatMap_results, exitCode_eq_zero_iff, List.forall_mem_map]
    simp [h]
  · show Suite.exitCode _ ≤ 1
    rw [Suite.exitCode]
    split <;> omega
  · have hcount :=
      chosen.tests.length_eq_length_filter_add fun f => (runFound view root f).passed
    have hclosing := closing_eq noColor (chosen.tests.map (runFound view root)) rfl rfl
    simp only [List.filter_map, List.length_map, List.map_map] at hclosing
    refine ⟨_, _, hcount.symm, rfl, ?_⟩
    show said ++ String.join ((results view root chosen).map _) ++
      Suite.closing noColor ((results view root chosen).flatMap (·.2)) = _
    rw [flatMap_results, hclosing, results, List.map_map, hcount]
    simp only [categoryLines_eq, Function.comp_def]

/-- Without tests a run fails, and there are two ways to say so. -/
theorem reports_failure {view : View} {noColor : Bool} {root said text : String} {chosen : Suite}
    (h : chosen.tests = [])
    (htext : text = "no .test.fgs files found in " ++ root ++ "\n" ∨
      text = said ++ "no matching categories found\n") :
    Reports view noColor root said chosen (.failure text) where
  exit_eq_zero_iff := iff_of_false Nat.one_ne_zero fun hsome => hsome.1 h
  exit_le_one := Nat.le_refl 1
  stderr_eq hsome := absurd h hsome
  stderr_of_nil _ := htext

section Folder

variable {view : View} {root : String} {t : FileTree}

/-- A category of a tree has tests, so that a selection with categories has some. -/
theorem tests_select_ne_nil {requests : List String}
    (h : Suite.select requests (Suite.ofTree t) ≠ []) :
    (Suite.select requests (Suite.ofTree t)).tests ≠ [] := by
  obtain ⟨⟨c, group⟩, hp⟩ := List.exists_mem_of_ne_nil _ h
  obtain ⟨hgroup, -⟩ := (Suite.mem_select_iff (Suite.sorted_ofTree t)).mp hp
  obtain ⟨f, hf⟩ := List.exists_mem_of_ne_nil _ (Suite.ne_nil_of_mem_ofFiles hgroup)
  exact List.ne_nil_of_mem (List.mem_flatMap.mpr ⟨_, hp, hf⟩)

/-- A run in a folder runs what was chosen, and says the warnings first. -/
theorem reports_runFolder (hpath : view root = .ok t) (noColor : Bool) (requests : List String) :
    Reports view noColor root (warnings (Suite.ofTree t) requests)
      (Suite.select requests (Suite.ofTree t)) (runFolder view noColor root requests) := by
  have hsuite : suiteAt view root = Suite.ofTree t := by rw [suiteAt, hpath]
  have hsome : Suite.select requests (Suite.ofTree t) ≠ [] →
      (Suite.select requests (Suite.ofTree t)).tests ≠ [] := tests_select_ne_nil
  rw [runFolder, hsuite]
  generalize Suite.ofTree t = found at hsome ⊢
  cases found with
  | nil =>
    have hnone : Suite.select requests [] = [] := Suite.select_eq_keeping .nil requests
    refine reports_failure ?_ (.inl (noTests_eq root))
    rw [hnone]
    rfl
  | cons first rest =>
    dsimp only
    rw [unmatched_eq]
    generalize Suite.select requests (first :: rest) = chosen at hsome ⊢
    cases chosen with
    | nil => exact reports_failure rfl (.inr rfl)
    | cons first' rest' =>
      exact reports_runSuite view noColor root _ (hsome (List.cons_ne_nil _ _))

theorem run_of_folder {a : TestArguments} (hlist : a.listCategories = false)
    (hpath : view a.path = .ok t) (hfolder : t.isFolder = true) (g : General) :
    run view g a = runFolder view g.noColor a.path a.categories := by
  have hfile : view.isFile a.path = false := by
    cases t with
    | file content => exact absurd hfolder Bool.false_ne_true
    | folder entries => rw [View.isFile, hpath]
  rw [run, hlist, hfile]
  rfl

end Folder

end Test

/-- **The command runs what is asked for, and succeeds if and only if there is something and all of
it passes.** The categories that are run are those of the folder that the requests ask for, in the
same order, and no test is run twice. Any list of the same requests, in any order and any number of
times, runs the same tests, reports on them in the same way and ends in the same way; only the
warnings in front of the report differ. -/
theorem test_runs_selection {view : View} {a : TestArguments} {t : FileTree}
    (hlist : a.listCategories = false) (hpath : view a.path = .ok t) (hfolder : t.isFolder = true)
    (ht : t.WellFormed) (g : General) :
    ∃ chosen : Suite, chosen.Sublist (Suite.ofTree t) ∧
      (∀ c group, (c, group) ∈ chosen ↔
        (c, group) ∈ Suite.ofTree t ∧ Suite.Requested a.categories c) ∧
      (∀ f, f ∈ chosen.tests ↔ f ∈ Suite.testFiles t ∧ Suite.Requested a.categories f.category) ∧
      (chosen.tests.map TestFile.names).Nodup ∧
      Test.Reports view g.noColor a.path (Test.warnings (Suite.ofTree t) a.categories) chosen
        (Test.run view g a) ∧
      ∀ requests, (∀ r, r ∈ requests ↔ r ∈ a.categories) →
        Test.Reports view g.noColor a.path (Test.warnings (Suite.ofTree t) requests) chosen
          (Test.run view g { a with categories := requests }) ∧
        (Test.run view g { a with categories := requests }).exit = (Test.run view g a).exit := by
  have hsorted := Suite.sorted_ofTree t
  have hreports (requests : List String) (h : ∀ r, r ∈ requests ↔ r ∈ a.categories) :
      Test.Reports view g.noColor a.path (Test.warnings (Suite.ofTree t) requests)
        (Suite.select a.categories (Suite.ofTree t))
        (Test.run view g { a with categories := requests }) := by
    rw [Test.run_of_folder (a := { a with categories := requests }) hlist hpath hfolder,
      ← Suite.select_congr hsorted h]
    exact Test.reports_runFolder hpath g.noColor requests
  have hrun : Test.Reports view g.noColor a.path (Test.warnings (Suite.ofTree t) a.categories)
      (Suite.select a.categories (Suite.ofTree t)) (Test.run view g a) :=
    hreports a.categories fun _ => Iff.rfl
  have hsublist : (Suite.select a.categories (Suite.ofTree t)).Sublist (Suite.ofTree t) := by
    rw [Suite.select_eq_keeping hsorted]
    exact List.filter_sublist
  refine ⟨Suite.select a.categories (Suite.ofTree t), hsublist,
    fun c group => Suite.mem_select_iff hsorted, fun f => Suite.mem_tests_select_iff, ?_, hrun,
    fun requests h => ⟨hreports requests h, ?_⟩⟩
  · have hnodup : ((Suite.ofTree t).tests.map TestFile.names).Nodup :=
      ((Suite.perm_flatMap_ofFiles (Suite.nodup_testFiles ht)).map _).nodup_iff.mpr
        (Suite.nodup_testFiles ht)
    exact ((Suite.tests_select_sublist hsorted a.categories).map _).nodup hnodup
  · have hle := (hreports requests h).exit_le_one
    have hiff := (hreports requests h).exit_eq_zero_iff.trans hrun.exit_eq_zero_iff.symm
    have hle' := hrun.exit_le_one
    omega

/-- Two requests for one category, beside one that begins with the same letters and one without a
name; and a request for a test that fails. -/
theorem test_runs_selection_overlapping :
    let t : FileTree := .folder
      [("io", .folder [("a.test.fgs", .file "---\n\n---\n".toUTF8)]),
        ("io2", .folder [("b.test.fgs", .file "".toUTF8)]), ("c.test.fgs", .file "".toUTF8)]
    let view : View := (⟨t, []⟩ : Disk).at?
    let run (requests : List String) : Outcome :=
      Test.run view {} { path := ".", categories := requests }
    (run ["/io/", "io"]).exit = 0 ∧
      (run ["/io/", "io"]).stderr = "\n\x1b[1mio\x1b[0m\n  \x1b[32mPASS\x1b[0m  a\n" ++
        "\ntest result: \x1b[32mok\x1b[0m. 1 passed, 0 failed\n" ∧
      (run ["io", "/io/", "io"]).exit = 0 ∧
      (run ["io2"]).exit ≠ 0 ∧
      (run ["io2"]).stderr = "\n\x1b[1mio2\x1b[0m\n  \x1b[31mFAIL\x1b[0m  b\n" ++
        "\nfailures:\n\n  --- ./io2/b.test.fgs ---\n" ++
        "  frontmatter error: missing opening --- frontmatter delimiter\n" ++
        "\ntest result: \x1b[31mFAILED\x1b[0m. 0 passed, 1 failed (of 1)\n" := by
  intro t view run
  let f : TestFile := ⟨["io", "a.test.fgs"], "---\n\n---\n".toUTF8⟩
  let g : TestFile := ⟨["io2", "b.test.fgs"], "".toUTF8⟩
  let h : TestFile := ⟨["c.test.fgs"], "".toUTF8⟩
  have ht : t.WellFormed := by
    refine .folder (by decide) (by decide) ?_ (.folder (by decide) (by decide) ?_ ?_)
    all_goals exact .file (by decide) (by decide) .nil
  have hlocate : Disk.locate ⟨t, []⟩ "." = .ok [] := by
    rw [Disk.locate, show Path.parts "." = ["."] by decide]
    rfl
  have hpath : view "." = .ok t := by
    show Disk.at? ⟨t, []⟩ "." = .ok t
    rw [Disk.at?, hlocate]
    rfl
  have hfound (x : TestFile) : x ∈ Suite.testFiles t ↔ x = f ∨ x = g ∨ x = h := by
    have hfiles : t.files = [(f.names, f.content), (g.names, g.content), (h.names, h.content)] := by
      simp [t, f, g, h, FileTree.files, FileTree.filesOf]
    rw [Suite.mem_testFiles, hfiles]
    constructor
    · obtain ⟨names, content⟩ := x
      simp only [List.mem_cons, List.not_mem_nil, or_false, Prod.mk.injEq]
      rintro ⟨⟨rfl, rfl⟩ | ⟨rfl, rfl⟩ | ⟨rfl, rfl⟩, -⟩
      · exact .inl rfl
      · exact .inr (.inl rfl)
      · exact .inr (.inr rfl)
    · rintro (rfl | rfl | rfl)
      · exact ⟨by simp, by decide +kernel⟩
      · exact ⟨by simp, by decide +kernel⟩
      · exact ⟨by simp, by decide +kernel⟩
  -- requests that ask for one test, and each of them for that one
  have hone (requests : List String) (x : TestFile)
      (hx : ∀ y, y ∈ Suite.testFiles t ∧ Suite.Requested requests y.category ↔ y = x)
      (hall : ∀ r ∈ requests, Suite.asksFor r x.category = true) :
      Test.Reports view false "." "" [(x.category, [x])] (run requests) ∧
        ∀ requests', (∀ r, r ∈ requests' ↔ r ∈ requests) →
          (run requests').exit = (run requests).exit := by
    obtain ⟨chosen, -, hchosen, htests, hnodup, hreports, hsame⟩ := test_runs_selection
      (a := { path := ".", categories := requests }) rfl hpath rfl ht {}
    refine ⟨?_, fun requests' hrequests => (hsame requests' hrequests).2⟩
    have hsingle : chosen.tests = [x] := by
      refine List.perm_singleton.mp ((List.perm_ext_iff_of_nodup hnodup.of_map
        (List.nodup_singleton x)).mpr fun y => ?_)
      rw [htests, hx, List.mem_singleton]
    have hgroups : ∀ p ∈ chosen, p.2 ≠ [] := fun p hp =>
      Suite.ne_nil_of_mem_ofFiles ((hchosen p.1 p.2).mp hp).1
    obtain ⟨c, rfl⟩ := Suite.eq_singleton_of_tests hgroups hsingle
    have hgroup := ((hchosen c [x]).mp (List.mem_singleton_self _)).1
    obtain ⟨-, rfl⟩ := Suite.exists_mem_ofFiles_iff.mp ⟨[x], hgroup, List.mem_singleton_self x⟩
    rwa [Test.warnings_eq_empty fun r hr => ⟨_, hgroup, hall r hr⟩] at hreports
  have hpass : (Test.runFound view "." f).passed = true := by decide +kernel
  have hfail : (Test.runFound view "." g).passed = false := by decide +kernel
  obtain ⟨hio, hsame⟩ := hone ["/io/", "io"] f (fun y => by
    rw [hfound, Suite.requested_iff]
    constructor
    · rintro ⟨rfl | rfl | rfl, hasked⟩
      · rfl
      · exact absurd hasked (by decide +kernel)
      · exact absurd hasked (by decide +kernel)
    · rintro rfl
      exact ⟨.inl rfl, by decide +kernel⟩) (by decide +kernel)
  obtain ⟨hio2, -⟩ := hone ["io2"] g (fun y => by
    rw [hfound, Suite.requested_iff]
    constructor
    · rintro ⟨rfl | rfl | rfl, hasked⟩
      · exact absurd hasked (by decide +kernel)
      · rfl
      · exact absurd hasked (by decide +kernel)
    · rintro rfl
      exact ⟨.inr (.inl rfl), by decide +kernel⟩) (by decide +kernel)
  have hzero : (run ["/io/", "io"]).exit = 0 :=
    hio.exit_eq_zero_iff.mpr ⟨List.cons_ne_nil f [], List.forall_mem_singleton.mpr hpass⟩
  refine ⟨hzero, ?_, (hsame _ (by simp [or_comm])).trans hzero, ?_, ?_⟩
  · obtain ⟨passed, failed, hsum, hpassed, htext⟩ := hio.stderr_eq (List.cons_ne_nil f [])
    obtain rfl : passed = 1 := hpassed.trans (by decide +kernel)
    obtain rfl : failed = 0 := Nat.add_left_cancel hsum
    rw [htext]
    decide +kernel
  · intro hexit
    have hall := (hio2.exit_eq_zero_iff.mp hexit).2 g (List.mem_singleton_self g)
    exact Bool.false_ne_true (hfail.symm.trans hall)
  · obtain ⟨passed, failed, hsum, hpassed, htext⟩ := hio2.stderr_eq (List.cons_ne_nil g [])
    obtain rfl : passed = 0 := hpassed.trans (by decide +kernel)
    obtain rfl : failed = 1 := (Nat.zero_add failed).symm.trans hsum
    rw [htext]
    decide +kernel

end Flowscript
