import Flowscript.Proofs.Listing
import Flowscript.Suite.Discovery
import Mathlib.Data.String.Basic

/-!
# Discovery loses and duplicates nothing

A suite is a list of categories with their tests. Below a folder, every file whose name ends with
`.test.fgs` is in it once, in the category that its folder's path spells, and nothing else is in it.
Categories are sorted, the tests of a category are sorted by their paths, and no category is empty.

## Order without a listing

Folders list their entries in any order, and a suite is the same for all of them. This is not
because sorting is stable, but because there is nothing to be stable about: no two files have the
same names, so a sorted list of them is determined by its members.

## Paths and names

Tests are sorted by the names that lead to them, and categories are made from these names. Both are
the same as working with paths: the parts of a file's path are those of the folder's path and then
the names (`TestFile.parts_path`), and names joined with slashes are what a path from nowhere looks
like (`Path.foldl_join_eq_intercalate`). Two folders may spell the same category, since backslashes
are read as slashes; their tests are then sorted together.

## Main definitions

* `Suite.Groups` — what the suite of a tree has to be.

## Main results

* `Suite.ofFiles_eq_of_perm` — the order in which files are found does not matter.
* `suite_groups_tests` — the suite of a tree is what it has to be, for every order of listing.
-/

namespace Flowscript

namespace Path

/-! ### Parts of joined paths -/

/-- One character of a path that is cut at slashes, from the right. -/
def cutStep (c : Char) (p : List Char × List (List Char)) : List Char × List (List Char) :=
  if c = '/' then ([], p.1 :: p.2) else (c :: p.1, p.2)

theorem parts_eq_cut (path : String) :
    parts path = ((path.toList.foldr cutStep ([], [])).1 ::
      (path.toList.foldr cutStep ([], [])).2).map String.ofList := rfl

theorem foldr_cutStep (cs : List Char) (tail : List (List Char)) :
    cs.foldr cutStep ([], tail) =
      ((cs.foldr cutStep ([], [])).1, (cs.foldr cutStep ([], [])).2 ++ tail) := by
  induction cs with
  | nil => rfl
  | cons c cs ih =>
    rw [List.foldr_cons, List.foldr_cons, ih]
    by_cases hc : c = '/' <;> simp [cutStep, hc]

theorem parts_append_slash (p q : String) : parts (p ++ "/" ++ q) = parts p ++ parts q := by
  have hlist : (p ++ "/" ++ q).toList = p.toList ++ '/' :: q.toList := by simp
  rw [parts_eq_cut, hlist, List.foldr_append, List.foldr_cons]
  rw [show cutStep '/' (q.toList.foldr cutStep ([], [])) =
    ([], (q.toList.foldr cutStep ([], [])).1 :: (q.toList.foldr cutStep ([], [])).2) from rfl]
  rw [foldr_cutStep, parts_eq_cut, parts_eq_cut, ← List.map_append, List.cons_append]

theorem parts_of_isName {name : String} (h : IsName name) : parts name = [name] := by
  have hcut : ∀ cs : List Char, '/' ∉ cs → cs.foldr cutStep ([], []) = (cs, []) := by
    intro cs hcs
    induction cs with
    | nil => rfl
    | cons c cs ih =>
      rw [List.mem_cons, not_or] at hcs
      rw [List.foldr_cons, ih hcs.2, cutStep, if_neg (Ne.symm hcs.1)]
  rw [parts_eq_cut, hcut _ h.2]
  simp

/-- A path that a name can be joined to with a slash. -/
def EndsInName (path : String) : Prop := path ≠ "" ∧ path.toList.getLast? ≠ some '/'

theorem IsName.endsInName_append {name : String} (h : IsName name) (front : String) :
    EndsInName (front ++ name) := by
  have hne : name.toList ≠ [] := by simpa using h.1
  constructor
  · intro hempty
    simp [h.1] at hempty
  · rw [String.toList_append, List.getLast?_append_of_ne_nil _ hne]
    intro hlast
    exact h.2 (List.mem_of_getLast? hlast)

theorem join_of_endsInName {path : String} (h : EndsInName path) (name : String) :
    join path name = path ++ "/" ++ name := by
  rw [join, if_neg h.1, if_neg h.2]

theorem endsInName_join {name : String} (h : IsName name) (path : String) :
    EndsInName (join path name) := by
  rw [join]
  split
  · simpa using h.endsInName_append ""
  split
  · exact h.endsInName_append path
  · exact h.endsInName_append (path ++ "/")

/-- The parts of a path that stay in front of a name that is joined to it. -/
def front (path : String) : List String :=
  if path = "" then []
  else if path.toList.getLast? = some '/' then (parts path).dropLast
  else parts path

theorem front_of_endsInName {path : String} (h : EndsInName path) : front path = parts path := by
  rw [front, if_neg h.1, if_neg h.2]

theorem parts_join {name : String} (h : IsName name) (path : String) :
    parts (join path name) = front path ++ [name] := by
  by_cases hempty : path = ""
  · rw [join, front, if_pos hempty, if_pos hempty, parts_of_isName h, List.nil_append]
  by_cases hlast : path.toList.getLast? = some '/'
  · obtain ⟨outer, rfl⟩ : ∃ outer : String, path = outer ++ "/" := by
      obtain ⟨cs, hcs⟩ := List.getLast?_eq_some_iff.mp hlast
      exact ⟨String.ofList cs, String.toList_inj.mp (by simpa using hcs)⟩
    have houter : parts (outer ++ "/") = parts outer ++ [""] := by
      rw [← String.append_empty (s := outer ++ "/"), parts_append_slash]
      rfl
    rw [join, front, if_neg hempty, if_neg hempty, if_pos hlast, if_pos hlast, houter,
      List.dropLast_concat, parts_append_slash, parts_of_isName h]
  · rw [join_of_endsInName ⟨hempty, hlast⟩, front_of_endsInName ⟨hempty, hlast⟩,
      parts_append_slash, parts_of_isName h]

theorem front_foldl_join {names : List String} (h : ∀ name ∈ names, IsName name) (path : String) :
    front (names.foldl join path) = front path ++ names := by
  induction names generalizing path with
  | nil => rw [List.foldl_nil, List.append_nil]
  | cons name names ih =>
    obtain ⟨hname, hnames⟩ := List.forall_mem_cons.mp h
    rw [List.foldl_cons, ih hnames, front_of_endsInName (endsInName_join hname path),
      parts_join hname, List.append_assoc, List.singleton_append]

/-- Names joined one after the other are joined with slashes. -/
theorem foldl_join_eq_intercalate {names : List String} (h : ∀ name ∈ names, IsName name) :
    names.foldl join "" = String.intercalate "/" names := by
  -- behind a path that ends with a name, every name comes with a slash
  have hbehind : ∀ (names : List String) (path : String), (∀ name ∈ names, IsName name) →
      EndsInName path → names.foldl join path = String.intercalate "/" (path :: names) := by
    intro names
    induction names with
    | nil =>
      intro path _ _
      simp
    | cons name names ih =>
      intro path hnames hpath
      obtain ⟨hname, hnames⟩ := List.forall_mem_cons.mp hnames
      rw [List.foldl_cons, ih _ hnames (endsInName_join hname path), join_of_endsInName hpath,
        String.intercalate_cons_cons]
      cases names with
      | nil => simp
      | cons next names =>
        rw [String.intercalate_cons_cons, String.intercalate_cons_cons]
        simp only [String.append_assoc]
  cases names with
  | nil => rfl
  | cons name names =>
    obtain ⟨hname, hnames⟩ := List.forall_mem_cons.mp h
    rw [List.foldl_cons, join, if_pos rfl]
    exact hbehind names name hnames (by simpa using hname.endsInName_append "")

end Path

/-! ### Order -/

namespace TestFile

theorem namesLE_iff {a b : List String} : namesLE a b = true ↔ ¬b < a := by
  induction a generalizing b with
  | nil => simp [namesLE]
  | cons x a ih =>
    cases b with
    | nil => simp [namesLE]
    | cons y b =>
      rw [namesLE, List.cons_lt_cons_iff]
      by_cases hxy : x = y
      · subst hxy
        simp [ih]
      · have hyx : y ≠ x := fun heq => hxy heq.symm
        simp only [hxy, hyx, if_false, false_and, or_false, decide_eq_true_eq]
        exact ⟨fun hlt => lt_asymm hlt, fun hlt => lt_of_le_of_ne (not_lt.mp hlt) hxy⟩

/-- The parts of a file's path are those of the folder's path, and then the names. -/
theorem parts_path {f : TestFile} (hne : f.names ≠ []) (h : ∀ name ∈ f.names, Path.IsName name)
    (root : String) : Path.parts (f.path root) = Path.front root ++ f.names := by
  obtain ⟨folder, name, hnames⟩ : ∃ folder name, f.names = folder ++ [name] :=
    ⟨_, _, (List.dropLast_concat_getLast hne).symm⟩
  rw [hnames, List.forall_mem_append, List.forall_mem_singleton] at h
  rw [path, hnames, List.foldl_append, List.foldl_cons, List.foldl_nil, Path.parts_join h.2,
    Path.front_foldl_join h.1, List.append_assoc]

theorem isTest_iff {f : TestFile} :
    f.isTest = true ↔
      ∃ folder name, f.names = folder ++ [name] ∧ testSuffix.toList <:+ name.toList := by
  rw [isTest]
  rcases List.eq_nil_or_concat f.names with hnil | ⟨folder, name, hnames⟩
  · simp [hnil]
  · rw [List.concat_eq_append] at hnames
    simp [hnames, testStem?, List.isSuffixOf_iff_suffix, Option.isSome_iff_exists]

theorem category_of_names {f : TestFile} {folder : List String} {name : String}
    (hnames : f.names = folder ++ [name]) (h : ∀ name ∈ f.names, Path.IsName name) :
    f.category = (folder.foldl Path.join "").map fun c => if c = '\\' then '/' else c := by
  rw [hnames, List.forall_mem_append] at h
  rw [category, hnames, List.dropLast_concat, Path.foldl_join_eq_intercalate h.1]

end TestFile

namespace Suite

/-! ### Groups of files -/

/-- The files, sorted by the names that lead to them. -/
def inOrder (files : List TestFile) : List TestFile :=
  files.mergeSort fun f g => TestFile.namesLE f.names g.names

/-- The categories of files, sorted. -/
def categoryNames (files : List TestFile) : List String :=
  (files.map TestFile.category).eraseDups.mergeSort fun a b => decide (a ≤ b)

theorem ofFiles_eq (files : List TestFile) :
    ofFiles files =
      (categoryNames files).map fun c => (c, (inOrder files).filter (·.category = c)) := rfl

theorem mem_inOrder {files : List TestFile} {f : TestFile} : f ∈ inOrder files ↔ f ∈ files :=
  List.mem_mergeSort

theorem pairwise_inOrder {files : List TestFile} (h : (files.map TestFile.names).Nodup) :
    (inOrder files).Pairwise fun f g => f.names < g.names := by
  have hsorted : (inOrder files).Pairwise fun f g => TestFile.namesLE f.names g.names = true := by
    refine List.pairwise_mergeSort (fun a b c hab hbc => ?_) (fun a b => ?_) files
    · rw [TestFile.namesLE_iff, not_lt] at *
      exact hab.trans hbc
    · rw [Bool.or_eq_true, TestFile.namesLE_iff, TestFile.namesLE_iff, not_lt, not_lt]
      exact le_total _ _
  have hdistinct : (inOrder files).Pairwise fun f g => f.names ≠ g.names :=
    List.pairwise_map.mp (((List.mergeSort_perm files _).map TestFile.names).nodup_iff.mpr h)
  refine (hsorted.and hdistinct).imp ?_
  rintro f g ⟨hle, hne⟩
  exact lt_of_le_of_ne (not_lt.mp (TestFile.namesLE_iff.mp hle)) hne

/-- A list without its repetitions has none. -/
theorem nodup_eraseDups : ∀ l : List String, l.eraseDups.Nodup
  | [] => by simp
  | a :: l => by
    rw [List.eraseDups_cons, List.nodup_cons]
    exact ⟨by simp [List.mem_eraseDups], nodup_eraseDups _⟩
termination_by l => l.length
decreasing_by
  exact Nat.lt_succ_of_le (List.length_filter_le _ l)

theorem mem_categoryNames {files : List TestFile} {c : String} :
    c ∈ categoryNames files ↔ ∃ f ∈ files, f.category = c := by
  rw [categoryNames, List.mem_mergeSort, List.mem_eraseDups, List.mem_map]

theorem pairwise_categoryNames (files : List TestFile) :
    (categoryNames files).Pairwise (· < ·) := by
  have hsorted : (categoryNames files).Pairwise fun a b => decide (a ≤ b) = true := by
    refine List.pairwise_mergeSort (fun a b c hab hbc => ?_) (fun a b => ?_) _
    · rw [decide_eq_true_eq] at *
      exact le_trans hab hbc
    · rw [Bool.or_eq_true, decide_eq_true_eq, decide_eq_true_eq]
      exact le_total a b
  have hdistinct : (categoryNames files).Nodup :=
    (List.mergeSort_perm _ _).nodup_iff.mpr (nodup_eraseDups _)
  refine (hsorted.and hdistinct).imp ?_
  rintro a b ⟨hle, hne⟩
  exact lt_of_le_of_ne (of_decide_eq_true hle) hne

section Groups

variable {files files' : List TestFile} {c : String} {f : TestFile} {group : List TestFile}

theorem map_fst_ofFiles (files : List TestFile) :
    (ofFiles files).map Prod.fst = categoryNames files := by
  rw [ofFiles_eq, List.map_map]
  exact List.map_id _

theorem mem_ofFiles_iff :
    (c, group) ∈ ofFiles files ↔
      c ∈ categoryNames files ∧ (inOrder files).filter (·.category = c) = group := by
  rw [ofFiles_eq, List.mem_map]
  constructor
  · rintro ⟨c', hc, h⟩
    obtain ⟨rfl, rfl⟩ := Prod.mk.inj h
    exact ⟨hc, rfl⟩
  · rintro ⟨hc, rfl⟩
    exact ⟨c, hc, rfl⟩

/-- Every file is in the group of its category, and in no other. -/
theorem exists_mem_ofFiles_iff :
    (∃ group, (c, group) ∈ ofFiles files ∧ f ∈ group) ↔ f ∈ files ∧ f.category = c := by
  constructor
  · rintro ⟨group, hgroup, hf⟩
    obtain ⟨-, rfl⟩ := mem_ofFiles_iff.mp hgroup
    simpa [mem_inOrder] using hf
  · rintro ⟨hf, hc⟩
    have hname : c ∈ categoryNames files := mem_categoryNames.mpr ⟨f, hf, hc⟩
    exact ⟨_, mem_ofFiles_iff.mpr ⟨hname, rfl⟩, by simp [mem_inOrder, hf, hc]⟩

theorem ne_nil_of_mem_ofFiles (h : (c, group) ∈ ofFiles files) : group ≠ [] := by
  obtain ⟨hc, rfl⟩ := mem_ofFiles_iff.mp h
  obtain ⟨f, hf, hcategory⟩ := mem_categoryNames.mp hc
  refine List.ne_nil_of_mem (a := f) ?_
  simp [mem_inOrder, hf, hcategory]

theorem pairwise_of_mem_ofFiles (hfiles : (files.map TestFile.names).Nodup)
    (h : (c, group) ∈ ofFiles files) : group.Pairwise fun f g => f.names < g.names := by
  obtain ⟨-, rfl⟩ := mem_ofFiles_iff.mp h
  exact (pairwise_inOrder hfiles).filter _

/-- **Grouping loses and duplicates nothing.** -/
theorem perm_flatMap_ofFiles (hfiles : (files.map TestFile.names).Nodup) :
    ((ofFiles files).flatMap Prod.snd).Perm files := by
  have hnodup : ((ofFiles files).flatMap Prod.snd).Nodup := by
    rw [List.nodup_flatMap]
    constructor
    · rintro ⟨c, group⟩ hgroup
      refine (pairwise_of_mem_ofFiles hfiles hgroup).imp ?_
      rintro f g hlt rfl
      exact lt_irrefl _ hlt
    · rw [ofFiles_eq, List.pairwise_map]
      refine (pairwise_categoryNames files).imp ?_
      intro c c' hlt f hf hf'
      have hc : f.category = c := by simpa using (List.mem_filter.mp hf).2
      have hc' : f.category = c' := by simpa using (List.mem_filter.mp hf').2
      exact absurd (hc.symm.trans hc') (ne_of_lt hlt)
  refine (List.perm_ext_iff_of_nodup hnodup (List.Nodup.of_map _ hfiles)).mpr fun f => ?_
  rw [List.mem_flatMap]
  constructor
  · rintro ⟨⟨c, group⟩, hgroup, hf⟩
    exact (exists_mem_ofFiles_iff.mp ⟨group, hgroup, hf⟩).1
  · intro hf
    obtain ⟨group, hgroup, hmem⟩ := exists_mem_ofFiles_iff.mpr ⟨hf, rfl⟩
    exact ⟨_, hgroup, hmem⟩

/-- **The order in which files are found does not matter.** -/
theorem ofFiles_eq_of_perm (hfiles : (files.map TestFile.names).Nodup)
    (h : files.Perm files') : ofFiles files = ofFiles files' := by
  have hfiles' : (files'.map TestFile.names).Nodup := (h.map _).nodup_iff.mp hfiles
  have horder : inOrder files = inOrder files' := by
    refine List.Perm.eq_of_pairwise (fun f g _ _ hlt hlt' => absurd hlt' (lt_asymm hlt))
      (pairwise_inOrder hfiles) (pairwise_inOrder hfiles') ?_
    exact (List.mergeSort_perm _ _).trans (h.trans (List.mergeSort_perm _ _).symm)
  have hnames : categoryNames files = categoryNames files' := by
    have hpairwise := pairwise_categoryNames files
    have hpairwise' := pairwise_categoryNames files'
    refine List.Perm.eq_of_pairwise (fun a b _ _ hlt hlt' => absurd hlt' (lt_asymm hlt))
      hpairwise hpairwise' ?_
    refine (List.perm_ext_iff_of_nodup (hpairwise.imp ne_of_lt) (hpairwise'.imp ne_of_lt)).mpr ?_
    intro c
    simp only [mem_categoryNames, h.mem_iff]
  rw [ofFiles_eq, ofFiles_eq, horder, hnames]

end Groups

/-! ### The tests of a tree -/

section Tests

variable {t t' : FileTree} {f : TestFile}

theorem mem_testFiles : f ∈ testFiles t ↔ (f.names, f.content) ∈ t.files ∧ f.isTest = true := by
  rw [testFiles, List.mem_filter, List.mem_map]
  refine and_congr_left' ⟨?_, fun h => ⟨_, h, rfl⟩⟩
  rintro ⟨⟨names, content⟩, h, rfl⟩
  exact h

/-- The tests of a category are the files whose names end so, in folders whose path spells it. -/
theorem mem_testFiles_iff (ht : t.WellFormed) {c : String} :
    f ∈ testFiles t ∧ f.category = c ↔
      ∃ folder name, f.names = folder ++ [name] ∧ t.get f.names = .ok (.file f.content) ∧
        testSuffix.toList <:+ name.toList ∧
        c = (folder.foldl Path.join "").map fun ch => if ch = '\\' then '/' else ch := by
  rw [mem_testFiles, TestFile.isTest_iff]
  constructor
  · rintro ⟨⟨hfile, folder, name, hnames, hsuffix⟩, rfl⟩
    have hcategory := TestFile.category_of_names hnames (FileTree.isName_of_mem_files ht hfile)
    exact ⟨folder, name, hnames, ((FileTree.mem_files_iff ht).mp hfile).2, hsuffix, hcategory⟩
  · rintro ⟨folder, name, hnames, hget, hsuffix, rfl⟩
    have hfile := (FileTree.mem_files_iff ht).mpr ⟨by simp [hnames], hget⟩
    have hcategory := TestFile.category_of_names hnames (FileTree.isName_of_mem_files ht hfile)
    exact ⟨⟨hfile, folder, name, hnames, hsuffix⟩, hcategory⟩

theorem parts_path_of_mem_testFiles (ht : t.WellFormed) (hf : f ∈ testFiles t) (root : String) :
    Path.parts (f.path root) = Path.front root ++ f.names := by
  have hfile := (mem_testFiles.mp hf).1
  exact TestFile.parts_path ((FileTree.mem_files_iff ht).mp hfile).1
    (FileTree.isName_of_mem_files ht hfile) root

theorem nodup_testFiles (ht : t.WellFormed) : ((testFiles t).map TestFile.names).Nodup := by
  refine ((List.filter_sublist (p := TestFile.isTest)).map TestFile.names).nodup ?_
  rw [List.map_map]
  exact FileTree.nodup_files ht

theorem perm_testFiles (h : t.Relisted t') : (testFiles t).Perm (testFiles t') :=
  (h.perm_files.map _).filter _

end Tests

/-- What the suite of a tree has to be. -/
structure Groups (t : FileTree) (s : Suite) : Prop where
  /-- The categories are sorted, and each is there once. -/
  pairwise_category : (s.map Prod.fst).Pairwise (· < ·)
  /-- No category is empty. -/
  ne_nil : ∀ c group, (c, group) ∈ s → group ≠ []
  /-- The tests of a category are sorted by their paths, part by part, whatever the path of the
  folder is. -/
  pairwise_path : ∀ c group, (c, group) ∈ s → ∀ root, group.Pairwise fun f g =>
    Path.parts (f.path root) < Path.parts (g.path root)
  /-- No file is there twice. -/
  nodup_names : ((s.flatMap Prod.snd).map TestFile.names).Nodup
  /-- The files are those whose names end so, each in the category that the path of its folder
  spells, read from the folder that is searched. -/
  mem_iff : ∀ c f, (∃ group, (c, group) ∈ s ∧ f ∈ group) ↔
    ∃ folder name, f.names = folder ++ [name] ∧ t.get f.names = .ok (.file f.content) ∧
      ".test.fgs".toList <:+ name.toList ∧
      c = (folder.foldl Path.join "").map fun ch => if ch = '\\' then '/' else ch

end Suite

/-- **Discovery loses and duplicates nothing.** The suite of a tree holds every test below it once,
in its category, and nothing else; it is sorted, and it is the same for every order in which the
folders list their entries. -/
theorem suite_groups_tests {t : FileTree} (ht : t.WellFormed) :
    Suite.Groups t (Suite.ofTree t) ∧
      ∀ t', t.Relisted t' → Suite.ofTree t' = Suite.ofTree t := by
  have hnodup := Suite.nodup_testFiles ht
  refine ⟨⟨?_, ?_, ?_, ?_, ?_⟩, fun t' h => ?_⟩
  · rw [Suite.ofTree, Suite.map_fst_ofFiles]
    exact Suite.pairwise_categoryNames _
  · exact fun c group h => Suite.ne_nil_of_mem_ofFiles h
  · intro c group h root
    refine (Suite.pairwise_of_mem_ofFiles hnodup h).imp_of_mem ?_
    intro f g hf hg hlt
    have hmem {f : TestFile} (hf : f ∈ group) : f ∈ Suite.testFiles t :=
      (Suite.exists_mem_ofFiles_iff.mp ⟨group, h, hf⟩).1
    rw [Suite.parts_path_of_mem_testFiles ht (hmem hf),
      Suite.parts_path_of_mem_testFiles ht (hmem hg)]
    exact List.append_left_lt hlt
  · exact ((Suite.perm_flatMap_ofFiles hnodup).map TestFile.names).nodup_iff.mpr hnodup
  · exact fun c f => Suite.exists_mem_ofFiles_iff.trans (Suite.mem_testFiles_iff ht)
  · exact (Suite.ofFiles_eq_of_perm hnodup (Suite.perm_testFiles h)).symm

/-- Two folders that spell one category, and a folder that is called like a test. -/
theorem suite_groups_tests_nested :
    let inner : List (String × FileTree) :=
      [("x.test.fgs", .file "1".toUTF8), ("w.test.fgs", .file "2".toUTF8)]
    let rest : List (String × FileTree) :=
      [("a\\b", .folder [("x.test.fgs", .file "3".toUTF8)]), ("b.test.fgs", .folder [])]
    let t : FileTree := .folder (("a", .folder [("b", .folder inner)]) :: rest)
    let t' : FileTree := .folder (("a", .folder [("b", .folder inner.reverse)]) :: rest)
    Suite.Groups t (Suite.ofTree t) ∧ Suite.ofTree t' = Suite.ofTree t ∧
      (∃ group, ("a/b", group) ∈ Suite.ofTree t' ∧
        ⟨["a", "b", "x.test.fgs"], "1".toUTF8⟩ ∈ group) ∧
      ∃ group, ("a/b", group) ∈ Suite.ofTree t' ∧
        ⟨["a\\b", "x.test.fgs"], "3".toUTF8⟩ ∈ group := by
  intro inner rest t t'
  have ht : t.WellFormed := by
    refine .folder (by decide) (by decide) (.folder (by decide) (by decide) ?_ .nil)
      (.folder (by decide) (by decide) ?_
        (.folder (by decide) (by decide) .nil .nil))
    · exact .file (by decide) (by decide) (.file (by decide) (by decide) .nil)
    · exact .file (by decide) (by decide) .nil
  obtain ⟨hgroups, hrelisted⟩ := suite_groups_tests ht
  have hreverse := FileTree.relisted_of_perm (List.reverse_perm inner).symm
  have hsame := hrelisted t' (.inside "a" rest (.inside "b" [] hreverse))
  refine ⟨hgroups, hsame, ?_, ?_⟩
  · rw [hsame, hgroups.mem_iff]
    refine ⟨["a", "b"], "x.test.fgs", rfl, rfl, by decide, String.toList_inj.mp ?_⟩
    rw [String.toList_map]
    decide
  · rw [hsame, hgroups.mem_iff]
    refine ⟨["a\\b"], "x.test.fgs", rfl, rfl, by decide, String.toList_inj.mp ?_⟩
    rw [String.toList_map]
    decide

end Flowscript
