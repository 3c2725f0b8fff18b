import Flowscript.Proofs.Files
import Mathlib.Data.List.Nodup

/-!
# The files below a folder

`FileTree.files` walks through a tree and lists every file with the names that lead to it. It finds
each file once, and finds it where its names lead.

## What a tree has to be

A folder is a list of entries, and nothing in the type keeps two of them from having the same name;
`FileTree.get` would then see the first one only, while the walk would see both. `WellFormed` says
that names are names and that no two entries of a folder share one, at any depth. This is what a
file system promises, and only results that speak of names need it. That the walk does not depend on
the order of the entries, up to the order of what it finds, holds of every tree.

## Main definitions

* `FileTree.WellFormed` — every folder has different names for its entries.
* `FileTree.Relisted` — the same tree, with its folders listed in another order.

## Main results

* `FileTree.mem_files_iff` — what is found is what the names lead to.
* `FileTree.nodup_files` — nothing is found twice.
* `FileTree.Relisted.perm_files` — the same files are found in every order of listing.
-/

namespace Flowscript

/-- A name that something in a folder can have. -/
def Path.IsName (name : String) : Prop := name ≠ "" ∧ '/' ∉ name.toList

instance Path.decidableIsName (name : String) : Decidable (Path.IsName name) :=
  inferInstanceAs (Decidable (name ≠ "" ∧ '/' ∉ name.toList))

namespace FileTree

/-! ### Well-formed trees -/

/-- Entries that a folder can have: they have different names, and so have those in the folders
among them. -/
inductive WellListed : List (String × FileTree) → Prop
  /-- An empty folder. -/
  | nil : WellListed []
  /-- One more file. -/
  | file {name : String} {content : ByteArray} {rest : List (String × FileTree)}
      (hname : Path.IsName name) (hnew : name ∉ rest.map Prod.fst) (hrest : WellListed rest) :
      WellListed ((name, .file content) :: rest)
  /-- One more folder. -/
  | folder {name : String} {entries rest : List (String × FileTree)}
      (hname : Path.IsName name) (hnew : name ∉ rest.map Prod.fst)
      (hentries : WellListed entries) (hrest : WellListed rest) :
      WellListed ((name, .folder entries) :: rest)

/-- A tree in which every folder has different names for its entries. -/
def WellFormed : FileTree → Prop
  | .file _ => True
  | .folder entries => WellListed entries

/-! ### What is found -/

theorem get_cons_of_eq (name : String) (t : FileTree) (rest : List (String × FileTree))
    (names : List String) :
    get (name :: names) (.folder ((name, t) :: rest)) = get names t := by
  simp [get, entry?_folder, bind, Except.bind]

theorem get_cons_of_ne {name first : String} (h : first ≠ name) (t : FileTree)
    (rest : List (String × FileTree)) (names : List String) :
    get (first :: names) (.folder ((name, t) :: rest)) = get (first :: names) (.folder rest) := by
  simp [get, entry?_folder, List.lookup_cons, beq_false_of_ne h]

/-- What is found below entries is found below one of them. -/
theorem exists_of_mem_filesOf {entries : List (String × FileTree)} {names : List String}
    {content : ByteArray} (h : (names, content) ∈ filesOf entries) :
    ∃ first rest, names = first :: rest ∧ first ∈ entries.map Prod.fst := by
  fun_induction filesOf entries with
  | case1 => exact absurd h List.not_mem_nil
  | case2 name bytes rest ih =>
    rcases List.mem_cons.mp h with h | h
    · obtain ⟨rfl, -⟩ := Prod.mk.inj h
      exact ⟨name, [], rfl, List.mem_cons_self⟩
    · obtain ⟨first, more, rfl, hfirst⟩ := ih h
      exact ⟨first, more, rfl, List.mem_cons_of_mem _ hfirst⟩
  | case3 name inner rest ihinner ih =>
    rcases List.mem_append.mp h with h | h
    · obtain ⟨⟨names', content'⟩, -, h⟩ := List.mem_map.mp h
      obtain ⟨rfl, -⟩ := Prod.mk.inj h
      exact ⟨name, names', rfl, List.mem_cons_self⟩
    · obtain ⟨first, more, rfl, hfirst⟩ := ih h
      exact ⟨first, more, rfl, List.mem_cons_of_mem _ hfirst⟩

/-- Names that begin with a new name lead to nothing. -/
theorem get_of_not_mem {first : String} {entries : List (String × FileTree)}
    (h : first ∉ entries.map Prod.fst) (names : List String) :
    get (first :: names) (.folder entries) = .error .notFound := by
  have hnone : entries.lookup first = none := by
    rw [List.lookup_eq_none_iff]
    intro entry hentry
    refine bne_iff_ne.mpr ?_
    rintro rfl
    exact h (List.mem_map_of_mem hentry)
  simp [get, entry?_folder, hnone, bind, Except.bind]

theorem mem_filesOf_iff {entries : List (String × FileTree)} (hentries : WellListed entries)
    {names : List String} {content : ByteArray} :
    (names, content) ∈ filesOf entries ↔ get names (.folder entries) = .ok (.file content) := by
  induction hentries generalizing names with
  | nil => cases names <;> simp [filesOf, get, entry?_folder, bind, Except.bind]
  | @file name bytes rest _ hnew _ ih =>
    rw [filesOf, List.mem_cons, ih]
    cases names with
    | nil => simp [get]
    | cons first names =>
      by_cases hfirst : first = name
      · subst hfirst
        rw [get_cons_of_eq, get_of_not_mem hnew]
        cases names with
        | nil => simp [get, eq_comm]
        | cons second names => simp [get, entry?, bind, Except.bind]
      · rw [get_cons_of_ne hfirst]
        simp [hfirst]
  | @folder name inner rest _ hnew _ _ ihinner ih =>
    rw [filesOf, List.mem_append, ih]
    cases names with
    | nil => simp [get]
    | cons first names =>
      by_cases hfirst : first = name
      · subst hfirst
        rw [get_cons_of_eq, get_of_not_mem hnew, ← ihinner]
        simp
      · have hne : name ≠ first := fun heq => hfirst heq.symm
        rw [get_cons_of_ne hfirst]
        simp [hne]

theorem nodup_filesOf {entries : List (String × FileTree)} (hentries : WellListed entries) :
    ((filesOf entries).map Prod.fst).Nodup := by
  -- below an entry with a new name, nothing is found that is found below the others
  have hother {name : String} {rest : List (String × FileTree)} (hnew : name ∉ rest.map Prod.fst)
      (names : List String) : name :: names ∉ (filesOf rest).map Prod.fst := by
    intro hmem
    obtain ⟨⟨names', content⟩, hfile, rfl⟩ := List.mem_map.mp hmem
    obtain ⟨first, more, heq, hfirst⟩ := exists_of_mem_filesOf hfile
    obtain ⟨rfl, -⟩ := List.cons.inj heq
    exact hnew hfirst
  induction hentries with
  | nil => simp [filesOf]
  | file _ hnew _ ih =>
    rw [filesOf, List.map_cons, List.nodup_cons]
    exact ⟨hother hnew [], ih⟩
  | @folder name inner rest _ hnew _ _ ihinner ih =>
    have hinner := ihinner.map (List.cons_injective (a := name))
    rw [filesOf, List.map_append, List.nodup_append']
    refine ⟨by simpa [Function.comp_def] using hinner, ih, ?_⟩
    intro names hnames hrest
    rw [List.map_map, List.mem_map] at hnames
    obtain ⟨file, -, rfl⟩ := hnames
    exact hother hnew file.1 hrest

/-- The names that lead to a file are names. -/
theorem isName_of_mem_filesOf {entries : List (String × FileTree)} (hentries : WellListed entries)
    {names : List String} {content : ByteArray} (h : (names, content) ∈ filesOf entries) :
    ∀ name ∈ names, Path.IsName name := by
  induction hentries generalizing names with
  | nil => simp [filesOf] at h
  | file hname _ _ ih =>
    rw [filesOf] at h
    rcases List.mem_cons.mp h with h | h
    · obtain ⟨rfl, -⟩ := Prod.mk.inj h
      simpa using hname
    · exact ih h
  | folder hname _ _ _ ihinner ih =>
    rw [filesOf] at h
    rcases List.mem_append.mp h with h | h
    · obtain ⟨⟨names', content'⟩, hfile, h⟩ := List.mem_map.mp h
      obtain ⟨rfl, rfl⟩ := Prod.mk.inj h
      exact List.forall_mem_cons.mpr ⟨hname, ihinner hfile⟩
    · exact ih h

section WellFormed

variable {t : FileTree} {names : List String} {content : ByteArray}

/-- **What is found below a folder** is what the names lead to. -/
theorem mem_files_iff (ht : t.WellFormed) :
    (names, content) ∈ t.files ↔ names ≠ [] ∧ t.get names = .ok (.file content) := by
  cases t with
  | file bytes => cases names <;> simp [files, get, entry?, bind, Except.bind]
  | folder entries =>
    rw [files, mem_filesOf_iff ht]
    refine ⟨fun h => ⟨?_, h⟩, And.right⟩
    rintro rfl
    simp [get] at h

/-- **Nothing is found twice.** -/
theorem nodup_files (ht : t.WellFormed) : (t.files.map Prod.fst).Nodup := by
  cases t with
  | file bytes => exact List.nodup_nil
  | folder entries => exact nodup_filesOf ht

theorem isName_of_mem_files (ht : t.WellFormed) (h : (names, content) ∈ t.files) :
    ∀ name ∈ names, Path.IsName name := by
  cases t with
  | file bytes => exact absurd h List.not_mem_nil
  | folder entries => exact isName_of_mem_filesOf ht h

end WellFormed

/-! ### Orders of listing -/

/-- The same tree, with the entries of its folders in another order: neighbours change places, in
any folder and any number of times. -/
inductive Relisted : FileTree → FileTree → Prop
  | refl (t : FileTree) : Relisted t t
  | trans {t t' t'' : FileTree} (h : Relisted t t') (h' : Relisted t' t'') : Relisted t t''
  /-- The first two entries change places. -/
  | swap (x y : String × FileTree) (rest : List (String × FileTree)) :
      Relisted (.folder (x :: y :: rest)) (.folder (y :: x :: rest))
  /-- The entries behind the first one are in another order. -/
  | cons (x : String × FileTree) {rest rest' : List (String × FileTree)}
      (h : Relisted (.folder rest) (.folder rest')) :
      Relisted (.folder (x :: rest)) (.folder (x :: rest'))
  /-- The entries of the first entry are in another order. -/
  | inside (name : String) {entries entries' : List (String × FileTree)}
      (rest : List (String × FileTree)) (h : Relisted (.folder entries) (.folder entries')) :
      Relisted (.folder ((name, .folder entries) :: rest))
        (.folder ((name, .folder entries') :: rest))

/-- Every order of the entries of a folder is an order of listing. -/
theorem relisted_of_perm {entries entries' : List (String × FileTree)}
    (h : entries.Perm entries') : Relisted (.folder entries) (.folder entries') := by
  induction h with
  | nil => exact .refl _
  | cons x _ ih => exact .cons x ih
  | swap x y rest => exact .swap y x rest
  | trans _ _ ih ih' => exact ih.trans ih'

theorem filesOf_cons (x : String × FileTree) (rest : List (String × FileTree)) :
    filesOf (x :: rest) = filesOf [x] ++ filesOf rest := by
  obtain ⟨name, t⟩ := x
  cases t <;> simp [filesOf]

/-- **The same files are found** in every order of listing. -/
theorem Relisted.perm_files {t t' : FileTree} (h : Relisted t t') : t.files.Perm t'.files := by
  induction h with
  | refl t => exact List.Perm.refl _
  | trans _ _ ih ih' => exact ih.trans ih'
  | swap x y rest =>
    rw [files, files, filesOf_cons x (y :: rest), filesOf_cons y rest, filesOf_cons y (x :: rest),
      filesOf_cons x rest, ← List.append_assoc, ← List.append_assoc]
    exact List.perm_append_comm.append_right _
  | @cons x rest rest' _ ih =>
    rw [files, files] at ih ⊢
    rw [filesOf_cons x rest, filesOf_cons x rest']
    exact ih.append_left _
  | inside name rest _ ih =>
    simp only [files, filesOf] at ih ⊢
    exact (ih.map _).append_right _

end FileTree

end Flowscript
