import Flowscript.Files.Disk
import Mathlib.Data.List.Basic

/-!
# Writing a file changes nothing else

A disk is a tree, and a file is written by rebuilding the folders on the way to it. What that comes
to is said here place by place: a place is the list of names that lead to it from the root, and
`kindAt` tells what stands there.

## Places, not subtrees

The folders around a written file are different trees afterwards, because the file is in them. So
"nothing else changes" cannot be said of what `FileTree.get` gives. It is said of what stands at
each place by itself: a file with its bytes, or a folder. What a folder holds is a matter of the
places inside it.

## Paths

A path is text, and different paths may lead to the same place. `Disk.write` finds the place that a
path names, and the same path leads to this place afterwards, also where the file was not there
before (`Disk.written_of_write`). The folders on the way are only ever passed through, so it is
enough that writing keeps folders and makes nothing disappear (`Disk.follow_mono`).

## Main definitions

* `EntryKind`, `FileTree.kindAt` — what stands at a place.
* `Disk.Written` — one file was written, and nothing else.

## Main results

* `FileTree.kindAt_put` — read after write, for all places at once.
* `Disk.written_of_write` — what writing to a path does to a disk.
-/

namespace Flowscript

/-- What stands at a place. -/
inductive EntryKind where
  /-- A file with its bytes. -/
  | file (content : ByteArray)
  /-- A folder, whatever is in it. -/
  | folder

namespace FileTree

/-! ### What stands at a place -/

/-- What a tree is, by itself. -/
def kind : FileTree → EntryKind
  | .file content => .file content
  | .folder _ => .folder

/-- What stands at the place that names lead to, if there is anything. -/
def kindAt (t : FileTree) (place : List String) : Option EntryKind :=
  match t.get place with
  | .ok found => some found.kind
  | .error _ => none

@[simp] theorem kindAt_nil (t : FileTree) : t.kindAt [] = some t.kind := rfl

@[simp] theorem kindAt_file_cons (content : ByteArray) (name : String) (place : List String) :
    (FileTree.file content).kindAt (name :: place) = none := rfl

theorem entry?_folder (name : String) (entries : List (String × FileTree)) :
    entry? name (.folder entries) =
      match entries.lookup name with
      | some t => .ok t
      | none => .error .notFound := rfl

theorem kindAt_folder_cons (entries : List (String × FileTree)) (name : String)
    (place : List String) :
    (FileTree.folder entries).kindAt (name :: place) =
      (entries.lookup name).bind (kindAt · place) := by
  rw [kindAt, get, entry?_folder]
  cases entries.lookup name <;> rfl

theorem kindAt_eq_file_iff {t : FileTree} {place : List String} {content : ByteArray} :
    t.kindAt place = some (.file content) ↔ t.get place = .ok (.file content) := by
  rw [kindAt]
  cases t.get place with
  | error e => simp
  | ok found => cases found <;> simp [kind]

theorem kindAt_eq_folder_iff {t : FileTree} {place : List String} :
    t.kindAt place = some .folder ↔ ∃ entries, t.get place = .ok (.folder entries) := by
  rw [kindAt]
  cases t.get place with
  | error e => simp
  | ok found => cases found <;> simp [kind]

/-! ### Read after write -/

/-- Replacing the entries of a name changes no others. -/
theorem lookup_replace (name other : String) (t : FileTree) (entries : List (String × FileTree)) :
    (entries.map fun (n, old) => if n == name then (n, t) else (n, old)).lookup other =
      if other = name then (entries.lookup name).map fun _ => t else entries.lookup other := by
  induction entries with
  | nil => by_cases h : other = name <;> simp [h]
  | cons entry entries ih =>
    obtain ⟨n, old⟩ := entry
    by_cases hn : n = name
    · subst hn
      by_cases h : other = n
      · simp [h]
      · have hne : (other == n) = false := beq_false_of_ne h
        simpa [h, List.lookup_cons, hne] using ih
    · have hname : (name == n) = false := beq_false_of_ne (Ne.symm hn)
      by_cases h : other = n
      · subst h
        simp [hn]
      · have hne : (other == n) = false := beq_false_of_ne h
        simpa [hn, List.lookup_cons, hne, hname] using ih

/-- Read after write, inside one folder. -/
theorem lookup_putEntry (name other : String) (t : FileTree) (entries : List (String × FileTree)) :
    (putEntry name t entries).lookup other =
      if other = name then some t else entries.lookup other := by
  rw [putEntry]
  cases hold : entries.lookup name with
  | some old => rw [Option.isSome_some, if_pos rfl, lookup_replace, hold, Option.map_some]
  | none =>
    rw [Option.isSome_none, if_neg Bool.false_ne_true, List.lookup_append]
    by_cases h : other = name
    · simp [h, hold]
    · have hne : (other == name) = false := beq_false_of_ne h
      simp [h, List.lookup_cons, hne]

/-- **Read after write.** If a folder stands at `folder`, and no folder at the name that is written
in it, then the file stands at its place and all other places are as before. -/
theorem kindAt_put {name : String} {content : ByteArray} {folder : List String} {root : FileTree}
    (hfolder : root.kindAt folder = some .folder)
    (hname : root.kindAt (folder ++ [name]) ≠ some .folder) (place : List String) :
    (put name content folder root).kindAt place =
      if place = folder ++ [name] then some (.file content) else root.kindAt place := by
  induction folder generalizing root place with
  | nil =>
    cases root with
    | file bytes => simp [kind] at hfolder
    | folder entries =>
      cases place with
      | nil => rfl
      | cons first rest =>
        rw [put, kindAt_folder_cons, kindAt_folder_cons, lookup_putEntry]
        by_cases hfirst : first = name
        · subst hfirst
          cases rest with
          | nil => simp [kind]
          | cons second rest =>
            -- nothing stands below a file, and no folder stood here
            have hbelow : (entries.lookup first).bind (kindAt · (second :: rest)) = none := by
              cases hold : entries.lookup first with
              | none => rfl
              | some old =>
                cases old with
                | file bytes => rfl
                | folder inner => simp [kindAt_folder_cons, hold, kind] at hname
            simp [hbelow]
        · simp [hfirst]
  | cons next folder ih =>
    cases root with
    | file bytes => simp at hfolder
    | folder entries =>
      rw [kindAt_folder_cons] at hfolder
      obtain ⟨t, ht, hinner⟩ := Option.bind_eq_some_iff.mp hfolder
      rw [List.cons_append, kindAt_folder_cons, ht, Option.bind_some] at hname
      rw [put, ht]
      cases place with
      | nil => rfl
      | cons first rest =>
        rw [kindAt_folder_cons, kindAt_folder_cons, lookup_putEntry]
        by_cases hfirst : first = next
        · subst hfirst
          simp [ht, ih hinner hname rest]
        · simp [hfirst]

theorem get_append (place rest : List String) (t : FileTree) :
    t.get (place ++ rest) = (t.get place).bind (get rest) := by
  induction place generalizing t with
  | nil => rfl
  | cons name place ih =>
    rw [List.cons_append, get, get]
    cases t.entry? name with
    | error e => rfl
    | ok inner => exact ih inner

/-- What stands in a folder is what its entries are. -/
theorem kindAt_concat {t : FileTree} {place : List String} {entries : List (String × FileTree)}
    (h : t.get place = .ok (.folder entries)) (name : String) :
    t.kindAt (place ++ [name]) = (entries.lookup name).map kind := by
  rw [kindAt, get_append, h]
  show (match (FileTree.folder entries).get [name] with | .ok found => _ | .error _ => none) = _
  rw [get, entry?_folder]
  cases entries.lookup name <;> rfl

end FileTree

namespace Disk

/-! ### Following a path -/

theorem follow_cons_of_folder {root : FileTree} {place : List String}
    {entries : List (String × FileTree)} (h : root.get place = .ok (.folder entries))
    (part : String) (rest : List String) :
    follow root place (part :: rest) =
      if Path.isHere part = true then follow root place rest
      else if part = ".." then follow root place.dropLast rest
      else if part.utf8ByteSize > longestName then .error .nameTooLong
      else if (root.kindAt (place ++ [part])).isSome = true then follow root (place ++ [part]) rest
      else .error .notFound := by
  rw [follow, h, FileTree.kindAt_concat h]
  show (if Path.isHere part = true then follow root place rest
    else if part = ".." then follow root place.dropLast rest
    else if part.utf8ByteSize > longestName then .error .nameTooLong
    else do
      let _ ← FileTree.entry? part (.folder entries)
      follow root (place ++ [part]) rest) = _
  rw [FileTree.entry?_folder]
  cases entries.lookup part <;> rfl

theorem kindAt_of_follow_cons {root : FileTree} {place target : List String} {part : String}
    {rest : List String} (h : follow root place (part :: rest) = .ok target) :
    root.kindAt place = some .folder := by
  rw [follow] at h
  rw [FileTree.kindAt_eq_folder_iff]
  cases hget : root.get place with
  | error e =>
    rw [hget] at h
    exact nomatch h
  | ok t =>
    rw [hget] at h
    cases t with
    | file content => exact nomatch h
    | folder entries => exact ⟨entries, rfl⟩

/-- **One part of a path.** A folder has to stand where the path has led so far. A part that means
"here" or "around" is followed there; a name has to be the name of something. -/
theorem follow_cons_eq_ok_iff {root : FileTree} {place target : List String} {part : String}
    {rest : List String} :
    follow root place (part :: rest) = .ok target ↔
      root.kindAt place = some .folder ∧
        ((Path.isHere part = true ∧ follow root place rest = .ok target) ∨
          (Path.isHere part = false ∧ part = ".." ∧
            follow root place.dropLast rest = .ok target) ∨
          (Path.isHere part = false ∧ part ≠ ".." ∧ part.utf8ByteSize ≤ longestName ∧
            (root.kindAt (place ++ [part])).isSome = true ∧
            follow root (place ++ [part]) rest = .ok target)) := by
  by_cases hplace : root.kindAt place = some .folder
  · obtain ⟨entries, hget⟩ := FileTree.kindAt_eq_folder_iff.mp hplace
    rw [follow_cons_of_folder hget, and_iff_right hplace]
    by_cases hhere : Path.isHere part = true
    · simp [hhere]
    · by_cases hup : part = ".."
      · subst hup
        simp [show Path.isHere ".." = false from rfl]
      · by_cases hlength : part.utf8ByteSize > longestName
        · have hlong : ¬part.utf8ByteSize ≤ longestName := by omega
          simp [hhere, hup, hlength, hlong]
        · have hfits : part.utf8ByteSize ≤ longestName := by omega
          by_cases hsome : (root.kindAt (place ++ [part])).isSome = true
          · simp [hhere, hup, hlength, hfits, hsome]
          · simp [hhere, hup, hlength, hsome]
  · constructor
    · intro h
      exact absurd (kindAt_of_follow_cons h) hplace
    · rintro ⟨h, -⟩
      exact absurd h hplace

/-- A path leads to the same place in every tree that has at least these folders and entries. -/
theorem follow_mono {root root' : FileTree}
    (hfolder : ∀ place, root.kindAt place = some .folder → root'.kindAt place = some .folder)
    (hentry : ∀ place, (root.kindAt place).isSome = true → (root'.kindAt place).isSome = true)
    {place target : List String} {parts : List String}
    (h : follow root place parts = .ok target) : follow root' place parts = .ok target := by
  induction parts generalizing place with
  | nil => exact h
  | cons part rest ih =>
    rw [follow_cons_eq_ok_iff] at h ⊢
    obtain ⟨hplace, h⟩ := h
    refine ⟨hfolder place hplace, ?_⟩
    rcases h with ⟨hhere, hrest⟩ | ⟨hhere, hup, hrest⟩ | ⟨hhere, hup, hlength, hsome, hrest⟩
    · exact .inl ⟨hhere, ih hrest⟩
    · exact .inr (.inl ⟨hhere, hup, ih hrest⟩)
    · exact .inr (.inr ⟨hhere, hup, hlength, hentry _ hsome, ih hrest⟩)

theorem follow_append {root : FileTree} {place middle target : List String}
    {parts rest : List String} (h : follow root place parts = .ok middle)
    (hrest : follow root middle rest = .ok target) :
    follow root place (parts ++ rest) = .ok target := by
  induction parts generalizing place with
  | nil =>
    obtain rfl := Except.ok.inj h
    exact hrest
  | cons part parts ih =>
    rw [List.cons_append]
    rw [follow_cons_eq_ok_iff] at h ⊢
    obtain ⟨hplace, h⟩ := h
    refine ⟨hplace, ?_⟩
    rcases h with ⟨hhere, h⟩ | ⟨hhere, hup, h⟩ | ⟨hhere, hup, hlength, hsome, h⟩
    · exact .inl ⟨hhere, ih h⟩
    · exact .inr (.inl ⟨hhere, hup, ih h⟩)
    · exact .inr (.inr ⟨hhere, hup, hlength, hsome, ih h⟩)

/-! ### Writing to a path -/

/-- One file was written to a path, and nothing else. -/
structure Written (d : Disk) (path : String) (content : ByteArray) (d' : Disk) : Prop where
  /-- The path leads to the file now. -/
  at?_eq : d'.at? path = .ok (.file content)
  /-- All places but the one that the path leads to are as they were. -/
  exists_place : ∃ place, d'.locate path = .ok place ∧
    ∀ other, other ≠ place → d'.root.kindAt other = d.root.kindAt other
  /-- The working folder is the same. -/
  here_eq : d'.here = d.here

/-- What succeeds in two steps succeeds in each. -/
theorem exists_of_bind_eq_ok {α β : Type} {x : Except FileError α} {f : α → Except FileError β}
    {b : β} (h : x >>= f = .ok b) : ∃ a, x = .ok a ∧ f a = .ok b := by
  cases x with
  | error e => exact nomatch h
  | ok a => exact ⟨a, rfl, h⟩

/-- What it takes to write to a path: a name at its end, a folder in front of it, and no folder of
that name. -/
theorem exists_of_write {d d' : Disk} {path : String} {content : ByteArray}
    (h : d.write path content = .ok d') :
    ∃ front name folder, checkLength path = .ok () ∧ Path.parts path = front ++ [name] ∧
      follow d.root (d.start path) front = .ok folder ∧ d.root.kindAt folder = some .folder ∧
      Path.isHere name = false ∧ name ≠ ".." ∧ name.utf8ByteSize ≤ longestName ∧
      d.root.kindAt (folder ++ [name]) ≠ some .folder ∧
      d' = { d with root := d.root.put name content folder } := by
  rw [write] at h
  obtain ⟨⟨⟩, hlength, h⟩ := exists_of_bind_eq_ok h
  obtain ⟨folder, hfollow, h⟩ := exists_of_bind_eq_ok h
  obtain ⟨t, hget, h⟩ := exists_of_bind_eq_ok h
  generalize hnamed : ((Path.parts path).reverse.dropWhile (· = "")).reverse = named at hfollow h
  cases t with
  | file bytes => exact nomatch h
  | folder entries =>
    simp only [FileTree.isFolder, Bool.not_true, Bool.false_eq_true, if_false] at h
    by_cases hrefused : (Path.isHere (named.getLast?.getD "") || named.getLast?.getD "" = ".." ||
        named.length < (Path.parts path).length) = true
    · rw [if_pos hrefused] at h
      exact nomatch h
    rw [if_neg hrefused] at h
    simp only [Bool.or_eq_true, decide_eq_true_eq, not_or, Nat.not_lt] at hrefused
    obtain ⟨⟨hhere, hup⟩, hcount⟩ := hrefused
    by_cases hlong : (named.getLast?.getD "").utf8ByteSize > longestName
    · rw [if_pos hlong] at h
      exact nomatch h
    rw [if_neg hlong] at h
    -- no slash was left out at the end of the path, so that its last part is the name
    have hparts : named = Path.parts path := by
      have hkept := (List.dropWhile_suffix (l := (Path.parts path).reverse) (· = "")).eq_of_length_le
        (by rw [← hnamed, List.length_reverse] at hcount; rwa [List.length_reverse])
      rw [← hnamed, hkept, List.reverse_reverse]
    obtain ⟨front, name, rfl⟩ : ∃ front name, named = front ++ [name] := by
      rcases List.eq_nil_or_concat named with rfl | ⟨front, name, rfl⟩
      · exact absurd rfl hhere
      · exact ⟨front, name, by rw [List.concat_eq_append]⟩
    rw [List.getLast?_concat, Option.getD_some] at hhere hup hlong h
    rw [List.dropLast_concat] at hfollow
    rw [FileTree.entry?_folder] at h
    refine ⟨front, name, folder, hlength, hparts.symm, hfollow,
      FileTree.kindAt_eq_folder_iff.mpr ⟨entries, hget⟩, by simpa using hhere, hup, by omega, ?_⟩
    rw [FileTree.kindAt_concat hget]
    cases hold : entries.lookup name with
    | none =>
      rw [hold] at h
      exact ⟨nofun, (Except.ok.inj h).symm⟩
    | some old =>
      rw [hold] at h
      cases old with
      | folder inner => exact nomatch h
      | file bytes => exact ⟨nofun, (Except.ok.inj h).symm⟩

/-- **Writing to a path** puts the file where the path leads, and changes nothing else. -/
theorem written_of_write {d d' : Disk} {path : String} {content : ByteArray}
    (h : d.write path content = .ok d') : Written d path content d' := by
  obtain ⟨front, name, folder, hlength, hparts, hfollow, hfolder, hhere, hup, hfits, hname, rfl⟩ :=
    exists_of_write h
  have hplaces : ∀ place, (d.root.put name content folder).kindAt place =
      if place = folder ++ [name] then some (.file content) else d.root.kindAt place :=
    FileTree.kindAt_put hfolder hname
  generalize d.root.put name content folder = root at hplaces
  have hother {place : List String} (hne : place ≠ folder ++ [name]) :
      root.kindAt place = d.root.kindAt place := by rw [hplaces, if_neg hne]
  have hself : root.kindAt (folder ++ [name]) = some (.file content) := by
    rw [hplaces, if_pos rfl]
  have hkeep : ∀ place, d.root.kindAt place = some .folder → root.kindAt place = some .folder := by
    intro place hplace
    rwa [hother]
    rintro rfl
    exact hname hplace
  have hstay : ∀ place, (d.root.kindAt place).isSome = true → (root.kindAt place).isSome = true := by
    intro place hplace
    by_cases hne : place = folder ++ [name]
    · rw [hne, hself]
      rfl
    · rwa [hother hne]
  have hlocate : locate ⟨root, d.here⟩ path = .ok (folder ++ [name]) := by
    have hlast : follow root folder [name] = .ok (folder ++ [name]) :=
      follow_cons_eq_ok_iff.mpr ⟨hkeep folder hfolder, .inr (.inr ⟨hhere, hup, hfits, by
        rw [hself]; rfl, rfl⟩)⟩
    rw [locate, hlength, hparts]
    exact follow_append (follow_mono hkeep hstay hfollow) hlast
  refine ⟨?_, ⟨folder ++ [name], hlocate, fun other hne => hother hne⟩, rfl⟩
  rw [at?, hlocate]
  exact FileTree.kindAt_eq_file_iff.mp hself

end Disk

end Flowscript
