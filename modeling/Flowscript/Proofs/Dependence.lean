import Flowscript.Proofs.Arguments
import Flowscript.Proofs.Build

/-!
# What a build depends on

Two disks may differ in everything but the source and the one settings document that is selected,
and a build that prints its document ends the same way on both. With `--lenient` or `--tokens` there
is nothing to agree on but the source; a settings document that is named hides the one next to the
source.

## Agreement is about reading

What two disks have to agree on is the outcome of reading a file, and failures count: if the source
cannot be read, then the reason is printed. The settings document next to the source is looked for
before it is read, so for it the disks have to agree on whether there is a file, and on its text
only if there is one. A folder of that name is no file, and a build passes over it, whereas it is an
error to name a folder by `--config`.

## Checks

A check is the same build with its document left out and one line said more. This is a statement
about two command lines on one disk, where agreement is about one command line on two.

## Main definitions

* `Build.Agree` — two views that agree on the source and on the selected settings.
* `Outcome.checked` — what a check makes of the outcome of a build.

## Main results

* `Build.Agree.run_congr` — a build is the same for views that agree.
* `build_depends_only_on_selected` — the same for the whole program, and what `--check` changes.
-/

namespace Flowscript

namespace Build

/-- Two views agree on everything that a build may ask for. -/
structure Agree (a : BuildArguments) (view view' : View) : Prop where
  /-- Reading the source has the same outcome. -/
  source : view.readText a.file = view'.readText a.file
  /-- Reading the settings document that is named has the same outcome, if it is read. -/
  named : a.tokens = false → a.lenient = false → ∀ path, a.config = some path →
    view.readText path = view'.readText path
  /-- If no settings document is named, then the same is next to the source. -/
  adjacent : a.tokens = false → a.lenient = false → a.config = none →
    view.isFile (adjacentSettings a.file) = view'.isFile (adjacentSettings a.file) ∧
      (view.isFile (adjacentSettings a.file) = true →
        view.readText (adjacentSettings a.file) = view'.readText (adjacentSettings a.file))

section Congr

variable {a : BuildArguments} {view view' : View}

theorem loadSettings_congr {path : String} (h : view.readText path = view'.readText path) :
    loadSettings view path = loadSettings view' path := by
  rw [loadSettings, loadSettings, h]

namespace Agree

theorem settingsPath?_congr (h : Agree a view view') (htokens : a.tokens = false)
    (hlenient : a.lenient = false) : settingsPath? view a = settingsPath? view' a := by
  rw [settingsPath?, settingsPath?]
  cases hconfig : a.config with
  | some path => rfl
  | none => simp only [(h.adjacent htokens hlenient hconfig).1]

/-- The settings document that is selected reads the same. -/
theorem readText_congr (h : Agree a view view') (htokens : a.tokens = false)
    (hlenient : a.lenient = false) {path : String} (hpath : settingsPath? view a = some path) :
    view.readText path = view'.readText path := by
  rcases settingsPath?_eq_some_iff.mp hpath with hconfig | ⟨hconfig, hfile, rfl⟩
  · exact h.named htokens hlenient path hconfig
  · exact (h.adjacent htokens hlenient hconfig).2 hfile

theorem chooseOptions_congr (h : Agree a view view') (htokens : a.tokens = false)
    (verbose : Bool) : chooseOptions view verbose a = chooseOptions view' verbose a := by
  cases hlenient : a.lenient with
  | true => rw [chooseOptions_of_lenient hlenient, chooseOptions_of_lenient hlenient]
  | false =>
    have hsame := h.settingsPath?_congr htokens hlenient
    cases hpath : settingsPath? view a with
    | none =>
      rw [chooseOptions_of_defaults hlenient hpath,
        chooseOptions_of_defaults hlenient (hsame.symm.trans hpath)]
    | some path =>
      rw [chooseOptions_of_settings hlenient hpath,
        chooseOptions_of_settings hlenient (hsame.symm.trans hpath),
        loadSettings_congr (h.readText_congr htokens hlenient hpath)]

/-- **A build is the same for views that agree.** -/
theorem run_congr (h : Agree a view view') (color : Bool) (g : General) :
    run view color g a = run view' color g a := by
  rw [run, run, ← h.source]
  cases view.readText a.file with
  | error e => rfl
  | ok source =>
    cases htokens : a.tokens with
    | true => rfl
    | false => simp only [h.chooseOptions_congr htokens]

end Agree

end Congr

end Build

/-! ### Checks -/

/-- What a check makes of the outcome of a build: the document is left out, and success is told. -/
def Outcome.checked (file : String) (o : Outcome) : Outcome :=
  ⟨o.exit, "",
    o.stderr ++ if o.exit = 0 then "ok: " ++ file ++ " translated successfully\n" else ""⟩

namespace Build

section Checked

variable {a : BuildArguments} {o : Outcome}

/-- Without `-o`, nothing is left to be written. -/
theorem exists_done_of_finish (houtput : a.output = none) (color verbose : Bool)
    (source said : String) (options : Options) :
    ∃ o, finish color verbose a source said options = .done o := by
  simp only [finish, houtput]
  split
  · exact ⟨_, rfl⟩
  · split <;> exact ⟨_, rfl⟩

theorem exists_done_of_run (houtput : a.output = none) (view : View) (color : Bool)
    (g : General) : ∃ o, run view color g a = .done o := by
  rw [run]
  split
  · exact ⟨_, rfl⟩
  split
  · exact ⟨_, rfl⟩
  split
  · exact ⟨_, rfl⟩
  · exact exists_done_of_finish houtput _ _ _ _ _

theorem checked_failure (file said : String) :
    (Outcome.failure said).checked file = Outcome.failure said := by
  simp [Outcome.checked, Outcome.failure]

theorem finish_check {color verbose : Bool} {source said : String} {options : Options}
    (hcheck : a.check = false) (houtput : a.output = none)
    (h : finish color verbose a source said options = .done o) :
    finish color verbose { a with check := true } source said options =
      .done (o.checked a.file) := by
  simp only [finish, hcheck, houtput, Bool.false_eq_true, if_false, if_true] at h ⊢
  cases hcompile : compile source 0 options with
  | error e =>
    simp only [hcompile] at h ⊢
    obtain rfl := BuildResult.done.inj h
    rw [checked_failure]
  | ok document =>
    simp only [hcompile] at h ⊢
    obtain rfl := BuildResult.done.inj h
    simp only [Outcome.checked, if_true, String.append_assoc]

theorem run_of_refused {view : View} {source e : String} {g : General}
    (hread : view.readText a.file = .ok source) (htokens : a.tokens = false)
    (hchoose : chooseOptions view g.verbose a = .error e) (color : Bool) :
    run view color g a = .done (.failure ("error: " ++ e ++ "\n")) := by
  simp [run, hread, htokens, hchoose]

theorem run_of_chosen {view : View} {source said : String} {options : Options} {g : General}
    (hread : view.readText a.file = .ok source) (htokens : a.tokens = false)
    (hchoose : chooseOptions view g.verbose a = .ok (options, said)) (color : Bool) :
    run view color g a = finish (color && !g.noColor) g.verbose a source said options := by
  simp [run, hread, htokens, hchoose]

/-- **A check is the same build** with its document left out and one line said more. -/
theorem run_check {view : View} {color : Bool} {g : General} (htokens : a.tokens = false)
    (hcheck : a.check = false) (houtput : a.output = none) (h : run view color g a = .done o) :
    run view color g { a with check := true } = .done (o.checked a.file) := by
  cases hread : view.readText a.file with
  | error e =>
    simp only [run, hread] at h ⊢
    obtain rfl := BuildResult.done.inj h
    rw [checked_failure]
  | ok source =>
    -- neither the source nor the options depend on whether a check is asked for
    let a' := { a with check := true }
    have hread' : view.readText a'.file = .ok source := hread
    have hsame : chooseOptions view g.verbose a' = chooseOptions view g.verbose a := rfl
    cases hchoose : chooseOptions view g.verbose a with
    | error e =>
      rw [run_of_refused hread htokens hchoose] at h
      obtain rfl := BuildResult.done.inj h
      rw [checked_failure]
      exact run_of_refused hread' htokens (hsame.trans hchoose) color
    | ok chosen =>
      rw [run_of_chosen hread htokens hchoose] at h
      rw [← finish_check hcheck houtput h]
      exact run_of_chosen hread' htokens (hsame.trans hchoose) color

end Checked

end Build

theorem runProgram_of_done {args : List String} {g : General} {a : BuildArguments}
    (hargs : Invocation.ofArguments args = .ok (.build g a)) {terminal : Option String} {d : Disk}
    {o : Outcome} (h : Build.run d.at? (terminalHasColor terminal) g a = .done o) :
    runProgram terminal args d = (o, d) := by
  rw [runProgram_eq_perform hargs, Invocation.perform, h]

/-- **A build depends only on what is selected.** Take a command line that asks for a build and does
not have it written. On any two disks that agree on the source and on the selected settings, it has
the same outcome. And wherever `--check` can be added to it, unless it asks for the tokens, the exit
code stays, nothing is printed, and only a success is told in addition; there is such a place, unless
the command line has `--check` already. -/
theorem build_depends_only_on_selected {args : List String} {g : General} {a : BuildArguments}
    (hargs : Invocation.ofArguments args = .ok (.build g a)) (houtput : a.output = none)
    (terminal : Option String) :
    (∀ d d' : Disk, Build.Agree a d.at? d'.at? →
        (runProgram terminal args d).1 = (runProgram terminal args d').1) ∧
      (a.tokens = false → ∀ (xs ys : List String) (g' : General) (a' : BuildArguments),
        args = xs ++ ys →
        Invocation.ofArguments (xs ++ "--check" :: ys) = .ok (.build g' a') →
        ∀ d : Disk, (runProgram terminal (xs ++ "--check" :: ys) d).1 =
          (runProgram terminal args d).1.checked a.file) ∧
      (a.check = false → ∃ xs ys, args = xs ++ ys ∧
        Invocation.ofArguments (xs ++ "--check" :: ys) =
          .ok (.build g { a with check := true })) := by
  refine ⟨fun d d' hagree => ?_, fun htokens xs ys g' a' hsplit hargs' d => ?_,
    fun hcheck => Invocation.exists_insert_check hargs hcheck⟩
  · obtain ⟨o, hrun⟩ := Build.exists_done_of_run houtput d.at? (terminalHasColor terminal) g
    have hrun' := (hagree.run_congr (terminalHasColor terminal) g).symm.trans hrun
    rw [runProgram_of_done hargs hrun, runProgram_of_done hargs hrun']
  · obtain ⟨o, hrun⟩ := Build.exists_done_of_run houtput d.at? (terminalHasColor terminal) g
    subst hsplit
    obtain ⟨hcheck, rfl, rfl⟩ := Invocation.ofArguments_insert_check hargs hargs'
    rw [runProgram_of_done hargs hrun,
      runProgram_of_done hargs' (Build.run_check htokens hcheck houtput hrun)]

/-- A settings document that is named hides whatever is next to the source, and a check of the same
source succeeds on both disks. -/
theorem build_depends_only_on_selected_named :
    let settings : FileTree := .file "compat.unmatched-end=true".toUTF8
    let d : Disk := ⟨.folder [("a.fgs", .file "end".toUTF8), ("b.toml", settings),
      ("fgscript.toml", .file "[".toUTF8)], []⟩
    let d' : Disk := ⟨.folder [("fgscript.toml", .folder []), ("c.fgs", .file "x".toUTF8),
      ("b.toml", settings), ("a.fgs", .file "end".toUTF8)], []⟩
    (runProgram none ["a.fgs", "--config", "b.toml"] d).1 =
        (runProgram none ["a.fgs", "--config", "b.toml"] d').1 ∧
      (runProgram none ["a.fgs", "--config", "b.toml", "--check"] d').1 =
        ⟨0, "", "ok: a.fgs translated successfully\n"⟩ := by
  intro settings d d'
  have hargs : Invocation.ofArguments ["a.fgs", "--config", "b.toml"] =
      .ok (.build {} { file := "a.fgs", config := some "b.toml" }) := rfl
  obtain ⟨hagree, hcheck, -⟩ := build_depends_only_on_selected hargs rfl none
  have hexit : (runProgram none ["a.fgs", "--config", "b.toml"] d').1.exit = 0 := by
    decide +kernel +revert
  have hsaid : (runProgram none ["a.fgs", "--config", "b.toml"] d').1.stderr = "" := by
    decide +kernel +revert
  refine ⟨hagree d d' ⟨rfl, fun _ _ path hpath => ?_, fun _ _ hnone => nomatch hnone⟩, ?_⟩
  · obtain rfl := Option.some.inj hpath
    rfl
  · have hchecked := hcheck rfl ["a.fgs", "--config", "b.toml"] [] _ _ rfl rfl d'
    rw [Outcome.checked, hexit, hsaid] at hchecked
    exact hchecked

end Flowscript
