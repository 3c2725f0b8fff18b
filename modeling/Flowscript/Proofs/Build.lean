import Flowscript.Command.Session
import Flowscript.Proofs.Files
import Flowscript.Proofs.Run

/-!
# What a build changes

A build reads a source and perhaps a settings document, and writes at most one file. Whatever stands
on the disk, and whatever the command line asks for, a build that fails changes nothing and prints
nothing; one that succeeds prints its document, or has it written to the path that was named.

## Everything that a build can do

A build has seven ways to end, and `Build.Ends` lists them, with what each of them takes. That a run
ends in one of them (`Build.ends_perform`) is the only proof that looks into the commands; the
theorems about builds are read off the list.

## Options

Which options a build compiles under is settled by the command line and the disk together.
`Build.Selects` states the order in which they are asked: the switch, then the settings document
that was named, then the one next to the source, and the strict reading if there is none.

## Main definitions

* `Build.Selects` — the options that a build is to compile under.
* `Build.HasDocument` — the document that a build is to make.
* `Build.Ends` — the ways in which a build can end.

## Main results

* `Build.ends_perform` — a build ends in one of these ways.
* `build_writes_only_document` — a build writes on success only, and only its document.
-/

namespace Flowscript

namespace Build

/-! ### Options -/

/-- The options that a build is to compile under. -/
inductive Selects (view : View) (a : BuildArguments) : Options → Prop
  /-- The switch decides alone. -/
  | lenient (hlenient : a.lenient = true) : Selects view a .lenient
  /-- The settings document that was named. -/
  | named {path text : String} {options : Options} (hlenient : a.lenient = false)
      (hconfig : a.config = some path) (hread : view.readText path = .ok text)
      (hsettings : Settings.ofText text = .ok options) : Selects view a options
  /-- The settings document next to the source. -/
  | adjacent {text : String} {options : Options} (hlenient : a.lenient = false)
      (hconfig : a.config = none) (hfile : view.isFile (adjacentSettings a.file) = true)
      (hread : view.readText (adjacentSettings a.file) = .ok text)
      (hsettings : Settings.ofText text = .ok options) : Selects view a options
  /-- There is no settings document. -/
  | defaults (hlenient : a.lenient = false) (hconfig : a.config = none)
      (hfile : view.isFile (adjacentSettings a.file) = false) : Selects view a .strict

theorem loadSettings_eq_ok_iff {view : View} {path : String} {options : Options} :
    loadSettings view path = .ok options ↔
      ∃ text, view.readText path = .ok text ∧ Settings.ofText text = .ok options := by
  rw [loadSettings]
  cases view.readText path with
  | error e => simp
  | ok text => cases hsettings : Settings.ofText text <;> simp [hsettings]

/-- The settings document of a build is the one that was named, or else the one next to the source,
if a file stands there. -/
theorem settingsPath?_eq_some_iff {view : View} {a : BuildArguments} {path : String} :
    settingsPath? view a = some path ↔
      a.config = some path ∨
        a.config = none ∧ view.isFile (adjacentSettings a.file) = true ∧
          adjacentSettings a.file = path := by
  rw [settingsPath?]
  cases a.config with
  | some named => simp
  | none => simp

theorem settingsPath?_eq_none_iff {view : View} {a : BuildArguments} :
    settingsPath? view a = none ↔
      a.config = none ∧ view.isFile (adjacentSettings a.file) = false := by
  rw [settingsPath?]
  cases a.config with
  | some named => simp
  | none => simp

section Choice

variable {view : View} {verbose : Bool} {a : BuildArguments} {options : Options}

theorem chooseOptions_of_settings {path : String} (hlenient : a.lenient = false)
    (hpath : settingsPath? view a = some path) (verbose : Bool) :
    chooseOptions view verbose a =
      (loadSettings view path).map fun options => (options, trace verbose ("config: " ++ path)) := by
  rw [chooseOptions, hlenient, if_neg Bool.false_ne_true, hpath]

theorem chooseOptions_of_defaults (hlenient : a.lenient = false)
    (hpath : settingsPath? view a = none) (verbose : Bool) :
    chooseOptions view verbose a = .ok (.strict, trace verbose "config: defaults") := by
  rw [chooseOptions, hlenient, if_neg Bool.false_ne_true, hpath]

theorem chooseOptions_of_lenient (hlenient : a.lenient = true) (verbose : Bool) :
    chooseOptions view verbose a = .ok (.lenient, "") := by
  rw [chooseOptions, hlenient, if_pos rfl]

theorem selects_of_chooseOptions {said : String}
    (h : chooseOptions view verbose a = .ok (options, said)) : Selects view a options := by
  cases hlenient : a.lenient with
  | true =>
    rw [chooseOptions_of_lenient hlenient] at h
    obtain ⟨rfl, -⟩ := Prod.mk.inj (Except.ok.inj h)
    exact .lenient hlenient
  | false =>
    cases hpath : settingsPath? view a with
    | none =>
      rw [chooseOptions_of_defaults hlenient hpath] at h
      obtain ⟨rfl, -⟩ := Prod.mk.inj (Except.ok.inj h)
      obtain ⟨hconfig, hfile⟩ := settingsPath?_eq_none_iff.mp hpath
      exact .defaults hlenient hconfig hfile
    | some path =>
      rw [chooseOptions_of_settings hlenient hpath] at h
      cases hload : loadSettings view path with
      | error e =>
        rw [hload] at h
        exact nomatch h
      | ok loaded =>
        rw [hload] at h
        obtain ⟨rfl, -⟩ := Prod.mk.inj (Except.ok.inj h)
        obtain ⟨text, hread, hsettings⟩ := loadSettings_eq_ok_iff.mp hload
        rcases settingsPath?_eq_some_iff.mp hpath with hconfig | ⟨hconfig, hfile, rfl⟩
        · exact .named hlenient hconfig hread hsettings
        · exact .adjacent hlenient hconfig hfile hread hsettings

/-- What the command line and the disk select is chosen. -/
theorem Selects.exists_chooseOptions (h : Selects view a options) (verbose : Bool) :
    ∃ said, chooseOptions view verbose a = .ok (options, said) := by
  have hsettings {path text : String} (hlenient : a.lenient = false)
      (hpath : settingsPath? view a = some path) (hread : view.readText path = .ok text)
      (hsettings : Settings.ofText text = .ok options) :
      ∃ said, chooseOptions view verbose a = .ok (options, said) := by
    have hload := loadSettings_eq_ok_iff.mpr ⟨text, hread, hsettings⟩
    exact ⟨_, by rw [chooseOptions_of_settings hlenient hpath, hload]; rfl⟩
  cases h with
  | lenient hlenient => exact ⟨"", chooseOptions_of_lenient hlenient verbose⟩
  | named hlenient hconfig hread hsettings' =>
    exact hsettings hlenient (settingsPath?_eq_some_iff.mpr (.inl hconfig)) hread hsettings'
  | adjacent hlenient hconfig hfile hread hsettings' =>
    exact hsettings hlenient (settingsPath?_eq_some_iff.mpr (.inr ⟨hconfig, hfile, rfl⟩)) hread
      hsettings'
  | defaults hlenient hconfig hfile =>
    have hpath := settingsPath?_eq_none_iff.mpr ⟨hconfig, hfile⟩
    exact ⟨_, chooseOptions_of_defaults hlenient hpath verbose⟩

end Choice

/-! ### The ways in which a build can end -/

/-- The document that a build is to make: the source can be read, options are selected, and the
source compiles under them. -/
def HasDocument (view : View) (a : BuildArguments) (document : String) : Prop :=
  ∃ source options, view.readText a.file = .ok source ∧ Selects view a options ∧
    ∀ file, compile source file options = .ok document

/-- How a build can end, and the disk that it leaves. -/
inductive Ends (d : Disk) (a : BuildArguments) : Outcome → Disk → Prop
  /-- The source cannot be read. -/
  | unreadable {e : FileError} (said : String) (hread : View.readText d.at? a.file = .error e) :
      Ends d a (.failure said) d
  /-- Only the tokens of the source were asked for. -/
  | dumped {source : String} (hread : View.readText d.at? a.file = .ok source)
      (htokens : a.tokens = true) : Ends d a ⟨0, tokenDump source, ""⟩ d
  /-- The settings or the source are refused. -/
  | refused (said : String) (htokens : a.tokens = false)
      (hnone : ∀ document, ¬HasDocument d.at? a document) : Ends d a (.failure said) d
  /-- Only a check of the source was asked for. -/
  | checked {document : String} (said : String) (htokens : a.tokens = false)
      (hdocument : HasDocument d.at? a document) (hcheck : a.check = true) :
      Ends d a ⟨0, "", said⟩ d
  /-- The document is printed. -/
  | printed {document : String} (said : String) (htokens : a.tokens = false)
      (hdocument : HasDocument d.at? a document) (hcheck : a.check = false)
      (houtput : a.output = none) : Ends d a ⟨0, document, said⟩ d
  /-- The document is written. -/
  | saved {document path : String} {d' : Disk} (said : String) (htokens : a.tokens = false)
      (hdocument : HasDocument d.at? a document) (hcheck : a.check = false)
      (houtput : a.output = some path) (hwrite : d.write path document.toUTF8 = .ok d') :
      Ends d a ⟨0, "", said⟩ d'
  /-- The document cannot be written. -/
  | unsaved {document path : String} {e : FileError} (said : String) (htokens : a.tokens = false)
      (hdocument : HasDocument d.at? a document) (hcheck : a.check = false)
      (houtput : a.output = some path) (hwrite : d.write path document.toUTF8 = .error e) :
      Ends d a (.failure said) d

/-- A source has one document, whatever number labels it. -/
theorem compile_eq_ok_of_file {source document : String} {file : Nat} {o : Options}
    (h : compile source file o = .ok document) (file' : Nat) :
    compile source file' o = .ok document :=
  compile_eq_ok_iff_run.mpr (compile_eq_ok_iff_run.mp h)

section Ends

variable {d : Disk} {a : BuildArguments} {verbose : Bool} {source said : String} {options : Options}

theorem hasDocument_of_compile (hread : View.readText d.at? a.file = .ok source)
    (hchoose : chooseOptions d.at? verbose a = .ok (options, said)) {document : String}
    (hcompile : compile source 0 options = .ok document) : HasDocument d.at? a document :=
  ⟨source, options, hread, selects_of_chooseOptions hchoose, compile_eq_ok_of_file hcompile⟩

/-- A build that has a document read this source, chose these options and compiled under them. -/
theorem compile_of_hasDocument (hread : View.readText d.at? a.file = .ok source)
    {document : String} (h : HasDocument d.at? a document) (verbose : Bool) :
    ∃ options said, chooseOptions d.at? verbose a = .ok (options, said) ∧
      compile source 0 options = .ok document := by
  obtain ⟨source', options, hread', hselects, hcompile⟩ := h
  obtain rfl := Except.ok.inj (hread.symm.trans hread')
  obtain ⟨said, hchoose⟩ := hselects.exists_chooseOptions verbose
  exact ⟨options, said, hchoose, hcompile 0⟩

/-- A build has at most one document. -/
theorem hasDocument_unique {document document' : String} (h : HasDocument d.at? a document)
    (h' : HasDocument d.at? a document') : document = document' := by
  obtain ⟨source, -, hread, -, -⟩ := id h
  obtain ⟨options, said, hchoose, hcompile⟩ := compile_of_hasDocument hread h false
  obtain ⟨options', said', hchoose', hcompile'⟩ := compile_of_hasDocument hread h' false
  obtain ⟨rfl, -⟩ := Prod.mk.inj (Except.ok.inj (hchoose.symm.trans hchoose'))
  exact Except.ok.inj (hcompile.symm.trans hcompile')

/-- **Everything that a build can do.** -/
theorem ends_perform (terminal : Option String) (d : Disk) (g : General) (a : BuildArguments) :
    Ends d a ((Invocation.build g a).perform terminal d).1
      ((Invocation.build g a).perform terminal d).2 := by
  rw [Invocation.perform, run]
  cases hread : View.readText d.at? a.file with
  | error e => exact .unreadable _ hread
  | ok source =>
    cases htokens : a.tokens with
    | true => exact .dumped hread htokens
    | false =>
      cases hchoose : chooseOptions d.at? g.verbose a with
      | error e =>
        refine .refused _ htokens fun document hdocument => ?_
        obtain ⟨options, said, hchoose', -⟩ := compile_of_hasDocument hread hdocument g.verbose
        exact nomatch hchoose.symm.trans hchoose'
      | ok chosen =>
        obtain ⟨options, said⟩ := chosen
        simp only [Bool.false_eq_true, if_false, finish]
        cases hcompile : compile source 0 options with
        | error e =>
          refine .refused _ htokens fun document hdocument => ?_
          obtain ⟨options', said', hchoose', hcompile'⟩ :=
            compile_of_hasDocument hread hdocument g.verbose
          obtain ⟨rfl, -⟩ := Prod.mk.inj (Except.ok.inj (hchoose.symm.trans hchoose'))
          exact nomatch hcompile.symm.trans hcompile'
        | ok document =>
          have hdocument := hasDocument_of_compile hread hchoose hcompile
          cases hcheck : a.check with
          | true => exact .checked _ htokens hdocument hcheck
          | false =>
            cases houtput : a.output with
            | none => exact .printed _ htokens hdocument hcheck houtput
            | some path =>
              simp only [Bool.false_eq_true, if_false]
              cases hwrite : d.write path document.toUTF8 with
              | ok d' => exact .saved _ htokens hdocument hcheck houtput hwrite
              | error e => exact .unsaved _ htokens hdocument hcheck houtput hwrite

end Ends

end Build

/-! ### What is written -/

theorem runProgram_eq_perform {args : List String} {invocation : Invocation}
    (h : Invocation.ofArguments args = .ok invocation) (terminal : Option String) (d : Disk) :
    runProgram terminal args d = invocation.perform terminal d := by
  rw [runProgram, h]

/-- **A build writes on success only, and only its document.** Run a command line that asks for a
build, on any disk. If it fails, nothing is printed and nothing is changed. If it succeeds and was
asked for more than a check or the tokens, then the source compiles under the selected options, and
its document is all that is printed, or all that is written, at the path that was named. Checks and
dumps never change anything. And a build that has a document, and can write it where it is asked to,
does succeed. -/
theorem build_writes_only_document {args : List String} {g : General} {a : BuildArguments}
    {terminal : Option String} {d d' : Disk} {o : Outcome}
    (hargs : Invocation.ofArguments args = .ok (.build g a))
    (hrun : runProgram terminal args d = (o, d')) :
    (o.exit ≠ 0 → o.stdout = "" ∧ d' = d) ∧
      (o.exit = 0 → a.check = false → a.tokens = false →
        ∃ document, Build.HasDocument d.at? a document ∧
          (a.output = none ∧ o.stdout = document ∧ d' = d ∨
            ∃ path, a.output = some path ∧ o.stdout = "" ∧
              d.Written path document.toUTF8 d')) ∧
      (a.check = true ∨ a.tokens = true → d' = d) ∧
      ∀ document, a.tokens = false → Build.HasDocument d.at? a document →
        (∀ path, a.check = false → a.output = some path →
          ∃ d'', d.write path document.toUTF8 = .ok d'') → o.exit = 0 := by
  have hends := Build.ends_perform terminal d g a
  rw [← runProgram_eq_perform hargs terminal d, hrun] at hends
  refine ⟨fun hexit => ?_, fun hexit hcheck htokens => ?_, fun honly => ?_,
    fun document htokens hdocument hcan => ?_⟩
  · cases hends with
    | unreadable | refused | unsaved => exact ⟨rfl, rfl⟩
    | dumped | checked | printed | saved => exact absurd rfl hexit
  · cases hends with
    | unreadable | refused | unsaved => exact absurd hexit Nat.one_ne_zero
    | dumped _ h => exact absurd (htokens.symm.trans h) Bool.false_ne_true
    | checked _ _ _ h => exact absurd (hcheck.symm.trans h) Bool.false_ne_true
    | printed said _ hdocument _ houtput => exact ⟨_, hdocument, .inl ⟨houtput, rfl, rfl⟩⟩
    | saved said _ hdocument _ houtput hwrite =>
      exact ⟨_, hdocument, .inr ⟨_, houtput, rfl, Disk.written_of_write hwrite⟩⟩
  · cases hends with
    | unreadable | refused | unsaved | dumped | checked | printed => rfl
    | saved _ htokens _ hcheck =>
      rw [hcheck, htokens] at honly
      exact absurd honly (by decide)
  · cases hends with
    | dumped | checked | printed | saved => rfl
    | unreadable _ hread =>
      obtain ⟨source, -, hread', -⟩ := hdocument
      exact nomatch hread.symm.trans hread'
    | refused _ _ hnone => exact absurd hdocument (hnone document)
    | unsaved _ _ hdocument' hcheck houtput hwrite =>
      obtain ⟨d'', hwrite'⟩ := hcan _ hcheck houtput
      obtain rfl := Build.hasDocument_unique hdocument hdocument'
      exact nomatch hwrite.symm.trans hwrite'

/-- The settings document next to the source lets it compile, and is then the file that is
written. -/
theorem build_writes_only_document_settings :
    let d : Disk := ⟨.folder [("a.fgs", .file "end".toUTF8),
      ("fgscript.toml", .file "compat.unmatched-end=true".toUTF8)], []⟩
    let r := runProgram none ["a.fgs", "-o", "fgscript.toml"] d
    r.1 = ⟨0, "", ""⟩ ∧
      ∃ document,
        Build.HasDocument d.at? { file := "a.fgs", output := some "fgscript.toml" } document ∧
        d.Written "fgscript.toml" document.toUTF8 r.2 := by
  intro d r
  have hr : r.1 = ⟨0, "", ""⟩ := by decide +kernel +revert
  have hargs : Invocation.ofArguments ["a.fgs", "-o", "fgscript.toml"] =
      .ok (.build {} { file := "a.fgs", output := some "fgscript.toml" }) := rfl
  have hrun : runProgram none ["a.fgs", "-o", "fgscript.toml"] d = (r.1, r.2) := rfl
  obtain ⟨-, hsuccess, -, -⟩ := build_writes_only_document hargs hrun
  obtain ⟨document, hdocument, hprinted | ⟨path, hpath, -, hwritten⟩⟩ :=
    hsuccess (by rw [hr]) rfl rfl
  · exact nomatch hprinted.1
  · obtain rfl := Option.some.inj hpath
    exact ⟨hr, document, hdocument, hwritten⟩

end Flowscript
