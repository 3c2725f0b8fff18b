import Flowscript.Command.Line
import Mathlib.Data.List.Basic
import Mathlib.Data.List.TakeDrop
import Mathlib.Data.List.TakeWhile

/-!
# Adding a switch to a command line

An argument is read with no regard to what stands behind it, so one that is put in between changes
how the others are read only as far as it takes something from them. `--check` takes nothing: it has
no value, and it is not known in front of the command's name. Wherever it can be added to a command
line that asks for a build, the new line asks for the same build, as a check.

## Where it can be added

Not everywhere. In front of the command's name the switch is refused, and so it is in place of
another option's value; behind `--` it would be the name of a second source. None of these places
has to be ruled out by a hypothesis, since the new command line is refused there. A place where it
can be added is right behind the first argument that is no option, whether this is the command's
name or the source.

## Main definitions

* `Invocation.Takes` — everything that one argument can do.
* `Invocation.Gathered.AddsFlag` — two readings that differ by a switch.

## Main results

* `Invocation.ofArguments_insert_check` — an added `--check` asks for a check and nothing else.
* `Invocation.exists_insert_check` — where nothing forbids it, `--check` can be added.
-/

namespace Flowscript

namespace Invocation

open Argument (readAll looksLikeOption Pending)

/-! ### Gathering, one argument at a time -/

/-- What one argument adds to what was said so far. An argument that ends the reading adds
nothing. -/
inductive Takes : Gathered → Argument → Gathered → Prop
  /-- A switch that was not given before. -/
  | flag {g : Gathered} {s : Switch} (hhelp : s ≠ .help) (hversion : s ≠ .version)
      (hnew : s ∉ g.flags) : Takes g (.flag s) { g with flags := s :: g.flags }
  /-- A value. -/
  | valued {g : Gathered} {s : Switch} {v : String} (hempty : v = "" → mayBeEmpty s = true)
      (hnew : s ≠ .category → g.value? s = none) :
      Takes g (.valued s v) { g with values := g.values ++ [(s, v)] }
  /-- The argument that is no option. -/
  | plain {g : Gathered} {text : String} (hempty : text ≠ "") (hnew : g.subject = none) :
      Takes g (.plain text) { g with subject := some text }

theorem Takes.gather_cons {g g₁ : Gathered} {x : Argument} (h : Takes g x g₁)
    (rest : List Argument) : gather g (x :: rest) = gather g₁ rest := by
  cases h with
  | flag hhelp hversion hnew => simp [gather, hhelp, hversion, Gathered.has, hnew]
  | @valued s v hempty hnew =>
    have hfirst : ¬((decide (v = "") && !mayBeEmpty s) = true) := by simpa using hempty
    have hsecond : ¬((decide (s ≠ .category) && (g.value? s).isSome) = true) := by simpa using hnew
    rw [gather, if_neg hfirst, if_neg hsecond]
  | plain hempty hnew => simp [gather, hempty, hnew]

/-- A question is answered whatever stands behind it. -/
theorem gather_question {s : Switch} (h : s = .help ∨ s = .version) (g : Gathered)
    (rest : List Argument) : gather g (.flag s :: rest) = .question s := by
  rw [gather, if_pos (by simpa using h)]

/-- **One argument** is refused, or asks a question, or adds to what was said. -/
theorem gather_cons_cases (g : Gathered) (x : Argument) :
    (∃ e, ∀ rest, gather g (x :: rest) = .refused e) ∨
      (∃ s, x = .flag s ∧ (s = .help ∨ s = .version)) ∨ ∃ g₁, Takes g x g₁ := by
  cases x with
  | wrong e => exact .inl ⟨e, fun _ => rfl⟩
  | flag s =>
    by_cases hquestion : s = .help ∨ s = .version
    · exact .inr (.inl ⟨s, rfl, hquestion⟩)
    · obtain ⟨hhelp, hversion⟩ := not_or.mp hquestion
      by_cases hold : s ∈ g.flags
      · exact .inl ⟨.repeated ("--" ++ s.long), fun _ => by
          simp [gather, hhelp, hversion, Gathered.has, hold]⟩
      · exact .inr (.inr ⟨_, .flag hhelp hversion hold⟩)
  | valued s v =>
    by_cases hempty : v = "" → mayBeEmpty s = true
    · by_cases hnew : s ≠ .category → g.value? s = none
      · exact .inr (.inr ⟨_, .valued hempty hnew⟩)
      · have hfirst : ¬((decide (v = "") && !mayBeEmpty s) = true) := by simpa using hempty
        have hsecond : (decide (s ≠ .category) && (g.value? s).isSome) = true := by
          simpa [Option.isSome_iff_ne_none] using hnew
        exact .inl ⟨_, fun _ => by rw [gather, if_neg hfirst, if_pos hsecond]⟩
    · have hfirst : (decide (v = "") && !mayBeEmpty s) = true := by simpa using hempty
      exact .inl ⟨_, fun _ => by rw [gather, if_pos hfirst]⟩
  | plain text =>
    cases hsubject : g.subject with
    | some other => exact .inl ⟨.unexpected text, fun _ => by simp [gather, hsubject]⟩
    | none =>
      by_cases hempty : text = ""
      · exact .inl ⟨.missingValue "path", fun _ => by simp [gather, hsubject, hempty]⟩
      · exact .inr (.inr ⟨_, .plain hempty hsubject⟩)

theorem gather_cons_eq_complete_iff {g r : Gathered} {x : Argument} {rest : List Argument} :
    gather g (x :: rest) = .complete r ↔ ∃ g₁, Takes g x g₁ ∧ gather g₁ rest = .complete r := by
  constructor
  · intro h
    rcases gather_cons_cases g x with ⟨e, he⟩ | ⟨s, rfl, hquestion⟩ | ⟨g₁, htakes⟩
    · exact nomatch h.symm.trans (he rest)
    · exact nomatch h.symm.trans (gather_question hquestion g rest)
    · exact ⟨g₁, htakes, (htakes.gather_cons rest).symm.trans h⟩
  · rintro ⟨g₁, htakes, h⟩
    exact (htakes.gather_cons rest).trans h

theorem gather_append_eq_complete_iff {g r : Gathered} {front rest : List Argument} :
    gather g (front ++ rest) = .complete r ↔
      ∃ g₁, gather g front = .complete g₁ ∧ gather g₁ rest = .complete r := by
  induction front generalizing g with
  | nil => simp [gather]
  | cons x front ih =>
    simp only [List.cons_append, gather_cons_eq_complete_iff, ih]
    constructor
    · rintro ⟨g₁, htakes, g₂, hfront, hrest⟩
      exact ⟨g₂, ⟨g₁, htakes, hfront⟩, hrest⟩
    · rintro ⟨g₂, ⟨g₁, htakes, hfront⟩, hrest⟩
      exact ⟨g₁, htakes, g₂, hfront, hrest⟩

/-- There is room for one argument that is no option. -/
theorem length_of_gather_plain {g r : Gathered} {texts : List String}
    (h : gather g (texts.map .plain) = .complete r) :
    g.subject.toList.length + texts.length = r.subject.toList.length := by
  induction texts generalizing g with
  | nil => cases h; rfl
  | cons text texts ih =>
    obtain ⟨g₁, htakes, hrest⟩ := gather_cons_eq_complete_iff.mp h
    cases htakes with
    | plain _ hnew =>
      rw [← ih hrest, hnew, List.length_cons, Option.toList_none, List.length_nil,
        Option.toList_some, List.length_singleton]
      omega

/-! ### Readings that differ by a switch -/

/-- `g'` is `g` with the switch `s` added. -/
structure Gathered.AddsFlag (s : Switch) (g g' : Gathered) : Prop where
  /-- The switch is not there yet. -/
  not_mem_flags : s ∉ g.flags
  /-- The switches are those of `g`, and `s`. -/
  mem_flags : ∀ t, t ∈ g'.flags ↔ t = s ∨ t ∈ g.flags
  /-- The values are the same. -/
  values : g'.values = g.values
  /-- The argument that is no option is the same. -/
  subject : g'.subject = g.subject

theorem Takes.flags_subset {g g₁ : Gathered} {x : Argument} (h : Takes g x g₁) :
    g.flags ⊆ g₁.flags := by
  cases h with
  | flag => exact List.subset_cons_self _ _
  | valued | plain => exact List.Subset.refl _

/-- What was given stays given. -/
theorem flags_subset_of_gather {g r : Gathered} {xs : List Argument}
    (h : gather g xs = .complete r) : g.flags ⊆ r.flags := by
  induction xs generalizing g with
  | nil => cases h; exact List.Subset.refl _
  | cons x xs ih =>
    obtain ⟨g₁, htakes, hrest⟩ := gather_cons_eq_complete_iff.mp h
    exact List.Subset.trans htakes.flags_subset (ih hrest)

namespace Gathered.AddsFlag

variable {s : Switch} {g g' g₁ g₁' r r' : Gathered}

/-- One argument keeps the difference. -/
theorem takes {x : Argument} (h : AddsFlag s g g') (htakes : Takes g x g₁)
    (htakes' : Takes g' x g₁') : AddsFlag s g₁ g₁' := by
  cases htakes with
  | @flag t =>
    cases htakes' with
    | flag _ _ hnew' =>
      have hne : s ≠ t := fun heq => hnew' ((h.mem_flags t).mpr (.inl heq.symm))
      refine ⟨by simp [hne, h.not_mem_flags], fun u => ?_, h.values, h.subject⟩
      simp only [List.mem_cons, h.mem_flags]
      exact or_left_comm
  | valued =>
    cases htakes'
    exact ⟨h.not_mem_flags, h.mem_flags, by rw [h.values], h.subject⟩
  | plain =>
    cases htakes'
    exact ⟨h.not_mem_flags, h.mem_flags, h.values, rfl⟩

/-- An argument that can be taken can be taken with `s` added, unless it is `s` itself. -/
theorem exists_takes {x : Argument} (h : AddsFlag s g g') (htakes : Takes g x g₁)
    (hs : s ∉ g₁.flags) : ∃ g₁', Takes g' x g₁' := by
  cases htakes with
  | flag hhelp hversion hnew =>
    refine ⟨_, .flag hhelp hversion fun hold => ?_⟩
    rcases (h.mem_flags _).mp hold with rfl | hold
    · exact hs List.mem_cons_self
    · exact hnew hold
  | valued hempty hnew =>
    refine ⟨_, .valued hempty fun hcategory => ?_⟩
    rw [value?, h.values]
    exact hnew hcategory
  | plain hempty hnew => exact ⟨_, .plain hempty (h.subject.trans hnew)⟩

/-- All arguments keep the difference. -/
theorem gather {xs : List Argument} (h : AddsFlag s g g') (hr : gather g xs = .complete r)
    (hr' : Invocation.gather g' xs = .complete r') : AddsFlag s r r' := by
  induction xs generalizing g g' with
  | nil =>
    cases hr
    cases hr'
    exact h
  | cons x xs ih =>
    obtain ⟨g₁, htakes, hrest⟩ := gather_cons_eq_complete_iff.mp hr
    obtain ⟨g₁', htakes', hrest'⟩ := gather_cons_eq_complete_iff.mp hr'
    exact ih (h.takes htakes htakes') hrest hrest'

theorem exists_gather {xs : List Argument} (h : AddsFlag s g g')
    (hr : Invocation.gather g xs = .complete r) (hs : s ∉ r.flags) :
    ∃ r', Invocation.gather g' xs = .complete r' := by
  induction xs generalizing g g' with
  | nil => exact ⟨g', rfl⟩
  | cons x xs ih =>
    obtain ⟨g₁, htakes, hrest⟩ := gather_cons_eq_complete_iff.mp hr
    have hs₁ : s ∉ g₁.flags := fun hmem => hs (flags_subset_of_gather hrest hmem)
    obtain ⟨g₁', htakes'⟩ := h.exists_takes htakes hs₁
    obtain ⟨r', hr'⟩ := ih (h.takes htakes htakes') hrest
    exact ⟨r', gather_cons_eq_complete_iff.mpr ⟨g₁', htakes', hr'⟩⟩

theorem cons (hs : s ∉ g.flags) : AddsFlag s g { g with flags := s :: g.flags } :=
  ⟨hs, fun _ => List.mem_cons, rfl, rfl⟩

theorem has_eq (h : AddsFlag s g g') {t : Switch} (ht : t ≠ s) : g'.has t = g.has t := by
  simp [has, h.mem_flags, ht]

end Gathered.AddsFlag

/-! ### Reading, one argument at a time -/

/-- What an argument says depends on what stands before it, and not on what stands behind it. Only
`--` has a say in how the rest is read. -/
theorem gather_readAll_cons (known : List Switch) (pending : Pending) (a : String) :
    (pending = .none ∧ a = "--") ∨
      ∃ read pending', ∀ g r rest,
        gather g (readAll known pending (a :: rest)) = .complete r ↔
          ∃ g₁, gather g read = .complete g₁ ∧
            gather g₁ (readAll known pending' rest) = .complete r := by
  cases pending with
  | value s =>
    right
    by_cases hoption : looksLikeOption a = true
    · refine ⟨[.wrong (.missingValue ("--" ++ s.long))], .none, fun g r rest => ?_⟩
      simp [readAll, hoption, gather]
    · refine ⟨[.valued s a], .none, fun g r rest => ?_⟩
      rw [← gather_append_eq_complete_iff, readAll, if_neg hoption]
      rfl
  | none =>
    by_cases hoption : looksLikeOption a = true
    · by_cases hend : a = "--"
      · exact .inl ⟨rfl, hend⟩
      · right
        simp only [readAll, hoption, hend, Bool.not_true, Bool.false_eq_true, if_false,
          gather_append_eq_complete_iff]
        exact ⟨_, _, fun g r rest => Iff.rfl⟩
    · refine .inr ⟨[.plain a], .none, fun g r rest => ?_⟩
      rw [← gather_append_eq_complete_iff, readAll]
      simp [hoption]

theorem readAll_cons_of_plain {a : String} (h : looksLikeOption a = false) (known : List Switch)
    (rest : List String) :
    readAll known .none (a :: rest) = .plain a :: readAll known .none rest := by
  rw [readAll]
  simp [h]

theorem readAll_check_cons (rest : List String) :
    readAll Switch.ofBuild .none ("--check" :: rest) =
      .flag .check :: readAll Switch.ofBuild .none rest := rfl

theorem exists_gather_check {g r : Gathered} {rest : List String}
    (hr : gather g (readAll Switch.ofBuild .none rest) = .complete r)
    (hnew : Switch.check ∉ r.flags) :
    ∃ r', gather g (readAll Switch.ofBuild .none ("--check" :: rest)) = .complete r' := by
  have hg : Switch.check ∉ g.flags := fun hmem => hnew (flags_subset_of_gather hr hmem)
  obtain ⟨r', hr'⟩ := (Gathered.AddsFlag.cons hg).exists_gather hr hnew
  rw [readAll_check_cons]
  exact ⟨r', gather_cons_eq_complete_iff.mpr ⟨_, .flag (by decide) (by decide) hg, hr'⟩⟩

/-- **An added `--check`** adds the switch to what was said, and nothing else. -/
theorem addsFlag_of_insert_check {us vs : List String} {pending : Pending} {g r r' : Gathered}
    (hsubject : r.subject.isSome = true)
    (hr : gather g (readAll Switch.ofBuild pending (us ++ vs)) = .complete r)
    (hr' : gather g (readAll Switch.ofBuild pending (us ++ "--check" :: vs)) = .complete r') :
    Gathered.AddsFlag .check r r' := by
  induction us generalizing g pending with
  | nil =>
    cases pending with
    | value s => exact nomatch hr'
    | none =>
      rw [List.nil_append, readAll_check_cons] at hr'
      obtain ⟨g₁, htakes, hrest⟩ := gather_cons_eq_complete_iff.mp hr'
      cases htakes with
      | flag _ _ hnew => exact (Gathered.AddsFlag.cons hnew).gather hr hrest
  | cons u us ih =>
    rw [List.cons_append] at hr hr'
    rcases gather_readAll_cons Switch.ofBuild pending u with ⟨rfl, rfl⟩ | ⟨read, pending', hread⟩
    · -- behind `--` there is no room for a second argument
      have hcount : _ + (us ++ vs).length = _ := length_of_gather_plain hr
      have hcount' : _ + (us ++ "--check" :: vs).length = _ := length_of_gather_plain hr'
      obtain ⟨file, hfile⟩ := Option.isSome_iff_exists.mp hsubject
      have hroom : r'.subject.toList.length ≤ 1 := by cases r'.subject <;> simp
      rw [hfile, Option.toList_some, List.length_singleton, List.length_append] at hcount
      rw [List.length_append, List.length_cons] at hcount'
      omega
    · obtain ⟨g₁, hu, hrest⟩ := (hread g r _).mp hr
      obtain ⟨g₁', hu', hrest'⟩ := (hread g r' _).mp hr'
      obtain rfl := Ending.complete.inj (hu.symm.trans hu')
      exact ih hrest hrest'

/-! ### The command's name -/

/-- `--check` is not known in front of the command's name. -/
theorem check_not_mem_of_gather {front : List String} {pending : Pending} {g r : Gathered}
    (hend : "--" ∉ front)
    (h : gather g (readAll Switch.general pending front) = .complete r) : "--check" ∉ front := by
  induction front generalizing g pending with
  | nil => exact List.not_mem_nil
  | cons a front ih =>
    rw [List.mem_cons, not_or] at hend ⊢
    constructor
    · rintro rfl
      cases pending with
      | none => exact nomatch h
      | value s => exact nomatch h
    · rcases gather_readAll_cons Switch.general pending a with ⟨-, rfl⟩ | ⟨read, pending', hread⟩
      · exact absurd rfl hend.1
      · obtain ⟨g₁, -, hrest⟩ := (hread g r _).mp h
        exact ih hend.2 hrest

theorem head?_of_looksLikeOption {x : String} (h : looksLikeOption x = true) :
    x.toList.head? = some '-' := by
  simp only [looksLikeOption, Bool.and_eq_true, decide_eq_true_eq] at h
  exact h.1

theorem withCommandName_append {front : List String}
    (hfront : ∀ x ∈ front, x.toList.head? = some '-') (rest : List String) :
    withCommandName (front ++ rest) = front ++ withCommandName rest := by
  induction front with
  | nil => rfl
  | cons x front ih =>
    rw [List.cons_append, withCommandName, if_pos (hfront x List.mem_cons_self),
      ih fun y hy => hfront y (List.mem_cons_of_mem x hy), List.cons_append]

/-- The command's name was there, or it was put in front of an argument that is no option. -/
theorem eq_or_of_withCommandName {args front rest : List String}
    (hfront : ∀ x ∈ front, looksLikeOption x = true)
    (h : withCommandName args = front ++ "build" :: rest) :
    args = front ++ "build" :: rest ∨
      ∃ c tail, args = front ++ c :: tail ∧ rest = c :: tail ∧ c.toList.head? ≠ some '-' ∧
        c ∉ commandNames := by
  induction front generalizing args with
  | nil =>
    cases args with
    | nil => exact nomatch h
    | cons a args =>
      rw [withCommandName] at h
      split at h
      next hdash =>
        obtain ⟨rfl, -⟩ := List.cons.inj h
        exact absurd hdash (by decide)
      next hdash =>
        split at h
        · exact .inl h
        next hname => exact .inr ⟨a, args, rfl, (List.cons.inj h).2.symm, hdash, hname⟩
  | cons x front ih =>
    have hx := head?_of_looksLikeOption (hfront x List.mem_cons_self)
    cases args with
    | nil => exact nomatch h
    | cons a args =>
      rw [withCommandName] at h
      split at h
      next hdash =>
        obtain ⟨rfl, hrest⟩ := List.cons.inj h
        rcases ih (fun y hy => hfront y (List.mem_cons_of_mem a hy)) hrest with
          rfl | ⟨c, tail, rfl, hput⟩
        · exact .inl rfl
        · exact .inr ⟨c, tail, rfl, hput⟩
      next hdash =>
        split at h
        · obtain ⟨rfl, -⟩ := List.cons.inj h
          exact absurd hx hdash
        · obtain ⟨rfl, -⟩ := List.cons.inj h
          exact absurd hx (by decide)

theorem ofBuildArguments_eq_build_iff {before g : General} {a : BuildArguments}
    {args : List String} :
    ofBuildArguments before args = .ok (.build g a) ↔
      ∃ r file, gather {} (readAll Switch.ofBuild .none args) = .complete r ∧
        r.subject = some file ∧ g = before.or r.general ∧
        a = { file, output := r.value? .output, check := r.has .check, tokens := r.has .tokens,
              lenient := r.has .lenient, config := r.value? .config } := by
  rw [ofBuildArguments]
  cases hgather : gather {} (readAll Switch.ofBuild .none args) with
  | refused e => simp
  | question s => by_cases hs : s = .version <;> simp [answer, hs]
  | complete r =>
    cases hsubject : r.subject with
    | none => simp [hsubject]
    | some file => simp [hsubject, eq_comm]

/-- Only the command `build` asks for a build. -/
theorem eq_build_of_ofCommand {before g : General} {a : BuildArguments} {name : String}
    {args : List String} (h : ofCommand before name args = .ok (.build g a)) : name = "build" := by
  by_contra hname
  rw [ofCommand, if_neg hname] at h
  split at h
  · rw [ofTestArguments] at h
    split at h
    · exact nomatch h
    next s hs => by_cases hversion : s = .version <;> simp [answer, hversion] at h
    · split at h <;> exact nomatch h
  split at h
  · rw [ofHelpArguments.eq_def] at h
    split at h
    · exact nomatch h
    · split at h <;> exact nomatch h
    · exact nomatch h
  · exact nomatch h

theorem ofSpeltOut_command {front rest : List String} {name : String}
    (hfront : ∀ x ∈ front, looksLikeOption x = true) (hend : "--" ∉ front)
    (hname : looksLikeOption name = false) {q : Gathered}
    (hgather : gather {} (readAll Switch.general .none front) = .complete q) :
    ofSpeltOut (front ++ name :: rest) = ofCommand q.general name rest := by
  have hspan : (front ++ name :: rest).span looksLikeOption = (front, name :: rest) := by
    rw [List.span_eq_takeWhile_dropWhile, List.takeWhile_append_of_pos hfront,
      List.dropWhile_append_of_pos hfront, List.takeWhile_cons_of_neg (by simp [hname]),
      List.dropWhile_cons_of_neg (by simp [hname]), List.append_nil]
  simp only [ofSpeltOut, hspan, hgather, if_neg hend]

theorem ofSpeltOut_append {front rest : List String}
    (hfront : ∀ x ∈ front, looksLikeOption x = true) (hend : "--" ∉ front) {q : Gathered}
    (hgather : gather {} (readAll Switch.general .none front) = .complete q) :
    ofSpeltOut (front ++ "build" :: rest) = ofBuildArguments q.general rest := by
  rw [ofSpeltOut_command hfront hend (by decide) hgather, ofCommand, if_pos rfl]

/-- A build that is spelt out is options, the command's name, and arguments of the command. -/
theorem exists_of_ofSpeltOut {args : List String} {g : General} {a : BuildArguments}
    (h : ofSpeltOut args = .ok (.build g a)) :
    ∃ front rest q, args = front ++ "build" :: rest ∧ (∀ x ∈ front, looksLikeOption x = true) ∧
      "--" ∉ front ∧ gather {} (readAll Switch.general .none front) = .complete q := by
  have hargs : args = args.takeWhile looksLikeOption ++ args.dropWhile looksLikeOption :=
    List.takeWhile_append_dropWhile.symm
  rw [ofSpeltOut, List.span_eq_takeWhile_dropWhile] at h
  generalize hfront : args.takeWhile looksLikeOption = front at h hargs
  generalize args.dropWhile looksLikeOption = rest at h hargs
  cases hgather : gather {} (readAll Switch.general .none front) with
  | refused e => simp [hgather] at h
  | question s => by_cases hversion : s = .version <;> simp [hgather, answer, hversion] at h
  | complete q =>
    simp only [hgather] at h
    cases rest with
    | nil => exact nomatch h
    | cons name rest =>
      by_cases hend : "--" ∈ front
      · simp [hend] at h
      · simp only [if_neg hend] at h
        obtain rfl := eq_build_of_ofCommand h
        refine ⟨front, rest, q, hargs, fun x hx => ?_, hend, hgather⟩
        rw [← hfront] at hx
        exact List.mem_takeWhile_imp hx

/-- **Where the arguments of a build begin.** A command line that asks for a build has a head, which
ends with the first argument that is no option. What stands behind the head is read as arguments of
the command, together with the source, if this was the end of the head. -/
theorem exists_head_of_build {args : List String} {g : General} {a : BuildArguments}
    (h : ofArguments args = .ok (.build g a)) :
    ∃ head tail before own, args = head ++ tail ∧ "--check" ∉ head ∧
      (own = [] ∨ ∃ c, own = [c] ∧ looksLikeOption c = false) ∧
      ∀ tail', ofArguments (head ++ tail') = ofBuildArguments before (own ++ tail') := by
  rw [ofArguments] at h
  obtain ⟨front, rest, q, hargs, hfront, hend, hgather⟩ := exists_of_ofSpeltOut h
  have hcheck : "--check" ∉ front := check_not_mem_of_gather hend hgather
  have hdashes : ∀ x ∈ front, x.toList.head? = some '-' := fun x hx =>
    head?_of_looksLikeOption (hfront x hx)
  rcases eq_or_of_withCommandName hfront hargs with rfl | ⟨c, tail, rfl, rfl, hdash, hname⟩
  · refine ⟨front ++ ["build"], rest, q.general, [], by simp, by simp [hcheck], .inl rfl, ?_⟩
    intro tail'
    rw [List.append_assoc, ofArguments, withCommandName_append hdashes]
    exact ofSpeltOut_append hfront hend hgather
  · have hc : looksLikeOption c = false := by
      simp [looksLikeOption, hdash]
    have hne : "--check" ≠ c := by
      rintro rfl
      exact hdash (by decide)
    refine ⟨front ++ [c], tail, q.general, [c], by simp, by simp [hcheck, hne],
      .inr ⟨c, rfl, hc⟩, ?_⟩
    intro tail'
    rw [List.append_assoc, ofArguments, withCommandName_append hdashes, List.singleton_append,
      withCommandName, if_neg hdash, if_neg hname]
    exact ofSpeltOut_append hfront hend hgather

/-! ### Asking for a check -/

/-- What two readings that differ by `--check` ask for. -/
theorem ofBuildArguments_of_addsFlag {before g : General} {a : BuildArguments}
    {args args' : List String} {r r' : Gathered}
    (h : ofBuildArguments before args = .ok (.build g a))
    (hr : gather {} (readAll Switch.ofBuild .none args) = .complete r)
    (hr' : gather {} (readAll Switch.ofBuild .none args') = .complete r')
    (hadds : Gathered.AddsFlag .check r r') :
    ofBuildArguments before args' = .ok (.build g { a with check := true }) := by
  obtain ⟨r₀, file, hr₀, hfile, rfl, rfl⟩ := ofBuildArguments_eq_build_iff.mp h
  obtain rfl := Ending.complete.inj (hr.symm.trans hr₀)
  refine ofBuildArguments_eq_build_iff.mpr ⟨r', file, hr', hadds.subject.trans hfile, ?_, ?_⟩
  · rw [Gathered.general, Gathered.general, hadds.has_eq (by decide), hadds.has_eq (by decide)]
  · have hcheck : r'.has .check = true := by simp [Gathered.has, hadds.mem_flags]
    rw [Gathered.value?, Gathered.value?, Gathered.value?, Gathered.value?, hadds.values, hcheck,
      hadds.has_eq (by decide), hadds.has_eq (by decide)]

/-- **An added `--check` asks for a check.** If both a command line and the same with `--check`
added somewhere ask for builds, then for the same build, and only the second one for a check. -/
theorem ofArguments_insert_check {xs ys : List String} {g g' : General} {a a' : BuildArguments}
    (h : ofArguments (xs ++ ys) = .ok (.build g a))
    (h' : ofArguments (xs ++ "--check" :: ys) = .ok (.build g' a')) :
    a.check = false ∧ g' = g ∧ a' = { a with check := true } := by
  obtain ⟨head, tail, before, own, hsplit, hhead, -, hread⟩ := exists_head_of_build h'
  obtain ⟨us, rfl, rfl⟩ : ∃ us, xs = head ++ us ∧ tail = us ++ "--check" :: ys := by
    rcases List.append_eq_append_iff.mp hsplit with ⟨us, rfl, htail⟩ | ⟨us, rfl, htail⟩
    · cases us with
      | nil => exact ⟨[], by simp, by simpa using htail.symm⟩
      | cons u us =>
        obtain ⟨rfl, -⟩ := List.cons.inj htail
        exact absurd (by simp) hhead
    · exact ⟨us, rfl, htail⟩
  rw [List.append_assoc, hread, ← List.append_assoc] at h h'
  obtain ⟨r, file, hr, hfile, -, ha⟩ := ofBuildArguments_eq_build_iff.mp h
  obtain ⟨r', -, hr', -⟩ := ofBuildArguments_eq_build_iff.mp h'
  have hadds := addsFlag_of_insert_check (by rw [hfile]; rfl) hr hr'
  have hchecked := ofBuildArguments_of_addsFlag h hr hr' hadds
  obtain ⟨rfl, rfl⟩ := Invocation.build.inj (Except.ok.inj (h'.symm.trans hchecked))
  refine ⟨?_, rfl, rfl⟩
  simpa [ha, Gathered.has] using hadds.not_mem_flags

/-- **`--check` can be added** to a command line that asks for a build and does not have it. -/
theorem exists_insert_check {args : List String} {g : General} {a : BuildArguments}
    (h : ofArguments args = .ok (.build g a)) (hcheck : a.check = false) :
    ∃ xs ys, args = xs ++ ys ∧
      ofArguments (xs ++ "--check" :: ys) = .ok (.build g { a with check := true }) := by
  obtain ⟨head, tail, before, own, rfl, -, hown, hread⟩ := exists_head_of_build h
  refine ⟨head, tail, rfl, ?_⟩
  rw [hread] at h ⊢
  obtain ⟨r, file, hr, hfile, -, ha⟩ := ofBuildArguments_eq_build_iff.mp h
  have hnew : .check ∉ r.flags := by simpa [ha, Gathered.has] using hcheck
  obtain ⟨r', hr'⟩ : ∃ r', gather {} (readAll Switch.ofBuild .none (own ++ "--check" :: tail)) =
      .complete r' := by
    rcases hown with rfl | ⟨c, rfl, hc⟩
    · exact exists_gather_check hr hnew
    · rw [List.singleton_append, readAll_cons_of_plain hc] at hr ⊢
      obtain ⟨g₁, htakes, hrest⟩ := gather_cons_eq_complete_iff.mp hr
      obtain ⟨r', hr'⟩ := exists_gather_check hrest hnew
      exact ⟨r', gather_cons_eq_complete_iff.mpr ⟨g₁, htakes, hr'⟩⟩
  exact ofBuildArguments_of_addsFlag h hr hr'
    (addsFlag_of_insert_check (by rw [hfile]; rfl) hr hr')

end Invocation

end Flowscript
