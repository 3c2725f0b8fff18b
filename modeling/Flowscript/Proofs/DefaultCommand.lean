import Flowscript.Command.Session
import Flowscript.Proofs.Arguments

/-!
# The command's name left out

`build` is the default command: its name may be left out in front of the source. This module says
when a command line without the name is the same as the one with `build` in front of all.

## Where the name is put

It is put in front of the first argument that does not begin with a dash, whatever that argument
turns out to be. So the options in front of it come to stand in front of the name, where only those
that all commands share are known. These may stand on either side: a switch in front of the name
counts together with the switches behind it (`gather_adding`).

Any other option in front is refused. If it has a value that stands apart, the name is put in front
of the value, but the option was refused before. Whoever wants such an option has to spell the name
out, or to put the option behind the source.

## Main definitions

* `Invocation.Gathered.adding` — what was said, with switches that were given before.
* `Invocation.generalOptions` — the options that may stand on either side of the name.

## Main results

* `Invocation.gather_adding` — switches that were given before do not change what else is said.
* `Invocation.ofArguments_general` — the name may be left out behind options of this kind.
* `Invocation.exists_refused_of_option` — all others are refused in front of the name.
* `command_name_left_out` — both together, for whole runs.
-/

namespace Flowscript

namespace Invocation

open Argument (readAll readLong readShort looksLikeOption Pending)

/-! ### Switches that were given before -/

/-- What was said, with switches that were given before. -/
def Gathered.adding (extra : List Switch) (g : Gathered) : Gathered :=
  { g with flags := g.flags ++ extra }

/-- An ending, with switches that were given before. -/
def Ending.adding (extra : List Switch) : Ending → Ending
  | .complete g => .complete (g.adding extra)
  | .question s => .question s
  | .refused e => .refused e

theorem Gathered.has_adding_iff {extra : List Switch} {g : Gathered} {s : Switch} :
    (g.adding extra).has s = true ↔ g.has s = true ∨ s ∈ extra := by
  rw [has, has, adding, decide_eq_true_eq, decide_eq_true_eq, List.mem_append]

theorem Gathered.has_adding {extra : List Switch} {s : Switch} (h : s ∉ extra) (g : Gathered) :
    (g.adding extra).has s = g.has s := by
  rw [Bool.eq_iff_iff, has_adding_iff, or_iff_left h]

/-- It does not matter on which side of the name they were given. -/
theorem Gathered.general_adding (extra : List Switch) (g : Gathered) :
    General.or {} (g.adding extra).general = (Gathered.adding extra {}).general.or g.general := by
  have hempty (s : Switch) : ¬Gathered.has {} s = true := by simp [has]
  have hside (s : Switch) :
      (false || (g.adding extra).has s) = ((Gathered.adding extra {}).has s || g.has s) := by
    rw [Bool.eq_iff_iff, Bool.false_or, Bool.or_eq_true, has_adding_iff, has_adding_iff,
      or_iff_right (hempty s), or_comm]
  rw [General.or, General.or, General.mk.injEq]
  exact ⟨hside .noColor, hside .verbose⟩

/-- What can be taken after other switches can be taken without them. -/
theorem Takes.of_adding {extra : List Switch} {g g₁' : Gathered} {x : Argument}
    (h : Takes (g.adding extra) x g₁') : ∃ g₁, Takes g x g₁ ∧ g₁' = g₁.adding extra := by
  cases h with
  | flag hhelp hversion hnew =>
    exact ⟨_, .flag hhelp hversion fun hold => hnew (List.mem_append_left extra hold), rfl⟩
  | valued hempty hnew => exact ⟨_, .valued hempty hnew, rfl⟩
  | plain hempty hnew => exact ⟨_, .plain hempty hnew, rfl⟩

/-- **Switches that were given before** do not change what else is said, unless one of them is given
again. -/
theorem gather_adding {extra : List Switch} {g : Gathered} {xs : List Argument}
    (h : ∀ e, gather (g.adding extra) xs ≠ .refused e) :
    gather (g.adding extra) xs = (gather g xs).adding extra := by
  induction xs generalizing g with
  | nil => rfl
  | cons x xs ih =>
    rcases gather_cons_cases (g.adding extra) x with ⟨e, he⟩ | ⟨s, rfl, hquestion⟩ | ⟨g₁', htakes⟩
    · exact absurd (he xs) (h e)
    · rw [gather_question hquestion, gather_question hquestion, Ending.adding]
    · obtain ⟨g₁, htakes₁, rfl⟩ := htakes.of_adding
      rw [htakes.gather_cons] at h ⊢
      rw [htakes₁.gather_cons]
      exact ih h

/-! ### Options on either side of the name -/

/-- The options that may stand on either side of the command's name, as they are spelt. -/
def generalOptions : List String := ["--no-color", "--verbose", "-v"]

theorem looksLikeOption_of_general {x : String} (h : x ∈ generalOptions) :
    looksLikeOption x = true ∧ x ≠ "--" := by
  revert x
  decide

/-- On either side of the name they are read as the same switch. -/
theorem exists_readAll_cons {x : String} (h : x ∈ generalOptions) :
    ∃ s, (s = .noColor ∨ s = .verbose) ∧ ∀ rest,
      readAll Switch.ofBuild .none (x :: rest) = .flag s :: readAll Switch.ofBuild .none rest ∧
      readAll Switch.general .none (x :: rest) = .flag s :: readAll Switch.general .none rest := by
  simp only [generalOptions, List.mem_cons, List.not_mem_nil, or_false] at h
  rcases h with rfl | rfl | rfl
  · exact ⟨.noColor, .inl rfl, fun rest => ⟨rfl, rfl⟩⟩
  · exact ⟨.verbose, .inr rfl, fun rest => ⟨rfl, rfl⟩⟩
  · exact ⟨.verbose, .inr rfl, fun rest => ⟨rfl, rfl⟩⟩

/-- Options in front say the same on either side of the name. -/
theorem exists_gather_front {front : List String} (hfront : ∀ x ∈ front, x ∈ generalOptions)
    {g : Gathered} {rest : List String}
    (h : ∀ e, gather g (readAll Switch.ofBuild .none (front ++ rest)) ≠ .refused e) :
    ∃ extra : List Switch, (∀ s ∈ extra, s = .noColor ∨ s = .verbose) ∧
      gather g (readAll Switch.ofBuild .none (front ++ rest)) =
        gather { g with flags := extra ++ g.flags } (readAll Switch.ofBuild .none rest) ∧
      ∀ rest', gather g (readAll Switch.general .none (front ++ rest')) =
        gather { g with flags := extra ++ g.flags } (readAll Switch.general .none rest') := by
  induction front generalizing g with
  | nil => exact ⟨[], fun _ hmem => absurd hmem List.not_mem_nil, rfl, fun _ => rfl⟩
  | cons x front ih =>
    obtain ⟨hx, hfront⟩ := List.forall_mem_cons.mp hfront
    obtain ⟨s, hs, hread⟩ := exists_readAll_cons hx
    simp only [List.cons_append, (hread _).1, (hread _).2] at h ⊢
    have hnot : ¬(s = .help ∨ s = .version) := by rcases hs with rfl | rfl <;> decide
    rcases gather_cons_cases g (.flag s) with ⟨e, he⟩ | ⟨t, ht, hquestion⟩ | ⟨g₁, htakes⟩
    · exact absurd (he _) (h e)
    · obtain rfl := Argument.flag.inj ht
      exact absurd hquestion hnot
    · simp only [htakes.gather_cons] at h ⊢
      cases htakes
      obtain ⟨extra, hextra, hown, hgeneral⟩ := ih hfront h
      refine ⟨extra ++ [s], ?_, ?_, fun rest' => ?_⟩
      · exact List.forall_mem_append.mpr ⟨hextra, List.forall_mem_singleton.mpr hs⟩
      · rw [hown]
        simp
      · rw [hgeneral]
        simp

/-- **Options in front of the name count** as options behind it. -/
theorem ofBuildArguments_front {front rest : List String}
    (hfront : ∀ x ∈ front, x ∈ generalOptions) {asked : Invocation}
    (h : ofBuildArguments {} (front ++ rest) = .ok asked) :
    ∃ q, gather {} (readAll Switch.general .none front) = .complete q ∧
      ofBuildArguments q.general rest = .ok asked := by
  have hread : ∀ e, gather {} (readAll Switch.ofBuild .none (front ++ rest)) ≠ .refused e := by
    intro e he
    rw [ofBuildArguments, he] at h
    cases h
  obtain ⟨extra, hextra, hown, hgeneral⟩ := exists_gather_front hfront hread
  have hstart : ({ flags := extra ++ [] } : Gathered) = Gathered.adding extra {} := by
    rw [List.append_nil]
    rfl
  have hadding : gather {} (readAll Switch.ofBuild .none (front ++ rest)) =
      (gather {} (readAll Switch.ofBuild .none rest)).adding extra := by
    rw [hown, hstart] at hread ⊢
    exact gather_adding hread
  have hq : gather {} (readAll Switch.general .none front) =
      .complete (Gathered.adding extra {}) := by
    rw [← List.append_nil front, hgeneral [], hstart]
    rfl
  refine ⟨_, hq, ?_⟩
  rw [ofBuildArguments, hadding] at h
  rw [ofBuildArguments]
  cases hgather : gather {} (readAll Switch.ofBuild .none rest) with
  | refused e =>
    rw [hgather] at h
    cases h
  | question s =>
    rw [hgather] at h
    exact h
  | complete r =>
    rw [hgather] at h
    have hown (s : Switch) (hs : s ≠ .noColor ∧ s ≠ .verbose) : (r.adding extra).has s = r.has s :=
      Gathered.has_adding (fun hmem => (hextra s hmem).elim hs.1 hs.2) r
    simp only [Ending.adding, hown .check (by decide), hown .tokens (by decide),
      hown .lenient (by decide), Gathered.general_adding] at h
    exact h

theorem withCommandName_front {front tail : List String} {c : String}
    (hfront : ∀ x ∈ front, x.toList.head? = some '-') (hc : c.toList.head? ≠ some '-')
    (hname : c ∉ commandNames) :
    withCommandName (front ++ c :: tail) = front ++ "build" :: c :: tail := by
  rw [withCommandName_append hfront, withCommandName, if_neg hc, if_neg hname]

/-- A command line that spells the name out in front of all. -/
theorem ofArguments_build (args : List String) :
    ofArguments ("build" :: args) = ofBuildArguments {} args := by
  have hname : withCommandName ("build" :: args) = [] ++ "build" :: args := by
    rw [withCommandName, if_neg (by decide), if_pos (by decide), List.nil_append]
  rw [ofArguments, hname, ofSpeltOut_append (by simp) (by simp) rfl]
  rfl

section Front

variable {front tail : List String} {c : String}

/-- **The name may be left out** behind options that may stand on either side of it. -/
theorem ofArguments_general (hfront : ∀ x ∈ front, x ∈ generalOptions)
    (hc : c.toList.head? ≠ some '-') (hname : c ∉ commandNames) {asked : Invocation}
    (h : ofArguments ("build" :: (front ++ c :: tail)) = .ok asked) :
    ofArguments (front ++ c :: tail) = .ok asked := by
  rw [ofArguments_build] at h
  obtain ⟨q, hq, hasked⟩ := ofBuildArguments_front hfront h
  have hoptions := fun x hx => looksLikeOption_of_general (hfront x hx)
  have hend : "--" ∉ front := fun hmem => (hoptions "--" hmem).2 rfl
  rw [ofArguments, withCommandName_front (fun x hx => head?_of_looksLikeOption (hoptions x hx).1) hc
    hname, ofSpeltOut_append (fun x hx => (hoptions x hx).1) hend hq, hasked]

end Front

/-! ### All other options -/

/-- Read the options of an argument, given without its first dash. -/
def readOption (known : List Switch) : List Char → List Argument × Pending
  | '-' :: name => readLong known name
  | letters => readShort known letters

theorem readAll_cons_of_option {x : String} (h : looksLikeOption x = true) (hend : x ≠ "--")
    (known : List Switch) (rest : List String) :
    readAll known .none (x :: rest) = (readOption known (x.toList.drop 1)).1 ++
      readAll known (readOption known (x.toList.drop 1)).2 rest := by
  rw [readAll]
  simp only [h, hend, Bool.not_true, Bool.false_eq_true, if_false]
  rfl

section Refused

variable {q r : Gathered} {more more' : List Argument}

theorem not_complete_of_question {s : Switch} (h : s = .help ∨ s = .version)
    {rest : List Argument} :
    gather q (.flag s :: rest) ≠ .complete r := by
  rw [gather_question h]
  exact fun h => nomatch h

/-- Of the options in long spelling, all but two are refused in front of the name. -/
theorem exists_refused_of_readLong {name : List Char} (hcolor : name ≠ "no-color".toList)
    (hverbose : name ≠ "verbose".toList)
    (h : gather q ((readLong Switch.ofBuild name).1 ++ more) = .complete r) :
    ∃ e, gather q ((readLong Switch.general name).1 ++ more') = .refused e := by
  rw [readLong, List.span_eq_takeWhile_dropWhile]
  have hname : name.takeWhile (· ≠ '=') ++ name.dropWhile (· ≠ '=') = name :=
    List.takeWhile_append_dropWhile
  simp only
  generalize name.takeWhile (· ≠ '=') = long at hname ⊢
  generalize name.dropWhile (· ≠ '=') = attached at hname ⊢
  cases hfind : Switch.general.find? fun s => s.long.toList = long with
  | none => exact ⟨_, rfl⟩
  | some s =>
    have hlong : s.long.toList = long := by simpa using List.find?_some hfind
    have hgeneral : s ∈ Switch.general := List.mem_of_find?_eq_some hfind
    have hvalue : s.takesValue = false := by
      clear hfind hlong
      revert s
      decide
    simp only [hvalue]
    cases attached with
    | cons c value => exact ⟨_, rfl⟩
    | nil =>
      rw [List.append_nil] at hname
      obtain rfl := hlong.trans hname
      simp only [Switch.general, List.mem_cons, List.not_mem_nil, or_false] at hgeneral
      rcases hgeneral with rfl | rfl | rfl | rfl
      · exact absurd rfl hcolor
      · exact absurd rfl hverbose
      · exact absurd h (not_complete_of_question (.inl rfl))
      · cases h

/-- In front of the name, a letter that is not refused is a `v`. -/
theorem refused_or_of_readShort {c : Char} {letters : List Char}
    (h : gather q ((readShort Switch.ofBuild (c :: letters)).1 ++ more) = .complete r) :
    (∀ more', ∃ e, gather q ((readShort Switch.general (c :: letters)).1 ++ more') = .refused e) ∨
      c = 'v' ∧ Switch.verbose ∉ q.flags := by
  rw [readShort]
  cases hfind : Switch.general.find? fun s => s.short? = some c with
  | none => exact .inl fun _ => ⟨_, rfl⟩
  | some s =>
    have hshort : s.short? = some c := by simpa using List.find?_some hfind
    have hgeneral : s ∈ Switch.general := List.mem_of_find?_eq_some hfind
    simp only [Switch.general, List.mem_cons, List.not_mem_nil, or_false] at hgeneral
    rcases hgeneral with rfl | rfl | rfl | rfl
    · cases hshort
    · obtain rfl := Option.some.inj hshort
      by_cases hold : Switch.verbose ∈ q.flags
      · exact .inl fun _ => ⟨.repeated ("--" ++ Switch.verbose.long), by
          simp [gather, Gathered.has, hold, Switch.takesValue]⟩
      · exact .inr ⟨rfl, hold⟩
    · obtain rfl := Option.some.inj hshort
      exact absurd h (not_complete_of_question (.inl rfl))
    · obtain rfl := Option.some.inj hshort
      cases h

/-- Of the options in short spelling, all but one are refused in front of the name. -/
theorem exists_refused_of_readShort {letters : List Char} (hne : letters ≠ [])
    (hverbose : letters ≠ ['v'])
    (h : gather q ((readShort Switch.ofBuild letters).1 ++ more) = .complete r) :
    ∃ e, gather q ((readShort Switch.general letters).1 ++ more') = .refused e := by
  obtain ⟨c, letters, rfl⟩ := List.exists_cons_of_ne_nil hne
  rcases refused_or_of_readShort h with hrefused | ⟨rfl, hnew⟩
  · exact hrefused more'
  · -- a second letter would be a second `v`
    cases letters with
    | nil => exact absurd rfl hverbose
    | cons d letters =>
      have htakes : Takes q (.flag .verbose) { q with flags := .verbose :: q.flags } :=
        .flag (by decide) (by decide) hnew
      have hown : gather q (.flag .verbose ::
          ((readShort Switch.ofBuild (d :: letters)).1 ++ more)) = .complete r := h
      rw [htakes.gather_cons] at hown
      rcases refused_or_of_readShort hown with hrefused | ⟨-, hnew'⟩
      · obtain ⟨e, he⟩ := hrefused more'
        exact ⟨e, (htakes.gather_cons _).trans he⟩
      · exact absurd List.mem_cons_self hnew'

/-- **Another option in front of the name is refused**, if it is accepted behind the name. -/
theorem exists_refused_of_option {x : String} (hoption : looksLikeOption x = true) (hend : x ≠ "--")
    (hx : x ∉ generalOptions) {rest : List String}
    (h : gather q (readAll Switch.ofBuild .none (x :: rest)) = .complete r) (rest' : List String) :
    ∃ e, gather q (readAll Switch.general .none (x :: rest')) = .refused e := by
  rw [readAll_cons_of_option hoption hend] at h ⊢
  obtain ⟨letters, hletters⟩ := List.head?_eq_some_iff.mp (head?_of_looksLikeOption hoption)
  have hspelt (s : String) (hs : s ∈ generalOptions) : letters ≠ s.toList.drop 1 := by
    rintro rfl
    refine hx ?_
    have hxs : x = s := by
      rw [← String.toList_inj, hletters]
      clear hletters h
      revert s
      decide
    rwa [hxs]
  rw [hletters, List.drop_one, List.tail_cons] at h ⊢
  cases letters with
  | nil =>
    obtain rfl : x = "-" := String.toList_inj.mp hletters
    exact absurd hoption (by decide)
  | cons d name =>
    by_cases hd : d = '-'
    · subst hd
      refine exists_refused_of_readLong ?_ ?_ h
      · exact fun hname => hspelt "--no-color" (by decide) (by rw [hname]; rfl)
      · exact fun hname => hspelt "--verbose" (by decide) (by rw [hname]; rfl)
    · have hread (known : List Switch) :
          readOption known (d :: name) = readShort known (d :: name) := by
        simp [readOption, hd]
      rw [hread] at h ⊢
      exact exists_refused_of_readShort (List.cons_ne_nil d name) (hspelt "-v" (by decide)) h

end Refused

section Front

variable {front tail : List String} {c : String}

theorem gather_plain_ne_question (g : Gathered) (texts : List String) (s : Switch) :
    gather g (texts.map .plain) ≠ .question s := by
  induction texts generalizing g with
  | nil => exact fun h => nomatch h
  | cons text texts ih =>
    rw [List.map_cons]
    rcases gather_cons_cases g (.plain text) with ⟨e, he⟩ | ⟨t, ht, -⟩ | ⟨g₁, htakes⟩
    · rw [he]
      exact fun h => nomatch h
    · exact nomatch ht
    · rw [htakes.gather_cons]
      exact ih g₁

/-- Options that are refused, or that `--` stands among, end a command line. -/
theorem exists_error_of_ofSpeltOut {args : List String}
    (h : (∃ e, gather {} (readAll Switch.general .none (args.takeWhile looksLikeOption)) =
        .refused e) ∨
      "--" ∈ args.takeWhile looksLikeOption ∧ ∀ s, gather {} (readAll Switch.general .none
        (args.takeWhile looksLikeOption)) ≠ .question s) :
    ∃ e, ofSpeltOut args = .error e := by
  rw [ofSpeltOut, List.span_eq_takeWhile_dropWhile]
  simp only
  rcases h with ⟨e, he⟩ | ⟨hend, hquestion⟩
  · exact ⟨e, by rw [he]⟩
  · cases hgather : gather {} (readAll Switch.general .none (args.takeWhile looksLikeOption)) with
    | refused e => exact ⟨e, rfl⟩
    | question s => exact absurd hgather (hquestion s)
    | complete q =>
      cases args.dropWhile looksLikeOption with
      | nil => exact ⟨_, rfl⟩
      | cons name rest => exact ⟨_, if_pos hend⟩

/-- **Other options end a command line** that would ask for a build with the name in front. -/
theorem exists_error_of_ofArguments (hfront : ∀ x ∈ front, x.toList.head? = some '-')
    (hc : c.toList.head? ≠ some '-') (hname : c ∉ commandNames) {g : General} {a : BuildArguments}
    (h : ofArguments ("build" :: (front ++ c :: tail)) = .ok (.build g a))
    (hother : ∃ x ∈ front, x ∉ generalOptions) :
    ∃ e, ofArguments (front ++ c :: tail) = .error e := by
  rw [ofArguments, withCommandName_front hfront hc hname]
  rw [ofArguments_build] at h
  obtain ⟨r, -, hr, -⟩ := ofBuildArguments_eq_build_iff.mp h
  obtain ⟨x, pre, post, rfl, hpre, hx⟩ : ∃ x pre post, front = pre ++ x :: post ∧
      (∀ y ∈ pre, y ∈ generalOptions) ∧ x ∉ generalOptions := by
    obtain ⟨x, hfind⟩ := Option.isSome_iff_exists.mp (List.find?_isSome.mpr
      (by simpa using hother) : (front.find? (· ∉ generalOptions)).isSome = true)
    obtain ⟨hx, pre, post, hsplit, hpre⟩ := List.find?_eq_some_iff_append.mp hfind
    exact ⟨x, pre, post, hsplit, by simpa using hpre, by simpa using hx⟩
  rw [List.append_assoc, List.cons_append] at hr ⊢
  obtain ⟨extra, -, hown, hgeneral⟩ :=
    exists_gather_front hpre fun e he => by cases hr.symm.trans he
  generalize ({ flags := extra ++ [] } : Gathered) = q at hown hgeneral
  have hoptions := fun y hy => looksLikeOption_of_general (hpre y hy)
  by_cases hoption : looksLikeOption x = true
  · refine exists_error_of_ofSpeltOut ?_
    rw [List.takeWhile_append_of_pos fun y hy => (hoptions y hy).1,
      List.takeWhile_cons_of_pos hoption, hgeneral]
    by_cases hend : x = "--"
    · subst hend
      exact .inr ⟨by simp, gather_plain_ne_question q _⟩
    · exact .inl (exists_refused_of_option hoption hend hx (hown ▸ hr) _)
  · -- a single dash begins like an option and is none
    have hdash : x = "-" := by
      have hhead := hfront x (by simp)
      simpa [looksLikeOption, hhead] using hoption
    subst hdash
    have hq : gather {} (readAll Switch.general .none pre) = .complete q := by
      rw [← List.append_nil pre, hgeneral []]
      rfl
    rw [ofSpeltOut_command (fun y hy => (hoptions y hy).1) (fun hmem => (hoptions _ hmem).2 rfl)
      (by decide) hq]
    exact ⟨_, rfl⟩

end Front

end Invocation

/-! ### Runs -/

/-- **The name may be left out** behind options that may stand on either side of it. Take a command
line whose first argument without a dash is no command's name, and which is not refused with
`build` in front of all. If only such options stand in front of this argument, the two command
lines have the same outcome and leave the same files. If `build` in front makes it ask for a build,
any other option there is a usage error, and nothing is changed. -/
theorem command_name_left_out (front tail : List String) (c : String)
    (hfront : ∀ x ∈ front, x.toList.head? = some '-')
    (hc : c.toList.head? ≠ some '-') (hname : c ∉ Invocation.commandNames) {asked : Invocation}
    (hasked : Invocation.ofArguments ("build" :: (front ++ c :: tail)) = .ok asked) :
    ((∀ x ∈ front, x ∈ Invocation.generalOptions) → ∀ terminal d,
        runProgram terminal (front ++ c :: tail) d =
          runProgram terminal ("build" :: (front ++ c :: tail)) d) ∧
      ((∃ g a, asked = .build g a) → (∃ x ∈ front, x ∉ Invocation.generalOptions) → ∀ terminal d,
        (runProgram terminal (front ++ c :: tail) d).1.exit = usageExit ∧
          (runProgram terminal (front ++ c :: tail) d).2 = d) := by
  constructor
  · intro hgeneral terminal d
    have hsame := Invocation.ofArguments_general hgeneral hc hname hasked
    rw [runProgram, runProgram, hsame, hasked]
  · rintro ⟨g, a, rfl⟩ hother terminal d
    obtain ⟨e, he⟩ := Invocation.exists_error_of_ofArguments hfront hc hname hasked hother
    rw [runProgram, he]
    exact ⟨rfl, rfl⟩

/-- Shared options on both sides of the source, and an option with a value that stands apart in
front of the source: the name would be put in front of the value. -/
theorem command_name_left_out_verbose :
    let d : Disk := ⟨.folder [("a.fgs", .file "end".toUTF8)], []⟩
    runProgram none ["-v", "a.fgs", "-o", "b", "--no-color", "--lenient"] d =
        runProgram none ["build", "-v", "a.fgs", "-o", "b", "--no-color", "--lenient"] d ∧
      (runProgram none ["build", "-v", "-o", "b", "--lenient", "a.fgs"] d).1.exit = 0 ∧
      (runProgram none ["-v", "-o", "b", "--lenient", "a.fgs"] d).1.exit = usageExit ∧
      (runProgram none ["-v", "-o", "b", "--lenient", "a.fgs"] d).2 = d := by
  intro d
  have hspelt :
      (runProgram none ["build", "-v", "-o", "b", "--lenient", "a.fgs"] d).1.exit = 0 := by
    decide +kernel +revert
  have hsame := (command_name_left_out ["-v"] ["-o", "b", "--no-color", "--lenient"] "a.fgs"
    (by decide) (by decide) (by decide) rfl).1 (by decide) none d
  have hrefused := (command_name_left_out ["-v", "-o"] ["--lenient", "a.fgs"] "b"
    (by decide) (by decide) (by decide) rfl).2 ⟨_, _, rfl⟩ ⟨"-o", by decide⟩ none d
  exact ⟨hsame, hspelt, hrefused⟩

/-- The name cannot be left out everywhere: a check that is asked for in front of the source needs
it. -/
theorem command_name_needed_behind_check :
    let source := "fn main () _ void\nend\n"
    let d : Disk := ⟨.folder [("a.fgs", .file source.toUTF8)], []⟩
    ["--check", "a.fgs"].find? (fun x => x.toList.head? ≠ some '-') = some "a.fgs" ∧
      "a.fgs" ∉ Invocation.commandNames ∧
      (runProgram none ("build" :: ["--check", "a.fgs"]) d).1 =
        ⟨0, "", "ok: a.fgs translated successfully\n"⟩ ∧
      (runProgram none ["--check", "a.fgs"] d).1.exit = usageExit ∧
      runProgram none ["--check", "a.fgs"] d ≠
        runProgram none ("build" :: ["--check", "a.fgs"]) d := by
  intro source d
  have hbuild : (runProgram none ("build" :: ["--check", "a.fgs"]) d).1 =
      ⟨0, "", "ok: a.fgs translated successfully\n"⟩ := by decide +kernel +revert
  have hrefused : (runProgram none ["--check", "a.fgs"] d).1.exit = usageExit := by
    decide +kernel +revert
  refine ⟨by decide, by decide, hbuild, hrefused, fun hsame => ?_⟩
  rw [hsame, hbuild] at hrefused
  exact absurd hrefused (by decide)

end Flowscript
