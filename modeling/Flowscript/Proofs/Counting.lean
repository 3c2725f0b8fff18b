import Flowscript.Proofs.Verbatim

/-!
# Counting loops

The head of a counting loop is taken apart by three words: `from` behind the counter, the first `to`
behind that, and the first `step` behind that. This module says which arguments have a head, which
head that is, and what the others are refused for.

## First occurrences

The words may also occur as the counter or inside the expressions. Cutting at first occurrences
makes the head unique all the same, and it also settles the error: each word is looked for behind the
word before it, so the first one that has no place is well defined (`FirstMissing`). A word that
stands at the very end has no place either, because nothing would follow it.

## What is not checked

Only the arguments as a whole are counted, the reversing word among them. Nothing says that a start
or a stop has tokens: `to` may stand right behind `from`, and `step` right behind `to`, if there are
tokens enough elsewhere. Such a loop is accepted and written with an empty value
(`exists_empty_bound`). The step is the exception, because the last word must be followed by
something.

## Main definitions

* `Statement.ForHead.SpelledBy` — arguments that spell a head.
* `Statement.FirstMissing` — the first word that has no place.
* `WritesLoop` — what a counting loop of a source adds to its document.

## Main results

* `Statement.ForHead.ofTokens_eq_ok_iff_spelledBy`, `Statement.ForHead.ofTokens_eq_error_iff` — what
  is read, and what is refused.
* `forLoop_read_exactly` — the same for the statement.
* `bounds_of_counting_loop` — which values of a counting loop are empty.
-/

namespace Flowscript

open Markup

namespace Statement

/-! ### Heads -/

/-- The arguments of a counting loop without the word that reverses it, if that word leads them. -/
def unreversed (args : List Token) : List Token :=
  if args.head? = some "backward" then args.tail else args

theorem leadingBackward_eq (args : List Token) :
    leadingBackward args = (decide (args.head? = some "backward"), unreversed args) := by
  unfold leadingBackward
  split
  · rfl
  · next hne =>
    have hhead : args.head? ≠ some "backward" := by
      intro h
      obtain ⟨tail, rfl⟩ := List.head?_eq_some_iff.mp h
      exact hne tail rfl
    simp [unreversed, hhead]

/-- The arguments spell a head: there are seven of them or more, and without a leading `backward`
they are the counter, `from`, the start up to the first `to`, the stop up to the first `step` behind
it, and the step, which has tokens. -/
structure ForHead.SpelledBy (h : ForHead) (args : List Token) : Prop where
  /-- There are enough arguments. -/
  seven_le : 7 ≤ args.length
  /-- The counter runs downwards if `backward` leads. -/
  backward_iff : h.backward = true ↔ args.head? = some "backward"
  /-- The three words stand between the parts. -/
  unreversed_eq : unreversed args =
    h.counter :: "from" :: h.start ++ ["to"] ++ h.stop ++ ["step"] ++ h.step
  /-- The start ends at the first `to`. -/
  to_notMem : "to" ∉ h.start
  /-- The stop ends at the first `step`. -/
  step_notMem : "step" ∉ h.stop
  /-- There is a step. -/
  step_ne_nil : h.step ≠ []

/-- **Heads are read exactly.** A head is read from the arguments that spell it, and from no others.
-/
theorem ForHead.ofTokens_eq_ok_iff_spelledBy {args : List Token} {h : ForHead} :
    ForHead.ofTokens args = .ok h ↔ h.SpelledBy args := by
  have hlead := leadingBackward_eq args
  rw [ForHead.ofTokens_eq_ok_iff]
  constructor
  · rintro ⟨hwf, rfl⟩
    obtain ⟨hback, hrest⟩ := Prod.mk.inj (hlead.symm.trans hwf.leadingBackward_tokens)
    refine ⟨hwf.leastArguments_le, ?_, ?_, hwf.to_notMem, hwf.step_notMem, hwf.step_ne_nil⟩
    · rw [← hback, decide_eq_true_iff]
    · rw [hrest]
      simp
  · intro hspelled
    obtain ⟨hargs, hhead⟩ := leadingBackward_eq_iff.mp hlead
    have hback : h.backward = decide (args.head? = some "backward") := by
      rw [Bool.eq_iff_iff, hspelled.backward_iff, decide_eq_true_iff]
    have htokens : args = h.tokens := by
      rw [hargs, hspelled.unreversed_eq, ForHead.tokens, hback]
      simp
    refine ⟨⟨fun hb => ?_, hspelled.to_notMem, hspelled.step_notMem, hspelled.step_ne_nil,
      htokens ▸ hspelled.seven_le⟩, htokens⟩
    rw [hspelled.unreversed_eq] at hhead
    simpa using hhead (hback ▸ hb)

/-- Arguments spell one head at most. -/
theorem ForHead.SpelledBy.unique {args : List Token} {h h' : ForHead} (hspelled : h.SpelledBy args)
    (hspelled' : h'.SpelledBy args) : h' = h := by
  rw [← ForHead.ofTokens_eq_ok_iff_spelledBy] at hspelled hspelled'
  exact Except.ok.inj (hspelled'.symm.trans hspelled)

/-! ### Words without a place -/

/-- The tokens cannot be cut at the word: it is not among them, or its first occurrence is the last
token. -/
def Missing (word : Token) (tokens : List Token) : Prop :=
  word ∉ tokens ∨ ∃ before, word ∉ before ∧ tokens = before ++ [word]

theorem splitAt?_eq_none_iff {word : Token} {tokens : List Token} :
    splitAt? word tokens = none ↔ Missing word tokens := by
  constructor
  · intro hnone
    by_cases hmem : word ∈ tokens
    · obtain ⟨before, after, rfl, hbefore⟩ := List.eq_append_cons_of_mem hmem
      have hafter : after = [] := by
        by_contra hne
        have hcut := splitAt?_eq_some_iff.mpr ⟨hbefore, hne, rfl⟩
        exact nomatch hnone.symm.trans hcut
      exact .inr ⟨before, hbefore, by rw [hafter]⟩
    · exact .inl hmem
  · intro hmissing
    rw [Option.eq_none_iff_forall_ne_some]
    rintro ⟨before, after⟩ hcut
    obtain ⟨hbefore, hafter, rfl⟩ := splitAt?_eq_some_iff.mp hcut
    rcases hmissing with hnot | ⟨before', hbefore', heq⟩
    · simp at hnot
    · -- the only occurrence of the word is at the end, so nothing follows it
      obtain ⟨front, last, rfl⟩ : ∃ front last, after = front ++ [last] :=
        ⟨_, _, (List.dropLast_append_getLast hafter).symm⟩
      rw [← List.cons_append, ← List.append_assoc] at heq
      obtain ⟨rfl, -⟩ := List.append_inj' heq rfl
      simp at hbefore'

/-- The first of the three words that has no place, in the arguments behind `backward`. -/
inductive FirstMissing : List Token → Token → Prop where
  /-- The second argument is not `from`. -/
  | atFrom {args : List Token} (h : args[1]? ≠ some "from") : FirstMissing args "from"
  /-- There is no place for `to` behind `from`. -/
  | atTo {counter : Token} {bounds : List Token} (h : Missing "to" bounds) :
      FirstMissing (counter :: "from" :: bounds) "to"
  /-- There is no place for `step` behind the first `to`. -/
  | atStep {counter : Token} {start bounds : List Token} (hstart : "to" ∉ start)
      (hbounds : bounds ≠ []) (h : Missing "step" bounds) :
      FirstMissing (counter :: "from" :: start ++ "to" :: bounds) "step"

theorem ForHead.ofTokens_of_short {args : List Token} (h : args.length < 7) :
    ForHead.ofTokens args = .error (.argumentCount "for" (.atLeast 7) args.length) :=
  if_pos h

/-- Enough arguments that spell no head are refused for the first word that has no place. -/
theorem FirstMissing.ofTokens {args : List Token} {word : Token} (hlen : 7 ≤ args.length)
    (h : FirstMissing (unreversed args) word) :
    ForHead.ofTokens args = .error (missingWord word) := by
  have hcount : ¬args.length < ForHead.leastArguments := Nat.not_lt.mpr hlen
  rw [ForHead.ofTokens, if_neg hcount, leadingBackward_eq]
  generalize unreversed args = rest at h
  cases h with
  | atFrom h =>
    split
    · next heq =>
      obtain ⟨-, rfl⟩ := Prod.mk.inj heq
      simp at h
    · rfl
  | atTo h => simp only [splitAt?_eq_none_iff.mpr h]
  | atStep hstart hbounds h =>
    have hcut := splitAt?_eq_some_iff.mpr ⟨hstart, hbounds, rfl⟩
    simp only [List.cons_append, hcut, splitAt?_eq_none_iff.mpr h]

/-- Arguments that are enough spell a head, or one of the words has no place. -/
theorem exists_spelledBy_or_firstMissing {args : List Token} (hlen : 7 ≤ args.length) :
    (∃ h : ForHead, h.SpelledBy args) ∨ ∃ word, FirstMissing (unreversed args) word := by
  by_cases hfrom : (unreversed args)[1]? = some "from"
  · obtain ⟨counter, bounds, hrest⟩ :
        ∃ counter bounds, unreversed args = counter :: "from" :: bounds := by
      match hargs : unreversed args with
      | [] | [_] => simp [hargs] at hfrom
      | counter :: second :: bounds =>
        obtain rfl : second = "from" := by simpa [hargs] using hfrom
        exact ⟨counter, bounds, rfl⟩
    cases hto : splitAt? "to" bounds with
    | none => exact .inr ⟨"to", hrest ▸ .atTo (splitAt?_eq_none_iff.mp hto)⟩
    | some cut =>
      obtain ⟨start, rest⟩ := cut
      obtain ⟨hstart, hne, rfl⟩ := splitAt?_eq_some_iff.mp hto
      cases hstep : splitAt? "step" rest with
      | none => exact .inr ⟨"step", hrest ▸ .atStep hstart hne (splitAt?_eq_none_iff.mp hstep)⟩
      | some cut =>
        obtain ⟨stop, step⟩ := cut
        obtain ⟨hstop, hne', rfl⟩ := splitAt?_eq_some_iff.mp hstep
        refine .inl ⟨⟨counter, decide (args.head? = some "backward"), start, stop, step⟩, hlen,
          decide_eq_true_iff, ?_, hstart, hstop, hne'⟩
        rw [hrest]
        simp
  · exact .inr ⟨"from", .atFrom hfrom⟩

/-- **What is refused for what.** Too few arguments are refused for their number; others are refused
if one of the words has no place, and for the first such word. -/
theorem ForHead.ofTokens_eq_error_iff {args : List Token} {e : StatementError} :
    ForHead.ofTokens args = .error e ↔
      args.length < 7 ∧ e = .argumentCount "for" (.atLeast 7) args.length ∨
        7 ≤ args.length ∧ ∃ word, FirstMissing (unreversed args) word ∧ e = missingWord word := by
  by_cases hlen : args.length < 7
  · rw [ForHead.ofTokens_of_short hlen, Except.error.injEq, eq_comm]
    simp [hlen]
  · have hlen' : 7 ≤ args.length := Nat.not_lt.mp hlen
    constructor
    · intro herror
      rcases exists_spelledBy_or_firstMissing hlen' with ⟨h, hspelled⟩ | ⟨word, hmissing⟩
      · rw [ForHead.ofTokens_eq_ok_iff_spelledBy.mpr hspelled] at herror
        exact nomatch herror
      · rw [hmissing.ofTokens hlen'] at herror
        exact .inr ⟨hlen', word, hmissing, (Except.error.inj herror).symm⟩
    · rintro (⟨hshort, -⟩ | ⟨-, word, hmissing, rfl⟩)
      · exact absurd hshort hlen
      · exact hmissing.ofTokens hlen'

end Statement

open Statement

/-! ### The statement -/

/-- A counting loop writes its head and opens a block, if its arguments have a head. -/
theorem apply_forLoop (args : List Token) (d : Draft) :
    (forLoop args).apply d =
      match ForHead.ofTokens args with
      | .error e => (.error e, d)
      | .ok head => (.ok (), ⟨d.markup ++ head.markup, .forLoop :: d.blocks, d.options⟩) := by
  rw [forLoop]
  cases ForHead.ofTokens args <;> simp

theorem apply_process_for (args : List Token) {d : Draft}
    (hplace : d.blocks ≠ [] ∨ d.options.topLevelStatements = true) :
    (process ("for" :: args)).apply d = (forLoop args).apply d :=
  apply_process_word .forLoop args d (hplace.imp_right .inr)

/-- **Counting loops are read exactly.** Wherever a counting loop may stand: it is accepted if and
only if its arguments spell a head. The head is then the only one they spell; its parts are written,
each joined by single spaces, and one block is opened. Otherwise nothing changes, and the error is
the number of arguments if there are fewer than seven, or else the first of the three words that has
no place. -/
theorem forLoop_read_exactly (args : List Token) {d : Draft}
    (hplace : d.blocks ≠ [] ∨ d.options.topLevelStatements = true) :
    ((∃ d', (process ("for" :: args)).apply d = (.ok (), d')) ↔ ∃ h : ForHead, h.SpelledBy args) ∧
      (∀ h : ForHead, h.SpelledBy args →
        (∀ h' : ForHead, h'.SpelledBy args → h' = h) ∧
        (process ("for" :: args)).apply d = (.ok (),
          { d with
            markup := d.markup ++ (Tag.opening "for"
              [⟨"variable", h.counter⟩, ⟨"start", String.intercalate " " h.start⟩,
                ⟨"end", String.intercalate " " h.stop⟩,
                ⟨"direction", if args.head? = some "backward" then "dec" else "inc"⟩,
                ⟨"step", String.intercalate " " h.step⟩]).text
            blocks := .forLoop :: d.blocks })) ∧
      (args.length < 7 → (process ("for" :: args)).apply d =
        (.error (.argumentCount "for" (.atLeast 7) args.length), d)) ∧
      (7 ≤ args.length →
        ((¬∃ h : ForHead, h.SpelledBy args) →
          ∃ word, (process ("for" :: args)).apply d = (.error (.missingDelimiter "for" word), d)) ∧
        ∀ word, (process ("for" :: args)).apply d = (.error (.missingDelimiter "for" word), d) ↔
          FirstMissing (unreversed args) word) := by
  rw [apply_process_for args hplace, apply_forLoop]
  refine ⟨?_, fun h hspelled => ⟨fun h' => hspelled.unique, ?_⟩, fun hshort => ?_,
    fun hlen => ⟨fun hnone => ?_, fun word => ?_⟩⟩
  · simp only [← ForHead.ofTokens_eq_ok_iff_spelledBy]
    cases ForHead.ofTokens args <;> simp
  · simp only [ForHead.ofTokens_eq_ok_iff_spelledBy.mpr hspelled, ForHead.markup_eq,
      ForHead.attributes, hspelled.backward_iff]
  · simp only [ForHead.ofTokens_of_short hshort]
  · obtain ⟨word, hmissing⟩ := (exists_spelledBy_or_firstMissing hlen).resolve_left hnone
    exact ⟨word, by rw [hmissing.ofTokens hlen]; rfl⟩
  · have herror : ForHead.ofTokens args = .error (missingWord word) ↔
        FirstMissing (unreversed args) word := by
      rw [ForHead.ofTokens_eq_error_iff]
      simp [hlen, missingWord]
    rw [← herror]
    cases ForHead.ofTokens args <;> simp [missingWord, Keyword.word]

/-- A loop whose counter and bounds are spelled like the words, and two that are refused: a `to`
that stands last, and a `step` that stands before the `to`. -/
theorem forLoop_read_exactly_words :
    let args := ["backward", "from", "from", "step", "to", "to", "step", "step"]
    let d : Draft := ⟨"", [.whileLoop], .strict⟩
    (process ("for" :: args)).apply d = (.ok (),
        ⟨"<for variable=\"from\" start=\"step\" end=\"to\" direction=\"dec\" step=\"step\">",
          [.forLoop, .whileLoop], .strict⟩) ∧
      (process ["for", "i", "from", "1", "2", "3", "4", "to"]).apply d =
        (.error (.missingDelimiter "for" "to"), d) ∧
      (process ["for", "i", "from", "1", "step", "2", "to", "3"]).apply d =
        (.error (.missingDelimiter "for" "step"), d) := by
  intro args d
  have hplace : d.blocks ≠ [] ∨ d.options.topLevelStatements = true := .inl (by decide)
  refine ⟨?_, ?_, ?_⟩
  · have hspelled : ForHead.SpelledBy ⟨"from", true, ["step"], ["to"], ["step"]⟩ args :=
      ⟨by decide, by decide, by decide, by decide, by decide, by decide⟩
    exact ((forLoop_read_exactly args hplace).2.1 _ hspelled).2
  · have hmissing : FirstMissing ["i", "from", "1", "2", "3", "4", "to"] "to" :=
      .atTo (.inr ⟨["1", "2", "3", "4"], by decide, rfl⟩)
    exact (((forLoop_read_exactly _ hplace).2.2.2 (by decide)).2 "to").mpr hmissing
  · have hmissing : FirstMissing ("i" :: "from" :: ["1", "step", "2"] ++ "to" :: ["3"]) "step" :=
      .atStep (by decide) (by decide) (.inl (by decide))
    exact (((forLoop_read_exactly _ hplace).2.2.2 (by decide)).2 "step").mpr hmissing

/-! ### The bounds of a loop -/

theorem ne_empty_of_mem_tokenize {line : String} {t : Token} (h : t ∈ tokenize line) : t ≠ "" := by
  obtain ⟨cs, hcs, rfl⟩ := List.mem_map.mp h
  simpa using ne_nil_of_mem_tokenChars hcs

/-- The statements of a source hold no empty token. -/
theorem ne_empty_of_mem_statements {source : String} {tokens : List Token} {t : Token}
    (h : tokens ∈ statements source) (ht : t ∈ tokens) : t ≠ "" := by
  rw [statements_eq_map, statementLines] at h
  obtain ⟨statement, hmem, rfl⟩ := List.mem_map.mp h
  obtain ⟨line, -, rfl⟩ := List.mem_map.mp (List.mem_of_mem_filter hmem)
  exact ne_empty_of_mem_tokenize ht

/-- An expression of tokens that are not empty is empty only if it has no tokens. -/
theorem expression_eq_empty_iff {tokens : List Token} (h : ∀ t ∈ tokens, t ≠ "") :
    String.intercalate " " tokens = "" ↔ tokens = [] := by
  refine ⟨fun hempty => ?_, fun hnil => by rw [hnil]; rfl⟩
  rw [List.eq_nil_iff_forall_not_mem]
  intro t ht
  have hwithin := Carries.within_expression ht
  rw [hempty] at hwithin
  exact h t ht (String.toList_eq_nil_iff.mp (List.infix_nil.mp hwithin))

namespace Statement.ForHead.SpelledBy

variable {h : ForHead} {args : List Token}

/-- The parts of a head are among the arguments. -/
theorem parts_subset (hspelled : h.SpelledBy args) : h.start ++ h.stop ++ h.step ⊆ args := by
  have hparts : h.start ++ h.stop ++ h.step ⊆ unreversed args := by
    rw [hspelled.unreversed_eq]
    grind
  have hargs : unreversed args ⊆ args := by
    unfold unreversed
    split
    · exact (List.tail_sublist args).subset
    · exact List.Subset.refl args
  exact List.Subset.trans hparts hargs

/-- The start is empty where `to` follows `from` at once. -/
theorem start_eq_nil_iff (hspelled : h.SpelledBy args) :
    h.start = [] ↔ [h.counter, "from", "to"] <+: unreversed args := by
  have hto := hspelled.to_notMem
  rw [hspelled.unreversed_eq]
  cases hstart : h.start with
  | nil => simp
  | cons t start =>
    rw [hstart] at hto
    have hne : "to" ≠ t := by
      rintro rfl
      exact hto List.mem_cons_self
    simp [hne]

/-- The stop is empty where `step` follows the first `to` behind `from` at once. -/
theorem stop_eq_nil_iff (hspelled : h.SpelledBy args) :
    h.stop = [] ↔ [h.counter, "from"] ++ h.start ++ ["to", "step"] <+: unreversed args := by
  have hstep := hspelled.step_notMem
  rw [hspelled.unreversed_eq]
  cases hstop : h.stop with
  | nil => simp
  | cons t stop =>
    rw [hstop] at hstep
    have hne : "step" ≠ t := by
      rintro rfl
      exact hstep List.mem_cons_self
    simp [hne]

end Statement.ForHead.SpelledBy

/-- The counting loop with the arguments `args` that follows the statements `before` of a source is
written into its document with this head. -/
def WritesLoop (o : Options) (document : String) (before : List (List Token)) (args : List Token)
    (head : ForHead) : Prop :=
  ∃ d d' rest, (Draft.new o).run before = .ok d ∧
    (process ("for" :: args)).apply d = (.ok (), d') ∧
    d'.markup = d.markup ++ (Tag.opening "for" head.attributes).text ∧
    document = d'.markup ++ rest

/-- A counting loop of a source that compiles is written with the head that it spells. -/
theorem exists_writesLoop {source : String} {file : Nat} {o : Options} {document : String}
    {before after : List (List Token)} {args : List Token}
    (hcompile : compile source file o = .ok document)
    (hline : statements source = before ++ ("for" :: args) :: after) :
    ∃ head : ForHead, head.SpelledBy args ∧ WritesLoop o document before args head := by
  obtain ⟨last, hrun, hfinish⟩ := compile_eq_ok_iff_run.mp hcompile
  rw [hline, Draft.run_append_eq_ok_iff] at hrun
  obtain ⟨d, hbefore, hrest⟩ := hrun
  rw [Draft.run] at hrest
  split at hrest
  · next d' happly =>
    obtain ⟨lines, tags, blocks, -, -, rfl⟩ := Draft.run_eq_ok_iff.mp hrest
    obtain ⟨-, rfl⟩ := Draft.finish_eq_ok_iff.mp hfinish
    have hloop : (forLoop args).apply d = (.ok (), d') :=
      apply_ofKeyword_of_process (k := .forLoop) happly
    rw [apply_forLoop] at hloop
    cases hhead : ForHead.ofTokens args with
    | error e => simp [hhead] at hloop
    | ok head =>
      rw [hhead] at hloop
      obtain ⟨-, rfl⟩ := Prod.mk.inj hloop
      refine ⟨head, ForHead.ofTokens_eq_ok_iff_spelledBy.mp hhead, d, _, Tag.texts tags ++ footer,
        hbefore, happly, rfl, ?_⟩
      rw [Draft.markup_advance, String.append_assoc]
  · cases hrest

theorem Statement.ForHead.SpelledBy.writesLoop {head : ForHead} {source : String} {file : Nat}
    {o : Options} {document : String} {before after : List (List Token)} {args : List Token}
    (hspelled : head.SpelledBy args) (hcompile : compile source file o = .ok document)
    (hline : statements source = before ++ ("for" :: args) :: after) :
    WritesLoop o document before args head := by
  obtain ⟨head', hspelled', hwrites⟩ := exists_writesLoop hcompile hline
  obtain rfl := hspelled.unique hspelled'
  exact hwrites

/-- **The bounds of counting loops.** In the document of a source that compiles, every counting loop
is written with the head that its arguments spell. Its step is never empty. Its start is empty if
and only if `to` follows `from` at once, and its stop if and only if `step` follows that `to` at
once. -/
theorem bounds_of_counting_loop {source : String} {file : Nat} {o : Options} {document : String}
    {before after : List (List Token)} {args : List Token}
    (hcompile : compile source file o = .ok document)
    (hline : statements source = before ++ ("for" :: args) :: after) :
    ∃ head : ForHead, head.SpelledBy args ∧ WritesLoop o document before args head ∧
      String.intercalate " " head.step ≠ "" ∧
      (String.intercalate " " head.start = "" ↔
        [head.counter, "from", "to"] <+: unreversed args) ∧
      (String.intercalate " " head.stop = "" ↔
        [head.counter, "from"] ++ head.start ++ ["to", "step"] <+: unreversed args) := by
  obtain ⟨head, hspelled, hwrites⟩ := exists_writesLoop hcompile hline
  have hmem : "for" :: args ∈ statements source := by
    rw [hline]
    exact List.mem_append_right before List.mem_cons_self
  have hne : ∀ t ∈ head.start ++ head.stop ++ head.step, t ≠ "" := fun t ht =>
    ne_empty_of_mem_statements hmem (List.mem_cons_of_mem _ (hspelled.parts_subset ht))
  rw [List.forall_mem_append, List.forall_mem_append] at hne
  obtain ⟨⟨hstart, hstop⟩, hstep⟩ := hne
  refine ⟨head, hspelled, hwrites, ?_, ?_, ?_⟩
  · rw [Ne, expression_eq_empty_iff hstep]
    exact hspelled.step_ne_nil
  · rw [expression_eq_empty_iff hstart, hspelled.start_eq_nil_iff]
  · rw [expression_eq_empty_iff hstop, hspelled.stop_eq_nil_iff]

/-- A loop with three bounds, one of them spelled like a word that separates them. -/
theorem bounds_of_counting_loop_words :
    let source := "for backward i from step to n - 1 step 2\r\nend"
    let args := ["backward", "i", "from", "step", "to", "n", "-", "1", "step", "2"]
    let document := header ++ "<for variable=\"i\" start=\"step\" end=\"n - 1\" direction=\"dec\"" ++
      " step=\"2\"></for>" ++ footer
    compile source 0 .lenient = .ok document ∧
      statements source = [] ++ ("for" :: args) :: [["end"]] ∧
      ∃ head : ForHead, head.SpelledBy args ∧ WritesLoop .lenient document [] args head ∧
        String.intercalate " " head.start ≠ "" ∧ String.intercalate " " head.stop ≠ "" ∧
        String.intercalate " " head.step ≠ "" := by
  intro source args document
  have hcompile : compile source 0 .lenient = .ok document := by decide +kernel
  have hline : statements source = [] ++ ("for" :: args) :: [["end"]] := by decide +kernel
  obtain ⟨head, hspelled, hwrites, hstep, hstart, hstop⟩ := bounds_of_counting_loop hcompile hline
  have hhead : ForHead.SpelledBy ⟨"i", true, ["step"], ["n", "-", "1"], ["2"]⟩ args :=
    ⟨by decide, by decide, by decide, by decide, by decide, by decide⟩
  obtain rfl := hhead.unique hspelled
  refine ⟨hcompile, hline, _, hspelled, hwrites, ?_, ?_, hstep⟩
  · rw [Ne, hstart]
    decide
  · rw [Ne, hstop]
    decide

/-- A counting loop may have no start or no stop: seven arguments are enough for that, and if
`backward` is one of them, seven are not even enough for all the parts. -/
theorem exists_empty_bound :
    let source := "fn main () _ void\nfor i from to 1 2 step 3\nend\nend\n"
    let source' := "for backward i from 1 to step 2\nend\n"
    (∃ document before args after head, compile source 0 .strict = .ok document ∧
      statements source = before ++ ("for" :: args) :: after ∧
      WritesLoop .strict document before args head ∧ String.intercalate " " head.start = "") ∧
    ∃ document before args after head, compile source' 0 .lenient = .ok document ∧
      statements source' = before ++ ("for" :: args) :: after ∧
      WritesLoop .lenient document before args head ∧ String.intercalate " " head.stop = "" := by
  intro source source'
  constructor
  · have hcompile : compile source 0 .strict = .ok (header ++
        "<function name=\"main\" type=\"void\" variable=\"\"><parameters/><body>" ++
        "<for variable=\"i\" start=\"\" end=\"1 2\" direction=\"inc\" step=\"3\"></for>" ++
        "</body></function>" ++ footer) := by decide +kernel
    have hline : statements source = [["fn", "main", "()", "_", "void"]] ++
        ("for" :: ["i", "from", "to", "1", "2", "step", "3"]) :: [["end"], ["end"]] := by
      decide +kernel
    have hspelled : ForHead.SpelledBy ⟨"i", false, [], ["1", "2"], ["3"]⟩
        ["i", "from", "to", "1", "2", "step", "3"] :=
      ⟨by decide, by decide, by decide, by decide, by decide, by decide⟩
    exact ⟨_, _, _, _, _, hcompile, hline, hspelled.writesLoop hcompile hline, rfl⟩
  · have hcompile : compile source' 0 .lenient = .ok (header ++
        "<for variable=\"i\" start=\"1\" end=\"\" direction=\"dec\" step=\"2\"></for>" ++ footer) := by
      decide +kernel
    have hline : statements source' =
        [] ++ ("for" :: ["backward", "i", "from", "1", "to", "step", "2"]) :: [["end"]] := by
      decide +kernel
    have hspelled : ForHead.SpelledBy ⟨"i", true, ["1"], [], ["2"]⟩
        ["backward", "i", "from", "1", "to", "step", "2"] :=
      ⟨by decide, by decide, by decide, by decide, by decide, by decide⟩
    exact ⟨_, _, _, _, _, hcompile, hline, hspelled.writesLoop hcompile hline, rfl⟩

end Flowscript
