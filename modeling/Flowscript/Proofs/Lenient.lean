import Flowscript.Proofs.Refusal

/-!
# More lenient options

Turning a switch on never takes anything away: what compiles still compiles, to the same document or
to the same document with comments in it, and an error that no switch is about stays the same error
at the same place.

## Lockstep

The two runs have the same blocks open at all times, because no switch changes what a line that is
accepted does to the blocks. Their markup is the same up to comments: a `#` outside every block is
the only line that both runs accept and that writes something in one of them only.

## Places of comments

A comment that the stricter run drops has a place in the stricter document all the same: behind
everything that was written when its line was met. `Draft.looseComments` lists these comments with
their places, and `insertTexts` puts them in.

## Main definitions

* `Options.Le` — the order on options.
* `looseComment?`, `Draft.looseComments` — the comments outside every block, and their places.
* `insertTexts` — texts inserted into a text.
* `lenientText` — what more lenient options write for a statement.

## Main results

* `Effect.mono`, `Draft.run_mono` — the lockstep, for a line and for a run.
* `process_refused_mono` — a refusal that no switch is about stays.
* `compile_mono` — compiling under more lenient options.
-/

namespace Flowscript

open Markup

/-! ### The order on options -/

/-- Every switch of the first options is on in the second as well. -/
structure Options.Le (o o' : Options) : Prop where
  /-- Statements outside every block stay accepted. -/
  topLevelStatements : o.topLevelStatements = true → o'.topLevelStatements = true
  /-- An `end` that closes nothing stays tolerated. -/
  unmatchedEnd : o.unmatchedEnd = true → o'.unmatchedEnd = true
  /-- Comments outside every block stay kept. -/
  topLevelComments : o.topLevelComments = true → o'.topLevelComments = true

instance : LE Options := ⟨Options.Le⟩

instance (o o' : Options) : Decidable (o ≤ o') :=
  decidable_of_iff
    ((o.topLevelStatements = true → o'.topLevelStatements = true) ∧
      (o.unmatchedEnd = true → o'.unmatchedEnd = true) ∧
      (o.topLevelComments = true → o'.topLevelComments = true))
    ⟨fun h => ⟨h.1, h.2.1, h.2.2⟩, fun h => ⟨h.1, h.2, h.3⟩⟩

/-! ### Comments outside every block -/

/-- What is written for a statement that is a comment outside every block, if it is kept. -/
def looseComment? (blocks : List OpenBlock) (tokens : List Token) : Option String :=
  if blocks = [] ∧ tokens.head? = some Keyword.comment.word then
    some (Tag.whole "comment" [⟨"text", String.intercalate " " tokens.tail⟩]).text
  else none

/-- The comments that statements leave outside every block, each with its place: the number of
characters written before it. -/
def Draft.looseComments (d : Draft) : List (List Token) → List (Nat × String)
  | [] => []
  | tokens :: rest =>
    (looseComment? d.blocks tokens).toList.map (fun text => (d.markup.length, text)) ++
      ((process tokens).apply d).2.looseComments rest

/-- Insert texts at places that ascend. The characters are what stands behind the first `passed`
ones of the text that the places are counted in. -/
def insertFrom (passed : Nat) : List (Nat × String) → List Char → List Char
  | [], cs => cs
  | (place, text) :: later, cs =>
    cs.take (place - passed) ++ text.toList ++ insertFrom place later (cs.drop (place - passed))

/-- Insert texts into a text, each at its place. The places ascend, and are counted without the
texts that are inserted. -/
def insertTexts (insertions : List (Nat × String)) (s : String) : String :=
  String.ofList (insertFrom 0 insertions s.toList)

theorem insertFrom_append {passed : Nat} {insertions : List (Nat × String)} (text rest : List Char)
    (h : ∀ i ∈ insertions, passed + text.length ≤ i.1) :
    insertFrom passed insertions (text ++ rest) =
      text ++ insertFrom (passed + text.length) insertions rest := by
  cases insertions with
  | nil => rfl
  | cons first later =>
    obtain ⟨place, inserted⟩ := first
    have hplace : passed + text.length ≤ place := h _ List.mem_cons_self
    have hsplit : place - passed = text.length + (place - (passed + text.length)) := by
      omega
    rw [insertFrom, insertFrom, hsplit, List.take_length_add_append, List.drop_length_add_append]
    simp only [List.append_assoc]

theorem insertFrom_here (place : Nat) (text : Option String) (later : List (Nat × String))
    (cs : List Char) :
    insertFrom place (text.toList.map (fun t => (place, t)) ++ later) cs =
      (text.getD "").toList ++ insertFrom place later cs := by
  cases text with
  | none => rfl
  | some t =>
    have hhere : insertFrom place ((place, t) :: later) cs =
        t.toList ++ insertFrom place later cs := by
      rw [insertFrom, Nat.sub_self, List.take_zero, List.nil_append, List.drop_zero]
    exact hhere

/-- The places lie behind what is written already. -/
theorem Draft.le_place_of_mem_looseComments {d : Draft} {statements : List (List Token)}
    {i : Nat × String} (h : i ∈ d.looseComments statements) : d.markup.length ≤ i.1 := by
  induction statements generalizing d with
  | nil => simp [looseComments] at h
  | cons tokens rest ih =>
    have hgrows : d.markup.length ≤ ((process tokens).apply d).2.markup.length := by
      rcases process_cases tokens d with ⟨e, he⟩ | ⟨line, tags, blocks, rfl, effect⟩
      · rw [he]
      · rw [effect.apply_process, markup_advance, String.length_append]
        exact Nat.le_add_right _ _
    rw [looseComments, List.mem_append, List.mem_map] at h
    rcases h with ⟨text, -, rfl⟩ | h
    · exact Nat.le_refl _
    · exact Nat.le_trans hgrows (ih h)

theorem looseComment?_of_keyword_ne (blocks : List OpenBlock) {line : Line}
    (h : line.keyword ≠ .comment) : looseComment? blocks line.tokens = none := by
  refine if_neg fun hloose => h ?_
  have hword : some line.keyword.word = some Keyword.comment.word := hloose.2
  exact Keyword.word_injective (Option.some.inj hword)

theorem looseComment?_of_ne_nil {blocks : List OpenBlock} (h : blocks ≠ []) (tokens : List Token) :
    looseComment? blocks tokens = none :=
  if_neg fun hloose => h hloose.1

/-! ### Lockstep -/

section Mono

variable {o o' : Options}

/-- What more lenient options write for a statement where the others write `text`. They keep the
comment it may be, if only they keep comments outside every block. -/
def lenientText (o o' : Options) (comment : Option String) (text : String) : String :=
  if o.topLevelComments = o'.topLevelComments then text else comment.getD "" ++ text

theorem lenientText_none (text : String) : lenientText o o' none text = text := by
  rw [lenientText, Option.getD_none, String.empty_append, ite_self]

/-- **One line.** Under more lenient options a line does the same to the blocks, and writes the
same, except that a comment outside every block may be written in addition. -/
theorem Effect.mono (h : o ≤ o') {bs bs' : List OpenBlock} {line : Line} {tags : List Tag}
    (effect : Effect o bs line tags bs') :
    ∃ tags', Effect o' bs line tags' bs' ∧
      Tag.texts tags' = lenientText o o' (looseComment? bs line.tokens) (Tag.texts tags) := by
  -- every line but one writes the same, and is no comment outside every block
  have same (heffect : Effect o' bs line tags bs') (hloose : looseComment? bs line.tokens = none) :
      ∃ tags', Effect o' bs line tags' bs' ∧
        Tag.texts tags' = lenientText o o' (looseComment? bs line.tokens) (Tag.texts tags) :=
    ⟨tags, heffect, by rw [hloose, lenientText_none]⟩
  cases effect with
  | simple s hs =>
    refine same (.simple s (hs.imp_right fun hs => ⟨h.topLevelStatements hs.1, hs.2⟩)) ?_
    rcases hs with hne | ⟨-, hcomment⟩
    · exact looseComment?_of_ne_nil hne _
    · exact looseComment?_of_keyword_ne _ hcomment
  | comment text =>
    refine ⟨_, .comment text, ?_⟩
    have hloose : looseComment? [] (Line.simple (.comment text)).tokens =
        some (Simple.comment text).tag.text := rfl
    rw [lenientText, hloose]
    cases hkept : o.topLevelComments with
    | true => simp [h.topLevelComments hkept]
    | false => cases o'.topLevelComments <;> simp
  | function s => exact same (.function s) (looseComment?_of_keyword_ne _ Keyword.noConfusion)
  | ifThen condition hif =>
    exact same (.ifThen condition (hif.imp_right h.topLevelStatements))
      (looseComment?_of_keyword_ne _ Keyword.noConfusion)
  | otherwise chained bs =>
    exact same (.otherwise chained bs) (looseComment?_of_keyword_ne _ Keyword.noConfusion)
  | elseIf chained bs condition =>
    exact same (.elseIf chained bs condition) (looseComment?_of_keyword_ne _ Keyword.noConfusion)
  | loop l hl =>
    refine same (.loop l (hl.imp_right h.topLevelStatements)) (looseComment?_of_keyword_ne _ ?_)
    cases l <;> exact Keyword.noConfusion
  | close b => exact same (.close b _) (looseComment?_of_keyword_ne _ Keyword.noConfusion)
  | unmatchedEnd hend =>
    exact same (.unmatchedEnd (h.unmatchedEnd hend))
      (looseComment?_of_keyword_ne _ Keyword.noConfusion)

/-- **A run.** Statements that are accepted are accepted under more lenient options, and open the
same blocks. What they write is the same, or the same with the comments outside every block
inserted. -/
theorem Draft.run_mono (h : o ≤ o') {statements : List (List Token)} {m : String} (m' : String)
    {bs : List OpenBlock} {d : Draft} (hrun : (Draft.mk m bs o).run statements = .ok d) :
    ∃ added added' bs', d = ⟨m ++ added, bs', o⟩ ∧
      (Draft.mk m' bs o').run statements = .ok ⟨m' ++ added', bs', o'⟩ ∧
      (o.topLevelComments = o'.topLevelComments → added' = added) ∧
      (o.topLevelComments ≠ o'.topLevelComments → ∀ rest,
        insertFrom m.length ((Draft.mk m bs o).looseComments statements) (added.toList ++ rest) =
          added'.toList ++ rest) := by
  induction statements generalizing m m' bs with
  | nil =>
    obtain rfl := Except.ok.inj hrun
    refine ⟨"", "", bs, ?_, ?_, fun _ => rfl, fun _ rest => rfl⟩
    · rw [String.append_empty]
    · rw [String.append_empty]
      rfl
  | cons tokens later ih =>
    obtain ⟨line, tags, blocks, rfl, effect, hrun⟩ := exists_effect_of_run_cons hrun
    obtain ⟨tags', effect', htexts⟩ := Effect.mono h effect
    obtain ⟨added, added', bs', rfl, hrun', heq', hloose'⟩ := ih (m' ++ Tag.texts tags') hrun
    refine ⟨Tag.texts tags ++ added, Tag.texts tags' ++ added', bs', ?_, ?_, ?_, ?_⟩
    · rw [← String.append_assoc]
    · rw [run_cons_of_effect (d := ⟨m', bs, o'⟩) effect', ← String.append_assoc]
      exact hrun'
    · intro hflags
      rw [htexts, lenientText, if_pos hflags, heq' hflags]
    · intro hflags rest
      have hplaces : ∀ i ∈ (Draft.mk (m ++ Tag.texts tags) blocks o).looseComments later,
          m.length + (Tag.texts tags).toList.length ≤ i.1 := by
        intro i hi
        have hplace := le_place_of_mem_looseComments hi
        rwa [String.length_append, ← String.length_toList (s := Tag.texts tags)] at hplace
      calc
        insertFrom m.length ((Draft.mk m bs o).looseComments (line.tokens :: later))
            ((Tag.texts tags ++ added).toList ++ rest)
        _ = ((looseComment? bs line.tokens).getD "").toList ++
            insertFrom m.length ((Draft.mk (m ++ Tag.texts tags) blocks o).looseComments later)
              ((Tag.texts tags ++ added).toList ++ rest) := by
          rw [looseComments, effect.apply_process, insertFrom_here]
          rfl
        _ = ((looseComment? bs line.tokens).getD "").toList ++ ((Tag.texts tags).toList ++
            insertFrom (m ++ Tag.texts tags).length
              ((Draft.mk (m ++ Tag.texts tags) blocks o).looseComments later)
              (added.toList ++ rest)) := by
          rw [String.toList_append, List.append_assoc, insertFrom_append _ _ hplaces,
            String.length_toList, ← String.length_append]
        _ = ((looseComment? bs line.tokens).getD "").toList ++
            ((Tag.texts tags).toList ++ (added'.toList ++ rest)) := by rw [hloose' hflags rest]
        _ = (Tag.texts tags' ++ added').toList ++ rest := by
          rw [htexts, lenientText, if_neg hflags]
          simp only [String.toList_append, List.append_assoc]

/-- **Refusals.** A statement that is refused, but neither for standing outside every block nor for
closing nothing, is refused for the same reason under more lenient options. -/
theorem process_refused_mono (h : o ≤ o') {tokens : List Token} {e : StatementError} {m m' : String}
    {bs : List OpenBlock} (hrefused : (process tokens).apply ⟨m, bs, o⟩ = (.error e, ⟨m, bs, o⟩))
    (hplace : ∀ word, e ≠ .outsideFunction word) (hend : e ≠ .unexpectedEnd) :
    (process tokens).apply ⟨m', bs, o'⟩ = (.error e, ⟨m', bs, o'⟩) := by
  refine apply_process_eq_error_of_fst ?_
  match tokens with
  | [] => exact congrArg Prod.fst hrefused
  | word :: args =>
    rw [apply_process_cons] at hrefused ⊢
    by_cases hstands : MayStand (Keyword.ofWord? word) ⟨m, bs, o⟩
    · have hstands' : MayStand (Keyword.ofWord? word) ⟨m', bs, o'⟩ :=
        hstands.imp_right fun hword => hword.imp_right h.topLevelStatements
      rw [if_pos hstands] at hrefused
      rw [if_pos hstands']
      cases hk : Keyword.ofWord? word with
      | none =>
        rw [hk] at hrefused
        exact congrArg Prod.fst hrefused
      | some k =>
        rw [hk] at hrefused
        have hclose : k = .close → args = [] → bs ≠ [] := by
          rintro rfl rfl rfl
          have hverdict := congrArg Prod.fst ((Statement.apply_close_nil m o).symm.trans hrefused)
          cases htolerated : o.unmatchedEnd with
          | true => simp [htolerated] at hverdict
          | false => exact hend (by simpa [htolerated] using hverdict.symm)
        rw [← Statement.verdict_ofKeyword args m m' bs o o' k hclose]
        exact congrArg Prod.fst hrefused
    · rw [if_neg hstands] at hrefused
      exact absurd (Except.error.inj (Prod.mk.inj hrefused).1).symm (hplace word)

end Mono

/-! ### Compiling -/

section Compile

variable {o o' : Options} {source : String} {file : Nat}

theorem compile_eq_ok_mono (h : o ≤ o') {document : String}
    (hcompile : compile source file o = .ok document) :
    compile source file o' =
      .ok (if o.topLevelComments = o'.topLevelComments then document
        else insertTexts ((Draft.new o).looseComments (statements source)) document) := by
  obtain ⟨d, hrun, hfinish⟩ := compile_eq_ok_iff_run.mp hcompile
  rw [Draft.new] at hrun ⊢
  obtain ⟨added, added', bs, rfl, hrun', heq, hloose⟩ := Draft.run_mono h header hrun
  obtain ⟨rfl, rfl⟩ := Draft.finish_eq_ok_iff.mp hfinish
  refine compile_eq_ok_iff_run.mpr ⟨_, hrun', Draft.finish_eq_ok_iff.mpr ⟨rfl, ?_⟩⟩
  by_cases hflags : o.topLevelComments = o'.topLevelComments
  · rw [if_pos hflags, heq hflags]
  · have hplaces : ∀ i ∈ (Draft.mk header [] o).looseComments (statements source),
        0 + header.toList.length ≤ i.1 := by
      intro i hi
      have hplace := Draft.le_place_of_mem_looseComments hi
      rwa [Nat.zero_add, String.length_toList]
    have hinsert : insertFrom 0 ((Draft.mk header [] o).looseComments (statements source))
        (header.toList ++ (added.toList ++ footer.toList)) =
          header.toList ++ (added'.toList ++ footer.toList) := by
      rw [insertFrom_append _ _ hplaces, Nat.zero_add, String.length_toList,
        hloose hflags footer.toList]
    rw [if_neg hflags, ← String.toList_inj, insertTexts, String.toList_ofList]
    simp only [String.toList_append, List.append_assoc]
    exact hinsert

theorem compile_eq_error_mono (h : o ≤ o') {err : LocatedError}
    (hcompile : compile source file o = .error err)
    (hplace : ∀ word, err.error ≠ .outsideFunction word) (hend : err.error ≠ .unexpectedEnd) :
    compile source file o' = .error err := by
  rcases exists_of_compile_eq_error hcompile with
    ⟨earlier, line, tokens, later, d, e, hlines, hrun, hrefused, rfl⟩ | ⟨d, e, hrun, hfinish, rfl⟩
  · obtain ⟨added, added', bs, rfl, hrun', -, -⟩ := Draft.run_mono h header hrun
    exact compile_of_refused hlines hrun' (process_refused_mono h hrefused hplace hend)
  · obtain ⟨added, added', bs, rfl, hrun', -, -⟩ := Draft.run_mono h header hrun
    -- finishing looks at the open blocks only
    obtain ⟨b, outer, hblocks, rfl⟩ := Draft.finish_eq_error_iff.mp hfinish
    exact compile_of_unfinished hrun' (Draft.finish_eq_error_iff.mpr ⟨b, outer, hblocks, rfl⟩)

end Compile

theorem Options.strict_le (o : Options) : strict ≤ o :=
  ⟨fun h => Bool.noConfusion h, fun h => Bool.noConfusion h, fun h => Bool.noConfusion h⟩

/-- **Options are monotone.** Under more lenient options a source that has a document has one again:
the same, if both options treat comments outside every block alike, and otherwise the same with
exactly these comments inserted at their places. An error stays the same error at the same place,
unless it is about a statement outside every block or about an `end` that closes nothing. What the
strict reading accepts, the most lenient reading accepts. -/
theorem compile_mono {o o' : Options} (h : o ≤ o') (source : String) (file : Nat) :
    (∀ document, compile source file o = .ok document →
        compile source file o' =
          .ok (if o.topLevelComments = o'.topLevelComments then document
            else insertTexts ((Draft.new o).looseComments (statements source)) document)) ∧
      (∀ err, compile source file o = .error err → (∀ word, err.error ≠ .outsideFunction word) →
        err.error ≠ .unexpectedEnd → compile source file o' = .error err) ∧
      ∀ document, compile source file .strict = .ok document →
        ∃ document', compile source file .lenient = .ok document' := by
  refine ⟨fun document hcompile => compile_eq_ok_mono h hcompile,
    fun err hcompile hplace hend => compile_eq_error_mono h hcompile hplace hend, ?_⟩
  intro document hcompile
  exact ⟨_, compile_eq_ok_mono (Options.strict_le .lenient) hcompile⟩

/-- Comments before and behind a function are inserted, the one inside it was there already; a
nested function is refused on the same line either way. -/
theorem compile_mono_strict_lenient :
    Options.strict ≤ .lenient ∧
      (∃ document, compile "# a\nfn f () _ void\n# b\nend\n# c" 0 .strict = .ok document ∧
        compile "# a\nfn f () _ void\n# b\nend\n# c" 0 .lenient = .ok
          (insertTexts [(52, "<comment text=\"a\"/>"), (151, "<comment text=\"c\"/>")] document)) ∧
      compile "fn f () _ void\nfn g () _ void" 0 .strict =
        .error ⟨.nestedFunction "g", 2, ⟨15, 29⟩, 0⟩ ∧
      compile "fn f () _ void\nfn g () _ void" 0 .lenient =
        .error ⟨.nestedFunction "g", 2, ⟨15, 29⟩, 0⟩ := by
  have hle : Options.strict ≤ .lenient := by decide
  have hcompile : ∃ document,
      compile "# a\nfn f () _ void\n# b\nend\n# c" 0 .strict = .ok document := ⟨_, rfl⟩
  obtain ⟨document, hcompile⟩ := hcompile
  have hlenient := (compile_mono hle "# a\nfn f () _ void\n# b\nend\n# c" 0).1 document hcompile
  have hloose : (Draft.new .strict).looseComments
      (statements "# a\nfn f () _ void\n# b\nend\n# c") =
        [(52, "<comment text=\"a\"/>"), (151, "<comment text=\"c\"/>")] := by decide +kernel
  rw [if_neg (by decide), hloose] at hlenient
  have hstrict : compile "fn f () _ void\nfn g () _ void" 0 .strict =
      .error ⟨.nestedFunction "g", 2, ⟨15, 29⟩, 0⟩ := rfl
  have herror := (compile_mono hle "fn f () _ void\nfn g () _ void" 0).2.1 _ hstrict
    (fun word => StatementError.noConfusion) StatementError.noConfusion
  exact ⟨hle, ⟨document, hcompile, hlenient⟩, hstrict, herror⟩

end Flowscript
