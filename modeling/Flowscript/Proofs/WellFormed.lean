import Flowscript.Proofs.Nesting

/-!
# Well-formed documents

A document is well formed if it is a declaration and tags, the tags nest, and no attribute value
holds anything that a reader would take for markup: a `<`, or an `&` that begins no reference.

## What the program promises

Expressions are passed through as they are written in the source, comparison signs included, so a
document need not be well formed: a loop over a range is enough (`compile_not_wellFormed`). What
holds is that nothing else goes wrong. The tags are found and nest, and a value is clean as soon as
the tokens it was made from are: joining, listing, cutting and escaping add no markup of their own,
and hide none either (`compile_wellFormed_iff`).

## Main definitions

* `IsClean` — texts without anything that looks like markup.
* `ReadsAs`, `WellFormed` — documents whose tags nest, and documents that a strict reader takes.
* `Draft.kept` — the statements of a run, less the comments it drops.

## Main results

* `partWise_isClean` — being clean is decided on the parts between separators.
* `isClean_outputText_iff` — escaping neither adds nor hides markup.
* `compile_wellFormed_iff` — a document is as clean as its source.
-/

namespace Flowscript

/-! ### Clean texts -/

/-- The characters of references. -/
def isReferenceChar (c : Char) : Bool := c.isAlphanum || c = '#'

/-- What may stand between `&` and `;`: one of the five predefined names, or a number. -/
def isReferenceName : List Char → Bool
  | '#' :: 'x' :: digits =>
    digits ≠ [] && digits.all fun c => c ∈ "0123456789abcdefABCDEF".toList
  | '#' :: digits => digits ≠ [] && digits.all Char.isDigit
  | name => name ∈ ["amp", "lt", "gt", "quot", "apos"].map String.toList

/-- What follows an `&` is the rest of a reference. -/
def StartsReference (cs : List Char) : Prop :=
  ∃ name rest, cs = name ++ ';' :: rest ∧ isReferenceName name = true

/-- A text that may stand in an attribute value: no `<`, and every `&` begins a reference. -/
def IsClean : List Char → Prop
  | [] => True
  | c :: cs => c ≠ '<' ∧ (c = '&' → StartsReference cs) ∧ IsClean cs

theorem isReferenceChar_of_mem {name : List Char} (h : isReferenceName name = true) :
    ∀ c ∈ name, isReferenceChar c = true := by
  unfold isReferenceName at h
  split at h
  · next digits =>
    rw [Bool.and_eq_true, List.all_eq_true] at h
    have hhex : "0123456789abcdefABCDEF".toList.all isReferenceChar = true := by decide
    have hdigits : ∀ c ∈ digits, isReferenceChar c = true := by
      intro c hc
      exact List.all_eq_true.mp hhex c (of_decide_eq_true (h.2 c hc))
    rw [List.forall_mem_cons, List.forall_mem_cons]
    exact ⟨rfl, rfl, hdigits⟩
  · next digits _ =>
    rw [Bool.and_eq_true, List.all_eq_true] at h
    have hdigits : ∀ c ∈ digits, isReferenceChar c = true := by
      intro c hc
      simp [isReferenceChar, Char.isAlphanum, h.2 c hc]
    rw [List.forall_mem_cons]
    exact ⟨rfl, hdigits⟩
  · rw [decide_eq_true_eq] at h
    have hnames : ∀ name ∈ ["amp", "lt", "gt", "quot", "apos"].map String.toList,
        name.all isReferenceChar = true := by decide
    exact List.all_eq_true.mp (hnames _ h)

/-- A reference ends before the first semicolon, so looking for it there decides the matter. -/
theorem startsReference_iff {cs : List Char} :
    StartsReference cs ↔ ';' ∈ cs ∧ isReferenceName (cs.takeWhile (· ≠ ';')) = true := by
  constructor
  · rintro ⟨name, rest, rfl, hname⟩
    have hno : ∀ c ∈ name, c ≠ ';' := by
      rintro c hc rfl
      exact absurd (isReferenceChar_of_mem hname _ hc) (by decide)
    have htake : (name ++ ';' :: rest).takeWhile (· ≠ ';') = name := by
      rw [List.takeWhile_append_of_pos (by simpa using hno)]
      simp
    exact ⟨by simp, by rw [htake]; exact hname⟩
  · rintro ⟨hmem, hname⟩
    obtain ⟨before, after, rfl, hno⟩ := List.eq_append_cons_of_mem hmem
    have htake : (before ++ ';' :: after).takeWhile (· ≠ ';') = before := by
      rw [List.takeWhile_append_of_pos (by simpa using fun c hc => ne_of_mem_of_not_mem hc hno)]
      simp
    exact ⟨before, after, rfl, htake ▸ hname⟩

instance (cs : List Char) : Decidable (StartsReference cs) :=
  decidable_of_iff _ startsReference_iff.symm

instance decidableIsClean : DecidablePred IsClean
  | [] => isTrue trivial
  | c :: cs =>
    have := decidableIsClean cs
    inferInstanceAs (Decidable (c ≠ '<' ∧ (c = '&' → StartsReference cs) ∧ IsClean cs))

/-! ### Clean texts, part by part -/

/-- No reference goes beyond a character that cannot stand in one. -/
theorem startsReference_append_iff {c : Char} (hc : isReferenceChar c = false) (hne : c ≠ ';')
    (xs ys : List Char) : StartsReference (xs ++ c :: ys) ↔ StartsReference xs := by
  constructor
  · rintro ⟨name, rest, heq, hname⟩
    rcases List.append_eq_append_iff.mp heq with ⟨between, rfl, hrest⟩ | ⟨between, rfl, hrest⟩
    · -- the character would stand in the name, or be the semicolon behind it
      rcases List.cons_eq_append_iff.mp hrest with ⟨-, hsemi⟩ | ⟨between, rfl, -⟩
      · exact absurd (List.cons.inj hsemi).1.symm hne
      · have hbad := isReferenceChar_of_mem hname c (by simp)
        rw [hc] at hbad
        exact absurd hbad (by decide)
    · rcases List.cons_eq_append_iff.mp hrest with ⟨-, hsemi⟩ | ⟨between, rfl, -⟩
      · exact absurd (List.cons.inj hsemi).1 hne
      · exact ⟨name, between, rfl, hname⟩
  · rintro ⟨name, rest, rfl, hname⟩
    exact ⟨name, rest ++ c :: ys, by simp, hname⟩

theorem isClean_append_iff {c : Char} (hc : isReferenceChar c = false) (hne : c ≠ ';')
    (xs ys : List Char) : IsClean (xs ++ c :: ys) ↔ IsClean xs ∧ IsClean (c :: ys) := by
  induction xs with
  | nil => simp [IsClean]
  | cons x xs ih =>
    rw [List.cons_append, IsClean, IsClean, ih, startsReference_append_iff hc hne]
    tauto

/-- Whether a text is clean is decided part by part. -/
theorem partWise_isClean : PartWise IsClean where
  name := by
    intro cs h
    induction cs with
    | nil => trivial
    | cons c cs ih =>
      rw [List.all_cons, Bool.and_eq_true] at h
      obtain ⟨hc, hcs⟩ := h
      refine ⟨?_, ?_, ih hcs⟩
      · rintro rfl
        exact absurd hc (by decide)
      · rintro rfl
        exact absurd hc (by decide)
  separator := by
    intro xs ys c h
    have hplain : isReferenceChar c = false ∧ c ≠ ';' ∧ c ≠ '<' ∧ c ≠ '&' := by
      simp only [isSeparator, isBlank, Bool.or_eq_true, decide_eq_true_eq] at h
      rcases h with (((rfl | rfl) | rfl) | rfl) | rfl <;> decide
    obtain ⟨hc, hsemi, hlt, hamp⟩ := hplain
    rw [isClean_append_iff hc hsemi, IsClean]
    simp [hlt, hamp]
  quote := by
    intro xs ys
    rw [isClean_append_iff rfl (by decide), isClean_append_iff rfl (by decide)]
    simp [IsClean]

/-! ### Escaping neither adds nor hides markup -/

/-- The characters of a text with its quotes escaped. -/
def escaped (cs : List Char) : List Char :=
  cs.flatMap fun c => if c = '"' then "&quot;".toList else [c]

theorem toList_outputText (parts : List Token) :
    (outputText parts).toList = escaped (String.intercalate " &amp; " parts).toList := by
  rw [outputText, String.toList_ofList, ← Markup.flatMap_quote_eq, escaped]

theorem escaped_nil : escaped [] = [] := rfl

theorem escaped_cons_quote (cs : List Char) :
    escaped ('"' :: cs) = '&' :: ("quot;".toList ++ escaped cs) := rfl

theorem escaped_cons_of_ne {c : Char} (h : c ≠ '"') (cs : List Char) :
    escaped (c :: cs) = c :: escaped cs := by
  rw [escaped, List.flatMap_cons, if_neg h, List.singleton_append, escaped]

theorem escaped_of_notMem {cs : List Char} (h : '"' ∉ cs) (rest : List Char) :
    escaped (cs ++ rest) = cs ++ escaped rest := by
  induction cs with
  | nil => rfl
  | cons c cs ih =>
    obtain ⟨hc, hcs⟩ : '"' ≠ c ∧ '"' ∉ cs := by simpa using h
    rw [List.cons_append, escaped_cons_of_ne (Ne.symm hc), ih hcs, List.cons_append]

/-- Both a quote and the `&` that is written for it end what might be a reference. -/
theorem startsReference_escaped_iff (cs : List Char) :
    StartsReference (escaped cs) ↔ StartsReference cs := by
  by_cases hmem : '"' ∈ cs
  · obtain ⟨before, after, rfl, hno⟩ := List.eq_append_cons_of_mem hmem
    rw [escaped_of_notMem hno, escaped_cons_quote, startsReference_append_iff rfl (by decide),
      startsReference_append_iff rfl (by decide)]
  · have hself := escaped_of_notMem hmem []
    rw [escaped_nil, List.append_nil] at hself
    rw [hself]

theorem isClean_escaped_iff (cs : List Char) : IsClean (escaped cs) ↔ IsClean cs := by
  induction cs with
  | nil => rfl
  | cons c cs ih =>
    by_cases hc : c = '"'
    · have hquot : StartsReference ("quot;".toList ++ escaped cs) :=
        ⟨"quot".toList, escaped cs, rfl, rfl⟩
      subst hc
      have hquoted : IsClean ('&' :: ("quot;".toList ++ escaped cs)) ↔
          StartsReference ("quot;".toList ++ escaped cs) ∧ IsClean (escaped cs) := by
        simp [IsClean]
      rw [escaped_cons_quote, hquoted, ih, and_iff_right hquot]
      simp [IsClean]
    · rw [escaped_cons_of_ne hc, IsClean, IsClean, ih, startsReference_escaped_iff]

/-- The expression of an output statement is clean exactly if its parts are. -/
theorem isClean_outputText_iff (tokens : List Token) :
    IsClean (outputText tokens).toList ↔ ∀ t ∈ tokens, IsClean t.toList := by
  rw [toList_outputText, isClean_escaped_iff]
  refine partWise_isClean.forall_intercalate_iff (fun xs ys => ?_) tokens
  have hoperator : xs ++ " &amp; ".toList ++ ys = xs ++ ' ' :: ("&amp;".toList ++ ' ' :: ys) := by
    rw [List.append_assoc]
    rfl
  have hamp : IsClean "&amp;".toList := by decide
  rw [hoperator, partWise_isClean.separator xs _ rfl, partWise_isClean.separator _ ys rfl,
    and_iff_right hamp]

/-! ### Documents -/

instance (o : Options) (bs : List OpenBlock) (tokens : List Token) :
    Decidable (Dropped o bs tokens) :=
  inferInstanceAs (Decidable (_ ∧ _ ∧ _))

/-- The statements of a run, less the comments that it drops. -/
def Draft.kept (d : Draft) : List (List Token) → List (List Token)
  | [] => []
  | tokens :: rest =>
    let later := ((process tokens).apply d).2.kept rest
    if Dropped d.options d.blocks tokens then later else tokens :: later

theorem Draft.kept_cons {d : Draft} {line : Line} {tags : List Tag} {blocks : List OpenBlock}
    (effect : Effect d.options d.blocks line tags blocks) (rest : List (List Token)) :
    d.kept (line.tokens :: rest) =
      if Dropped d.options d.blocks line.tokens then (d.advance tags blocks).kept rest
      else line.tokens :: (d.advance tags blocks).kept rest := by
  rw [kept, effect.apply_process]

/-- The values of a trace are clean exactly if the arguments of its lines are. -/
theorem Trace.forall_clean_iff {o : Options} {bs bs' : List OpenBlock} {lines : List Line}
    {tags : List Tag} (h : Trace o bs lines tags bs') {d : Draft} (ho : d.options = o)
    (hbs : d.blocks = bs) :
    (∀ v ∈ Tag.values tags, IsClean v.toList) ↔
      ∀ tokens ∈ d.kept (lines.map Line.tokens), ∀ a ∈ tokens.tail, IsClean a.toList := by
  induction h generalizing d with
  | nil bs => simp [Draft.kept]
  | @cons bs between _ line lines xs ys effect rest ih =>
    subst ho hbs
    have hfirst : (∀ v ∈ Tag.values xs, IsClean v.toList) ↔
        (¬Dropped d.options d.blocks line.tokens → ∀ a ∈ line.tokens.tail, IsClean a.toList) := by
      rw [effect.forall_values_iff partWise_isClean isClean_outputText_iff]
      simp [Line.tokens, ArgumentsHave]
    have hlater : (∀ v ∈ Tag.values ys, IsClean v.toList) ↔
        ∀ tokens ∈ (d.advance xs between).kept (lines.map Line.tokens),
          ∀ a ∈ tokens.tail, IsClean a.toList :=
      ih (d.options_advance xs between) (d.blocks_advance xs between)
    rw [Tag.values_append, List.forall_mem_append, hfirst, hlater, List.map_cons,
      Draft.kept_cons effect]
    by_cases hdropped : Dropped d.options d.blocks line.tokens
    · rw [if_pos hdropped]
      exact and_iff_right fun hkept => absurd hdropped hkept
    · rw [if_neg hdropped, forall_prop_of_true hdropped, List.forall_mem_cons]

/-- The text is a declaration, tags and a line break; these are its tags, and they nest. -/
def ReadsAs (document : String) (tags : List Tag) : Prop :=
  ∃ text, document = text ++ "\n" ∧ readDocument? text = some tags ∧ Tag.nest [] tags = some []

/-- The line break stands behind the text, and the text is all there is to read. -/
theorem ReadsAs.readDocument?_eq {document : String} {tags : List Tag}
    (h : ReadsAs document tags) :
    readDocument? (String.ofList document.toList.dropLast) = some tags := by
  obtain ⟨text, rfl, hread, -⟩ := h
  have htext : String.ofList (text ++ "\n").toList.dropLast = text := by
    rw [String.toList_append]
    show String.ofList (text.toList ++ ['\n']).dropLast = text
    rw [List.dropLast_concat, String.ofList_toList]
  rw [htext, hread]

theorem ReadsAs.unique {document : String} {xs ys : List Tag} (hx : ReadsAs document xs)
    (hy : ReadsAs document ys) : xs = ys :=
  Option.some.inj (hx.readDocument?_eq.symm.trans hy.readDocument?_eq)

/-- A document that a strict reader takes: its tags nest, and every value is clean. -/
def WellFormed (document : String) : Prop :=
  ∃ tags, ReadsAs document tags ∧ ∀ v ∈ Tag.values tags, IsClean v.toList

/-- The outermost element has one attribute, which is the same in every document. -/
theorem values_documentTags (tags : List Tag) :
    Tag.values (documentTags tags) = "4.2" :: Tag.values tags := by
  rw [documentTags, Tag.values_cons, Tag.values_append]
  show "4.2" :: (Tag.values tags ++ []) = "4.2" :: Tag.values tags
  rw [List.append_nil]

theorem Trace.readsAs {o : Options} {lines : List Line} {tags : List Tag}
    (h : Trace o [] lines tags []) (hquotes : ∀ line ∈ lines, QuotesOnlyInOutput line.tokens) :
    ReadsAs (Markup.header ++ Tag.texts tags ++ Markup.footer) (documentTags tags) :=
  ⟨_, header_texts_footer tags, h.readDocument?_eq hquotes⟩

/-- What a trace writes is well formed exactly if the arguments of its lines are clean. -/
theorem Trace.wellFormed_iff {o : Options} {lines : List Line} {tags : List Tag}
    (h : Trace o [] lines tags []) (hquotes : ∀ line ∈ lines, QuotesOnlyInOutput line.tokens) :
    WellFormed (Markup.header ++ Tag.texts tags ++ Markup.footer) ↔
      ∀ tokens ∈ (Draft.new o).kept (lines.map Line.tokens),
        ∀ a ∈ tokens.tail, IsClean a.toList := by
  have hreads := h.readsAs hquotes
  have hroot : IsClean "4.2".toList := by decide
  rw [← h.forall_clean_iff rfl rfl]
  constructor
  · rintro ⟨tags', hreads', hclean⟩
    rw [hreads'.unique hreads, values_documentTags] at hclean
    exact (List.forall_mem_cons.mp hclean).2
  · intro hclean
    refine ⟨documentTags tags, hreads, ?_⟩
    rw [values_documentTags]
    exact List.forall_mem_cons.mpr ⟨hroot, hclean⟩

/-- **A document is as clean as its source.** If double quotes stand in output only, a document is a
declaration, tags that nest and a line break, and its tags are read back as they were written. It is
well formed exactly if the arguments of all statements are clean, dropped comments apart. -/
theorem compile_wellFormed_iff {source : String} {file : Nat} {o : Options} {document : String}
    (h : compile source file o = .ok document)
    (hquotes : ∀ tokens ∈ statements source, QuotesOnlyInOutput tokens) :
    (∃ tags, ReadsAs document tags ∧ document = declaration ++ Tag.texts tags ++ "\n") ∧
      (WellFormed document ↔
        ∀ tokens ∈ (Draft.new o).kept (statements source),
          ∀ a ∈ tokens.tail, IsClean a.toList) := by
  obtain ⟨lines, tags, hlines, trace, rfl⟩ := compile_eq_ok_iff.mp h
  rw [hlines] at hquotes ⊢
  have hquotes' : ∀ line ∈ lines, QuotesOnlyInOutput line.tokens := fun line hline =>
    hquotes _ (List.mem_map_of_mem hline)
  exact ⟨⟨documentTags tags, trace.readsAs hquotes', header_texts_footer tags⟩,
    trace.wellFormed_iff hquotes'⟩

/-- Quotes in output, a reference in a condition and a comment that is dropped: the document is well
formed. -/
theorem compile_wellFormed_of_reference :
    ∃ document,
      compile "# a < b\nfn main () _ void\nwhile i &lt; 9\nprint \"x\" i\nend\nend\n" 0 .strict =
        .ok document ∧
      (∃ tags, ReadsAs document tags ∧ document = declaration ++ Tag.texts tags ++ "\n") ∧
        WellFormed document := by
  have hcompile : ∃ document,
      compile "# a < b\nfn main () _ void\nwhile i &lt; 9\nprint \"x\" i\nend\nend\n" 0 .strict =
        .ok document := ⟨_, rfl⟩
  obtain ⟨document, h⟩ := hcompile
  obtain ⟨hreads, hiff⟩ := compile_wellFormed_iff h (by decide +kernel)
  exact ⟨document, h, hreads, hiff.mpr (by decide +kernel)⟩

/-- Comparison signs are passed through, so the document of a plain loop is not well formed. Double
quotes are passed through as well, outside output, and end the value they stand in. -/
theorem compile_not_wellFormed :
    (∃ document, compile "fn main () _ void\nwhile i < 10\nend\nend\n" 0 .strict = .ok document ∧
        ¬WellFormed document) ∧
      ∃ document, compile "set x \"a\"" 0 .lenient = .ok document ∧ ¬WellFormed document := by
  constructor
  · have hcompile : ∃ document,
        compile "fn main () _ void\nwhile i < 10\nend\nend\n" 0 .strict = .ok document := ⟨_, rfl⟩
    obtain ⟨document, h⟩ := hcompile
    refine ⟨document, h, ?_⟩
    obtain ⟨lines, tags, hlines, trace, rfl⟩ := compile_eq_ok_iff.mp h
    have hquotes : ∀ tokens ∈ lines.map Line.tokens, QuotesOnlyInOutput tokens := by
      rw [← hlines]
      decide +kernel
    rw [trace.wellFormed_iff fun line hline => hquotes _ (List.mem_map_of_mem hline), ← hlines]
    decide +kernel
  · have hcompile : ∃ document, compile "set x \"a\"" 0 .lenient = .ok document ∧
        readDocument? (String.ofList document.toList.dropLast) = none :=
      ⟨_, rfl, by decide +kernel⟩
    obtain ⟨document, h, hread⟩ := hcompile
    refine ⟨document, h, ?_⟩
    rintro ⟨tags, hreads, -⟩
    rw [hreads.readDocument?_eq] at hread
    exact absurd hread (Option.some_ne_none tags)

end Flowscript
