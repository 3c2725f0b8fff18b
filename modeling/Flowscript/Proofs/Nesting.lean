import Flowscript.Proofs.Run
import Flowscript.Proofs.Scan
import Flowscript.Proofs.Value
import Flowscript.Text.Search

/-!
# Open elements and open blocks

Whatever has been written so far, a reader that knows only tags finds it well nested, and the
elements it finds open are those of the open blocks. So the stack of blocks is nothing but a summary
of the text.

## The hypothesis on quotes

A double quote in an attribute value would end it early. Output statements escape their arguments;
the other statements do not, and are assumed to hold no double quote (`QuotesOnlyInOutput`). Nothing
is assumed about any other character, nor about which statements are refused.

## Main definitions

* `OpenBlock.elements`, `openElements` — the elements that blocks keep open.
* `openElements?` — the elements that a reader of the text finds open.
* `QuotesOnlyInOutput` — double quotes stand in the arguments of output statements only.

## Main results

* `Effect.nest` — an effect nests inside the elements of the blocks.
* `Effect.readable` — its tags are read back as they are.
* `openElements?_attempt` — after every run, the open elements are those of the open blocks.
-/

namespace Flowscript

/-! ### Elements of blocks -/

/-- The elements a block keeps open, outermost first. -/
def OpenBlock.elements : OpenBlock → List String
  | .function => ["function", "body"]
  | .ifPendingElse chained => (List.replicate chained ["if", "else"]).flatten ++ ["if", "then"]
  | .ifResolved chained => (List.replicate (chained + 1) ["if", "else"]).flatten
  | .whileLoop => ["while"]
  | .doLoop => ["do"]
  | .forLoop => ["for"]

/-- The elements open while the blocks `bs` are, outermost first. -/
def openElements (bs : List OpenBlock) : List String :=
  "flowgorithm" :: bs.reverse.flatMap OpenBlock.elements

theorem openElements_cons (b : OpenBlock) (bs : List OpenBlock) :
    openElements (b :: bs) = openElements bs ++ b.elements := by
  simp [openElements]

namespace OpenBlock

theorem reverse_elements_ifPendingElse (chained : Nat) :
    (ifPendingElse chained).elements.reverse =
      "then" :: "if" :: (List.replicate chained ["else", "if"]).flatten := by
  simp [elements, List.reverse_flatten]

theorem reverse_elements_ifResolved (chained : Nat) :
    (ifResolved chained).elements.reverse =
      "else" :: "if" :: (List.replicate chained ["else", "if"]).flatten := by
  rw [elements, List.reverse_flatten, List.map_replicate, List.reverse_replicate,
    List.replicate_succ]
  rfl

/-- The tags that close a chain close one `else` branch and its conditional for each link. -/
theorem nest_closeChain (chained : Nat) (outer : List String) :
    Tag.nest ("if" :: ((List.replicate chained ["else", "if"]).flatten ++ outer))
      (closeChain chained) = some outer := by
  induction chained with
  | zero => simp [closeChain]
  | succ chained ih => simpa [closeChain, List.replicate_succ] using ih

/-- What closes a block closes its elements. -/
theorem nest_closingTags (b : OpenBlock) (outer : List String) :
    Tag.nest (b.elements.reverse ++ outer) b.closingTags = some outer := by
  cases b with
  | ifPendingElse chained =>
    simpa [reverse_elements_ifPendingElse, closingTags] using nest_closeChain chained outer
  | ifResolved chained =>
    simpa [reverse_elements_ifResolved, closingTags] using nest_closeChain chained outer
  | function | whileLoop | doLoop | forLoop => simp [elements, closingTags]

end OpenBlock

/-! ### Effects nest -/

theorem nest_turnTags (chained : Nat) (outer : List String) :
    Tag.nest ((OpenBlock.ifPendingElse chained).elements.reverse ++ outer) turnTags =
      some ((OpenBlock.ifResolved chained).elements.reverse ++ outer) := by
  simp [OpenBlock.reverse_elements_ifPendingElse, OpenBlock.reverse_elements_ifResolved, turnTags]

theorem nest_conditionTags (condition : Expression) (outer : List String) :
    Tag.nest outer (conditionTags condition) = some ("then" :: "if" :: outer) := by
  simp [conditionTags]

theorem Signature.nest_tags (s : Signature) (outer : List String) :
    Tag.nest outer s.tags = some ("body" :: "function" :: outer) := by
  have hparameters (opened : List String) (pairs : List (Token × Token)) (rest : List Tag) :
      Tag.nest opened (pairs.map (fun p => Tag.whole "parameter"
        [⟨"name", p.1⟩, ⟨"type", p.2⟩, ⟨"array", "False"⟩]) ++ rest) = Tag.nest opened rest := by
    induction pairs with
    | nil => rfl
    | cons p pairs ih => simpa using ih
  cases hp : s.parameters with
  | nil => simp [tags, hp, parameterTags]
  | cons p pairs => simp [tags, hp, parameterTags, hparameters]

theorem Loop.elements_block (l : Loop) : l.block.elements = [l.element] := by
  cases l <;> rfl

theorem Simple.nest_tag (s : Simple) (outer : List String) :
    Tag.nest outer [s.tag] = some outer := by
  cases s <;> simp [tag]

/-- **Effects nest.** With the elements of the open blocks open, the tags of an effect nest, and
leave the elements of the new blocks open. -/
theorem Effect.nest {o : Options} {bs bs' : List OpenBlock} {line : Line} {tags : List Tag}
    (h : Effect o bs line tags bs') :
    Tag.nest (openElements bs).reverse tags = some (openElements bs').reverse := by
  cases h with
  | simple s h => exact s.nest_tag _
  | comment text =>
    split
    · exact Simple.nest_tag _ _
    · rfl
  | function s => simpa [openElements_cons, OpenBlock.elements] using s.nest_tags _
  | ifThen condition h =>
    simpa [openElements_cons, OpenBlock.elements] using nest_conditionTags condition _
  | otherwise chained bs =>
    simpa only [openElements_cons, List.reverse_append] using nest_turnTags chained _
  | elseIf chained bs condition =>
    rw [openElements_cons, openElements_cons, List.reverse_append, List.reverse_append,
      Tag.nest_append, nest_turnTags, Option.bind_some, nest_conditionTags]
    simp [OpenBlock.reverse_elements_ifPendingElse, OpenBlock.reverse_elements_ifResolved,
      List.replicate_succ]
  | loop l h => simp [openElements_cons, l.elements_block]
  | close b bs =>
    rw [openElements_cons, List.reverse_append]
    exact b.nest_closingTags _
  | unmatchedEnd h => rfl

/-! ### Effects are readable -/

/-- The names in a tag: its element and its attributes. -/
def Tag.names (t : Tag) : List String := t.name :: t.attributes.map Attribute.name

theorem Tag.readable_iff {t : Tag} :
    t.Readable ↔ (∀ n ∈ t.names, IsName n) ∧ ∀ v ∈ Tag.values [t], '"' ∉ v.toList := by
  simp only [Readable, Attribute.Readable, names, values_cons, values_nil, List.append_nil,
    List.forall_mem_cons, List.forall_mem_map, forall_and, and_assoc]

theorem OpenBlock.isName_closingTags (b : OpenBlock) :
    ∀ t ∈ b.closingTags, ∀ n ∈ t.names, IsName n := by
  have hchain (chained : Nat) : ∀ t ∈ closeChain chained, ∀ n ∈ t.names, IsName n := by
    induction chained with
    | zero => decide
    | succ chained ih =>
      rw [closeChain, List.forall_mem_cons, List.forall_mem_cons]
      exact ⟨by decide, by decide, ih⟩
  cases b with
  | ifPendingElse chained =>
    rw [closingTags, List.forall_mem_cons, List.forall_mem_cons]
    exact ⟨by decide, by decide, hchain chained⟩
  | ifResolved chained =>
    rw [closingTags, List.forall_mem_cons]
    exact ⟨by decide, hchain chained⟩
  | function | whileLoop | doLoop | forLoop => decide

theorem Simple.isName_tag (s : Simple) : ∀ n ∈ s.tag.names, IsName n := by
  cases s with
  | declare => exact (by decide : ∀ n ∈ ["declare", "name", "type", "array", "size"], IsName n)
  | assign => exact (by decide : ∀ n ∈ ["assign", "variable", "expression"], IsName n)
  | call => exact (by decide : ∀ n ∈ ["call", "expression"], IsName n)
  | output => exact (by decide : ∀ n ∈ ["output", "expression", "newline"], IsName n)
  | scan => exact (by decide : ∀ n ∈ ["input", "variable"], IsName n)
  | comment => exact (by decide : ∀ n ∈ ["comment", "text"], IsName n)

theorem Loop.isName_opening (l : Loop) :
    ∀ n ∈ (Tag.opening l.element l.attributes).names, IsName n := by
  cases l with
  | whileLoop => exact (by decide : ∀ n ∈ ["while", "expression"], IsName n)
  | doLoop => exact (by decide : ∀ n ∈ ["do", "expression"], IsName n)
  | forLoop =>
    exact (by decide : ∀ n ∈ ["for", "variable", "start", "end", "direction", "step"], IsName n)

theorem Signature.isName_tags (s : Signature) : ∀ t ∈ s.tags, ∀ n ∈ t.names, IsName n := by
  have hparameter (p : Token × Token) : ∀ n ∈ (Tag.whole "parameter"
      [⟨"name", p.1⟩, ⟨"type", p.2⟩, ⟨"array", "False"⟩]).names, IsName n :=
    (by decide : ∀ n ∈ ["parameter", "name", "type", "array"], IsName n)
  have hparameters : ∀ t ∈ parameterTags s.parameters, ∀ n ∈ t.names, IsName n := by
    cases s.parameters with
    | nil => decide
    | cons p pairs =>
      rw [parameterTags, List.forall_mem_append, List.forall_mem_cons, List.forall_mem_map]
      · exact ⟨⟨by decide, fun p _ => hparameter p⟩, by decide⟩
      · exact List.cons_ne_nil p pairs
  rw [tags, List.forall_mem_append, List.forall_mem_cons]
  exact ⟨⟨(by decide : ∀ n ∈ ["function", "name", "type", "variable"], IsName n), hparameters⟩,
    by decide⟩

theorem isName_conditionTags (condition : Expression) :
    ∀ t ∈ conditionTags condition, ∀ n ∈ t.names, IsName n := by
  rw [conditionTags, List.forall_mem_cons, List.forall_mem_cons]
  exact ⟨(by decide : ∀ n ∈ ["if", "expression"], IsName n),
    (by decide : ∀ n ∈ ["then"], IsName n), by simp⟩

/-- The names in a document are names, whatever the statements say. -/
theorem Effect.isName {o : Options} {bs bs' : List OpenBlock} {line : Line} {tags : List Tag}
    (h : Effect o bs line tags bs') : ∀ t ∈ tags, ∀ n ∈ t.names, IsName n := by
  cases h with
  | simple s h => simpa using s.isName_tag
  | comment text =>
    split
    · simpa using (Simple.comment text).isName_tag
    · simp
  | function s => exact s.isName_tags
  | ifThen condition h => exact isName_conditionTags condition
  | otherwise chained bs => decide
  | elseIf chained bs condition =>
    rw [List.forall_mem_append]
    exact ⟨by decide, isName_conditionTags condition⟩
  | loop l h => simpa using l.isName_opening
  | close b bs => exact b.isName_closingTags
  | unmatchedEnd h => simp

/-- Double quotes stand in the arguments of output statements only. -/
def QuotesOnlyInOutput : List Token → Prop
  | [] => True
  | word :: args => '"' ∉ word.toList ∧ (isOutputWord word = false → ∀ a ∈ args, '"' ∉ a.toList)

instance : DecidablePred QuotesOnlyInOutput
  | [] => isTrue trivial
  | _ :: _ => inferInstanceAs (Decidable (_ ∧ _))

/-- Whether a text holds a double quote is decided part by part. -/
theorem partWise_quote_notMem : PartWise ('"' ∉ ·) where
  name := by
    intro cs h hmem
    exact absurd (List.all_eq_true.mp h _ hmem) (by decide)
  separator := by
    intro xs ys c hc
    have hne : '"' ≠ c := by
      rintro rfl
      exact absurd hc (by decide)
    simp [hne]
  quote := by simp

theorem quote_notMem_outputText (parts : List Token) : '"' ∉ (outputText parts).toList := by
  rw [outputText, String.toList_ofList, ← Markup.flatMap_quote_eq, List.mem_flatMap]
  rintro ⟨c, -, hc⟩
  split at hc
  · exact absurd hc (by decide)
  · next hne => exact hne (List.mem_singleton.mp hc).symm

/-- **Effects are readable.** A line with no double quote outside output writes tags that a reader
finds as they are. -/
theorem Effect.readable {o : Options} {bs bs' : List OpenBlock} {line : Line} {tags : List Tag}
    (h : Effect o bs line tags bs') (hquotes : QuotesOnlyInOutput line.tokens) :
    ∀ t ∈ tags, t.Readable := by
  have hargs : ArgumentsHave ('"' ∉ ·) (fun _ => True) line.tokens := by
    rw [Line.tokens, QuotesOnlyInOutput] at hquotes
    intro a ha
    split
    · trivial
    · next hword => exact hquotes.2 (Bool.eq_false_iff.mpr hword) a ha
  have hvalues : ∀ v ∈ Tag.values tags, '"' ∉ v.toList :=
    (h.forall_values_iff partWise_quote_notMem
      (fun tokens => iff_of_true (quote_notMem_outputText tokens) fun _ _ => trivial)).mpr
        fun _ => hargs
  intro t ht
  refine Tag.readable_iff.mpr ⟨h.isName t ht, ?_⟩
  rw [Tag.values_cons, Tag.values_nil, List.append_nil]
  exact fun v hv => hvalues v (List.mem_flatMap_of_mem ht hv)

/-! ### Traces -/

namespace Trace

variable {o : Options} {bs bs' : List OpenBlock} {lines : List Line} {tags : List Tag}

theorem nest (h : Trace o bs lines tags bs') :
    Tag.nest (openElements bs).reverse tags = some (openElements bs').reverse := by
  induction h with
  | nil bs => rfl
  | cons effect rest ih => rw [Tag.nest_append, effect.nest, Option.bind_some, ih]

theorem readable (h : Trace o bs lines tags bs')
    (hquotes : ∀ line ∈ lines, QuotesOnlyInOutput line.tokens) : ∀ t ∈ tags, t.Readable := by
  induction h with
  | nil bs => simp
  | cons effect rest ih =>
    obtain ⟨hline, hlines⟩ := List.forall_mem_cons.mp hquotes
    exact List.forall_mem_append.mpr ⟨effect.readable hline, ih hlines⟩

end Trace

/-! ### Reading a document -/

/-- What stands in front of the first tag. -/
def declaration : String := "<?xml version=\"1.0\"?>"

/-- The tag that opens the outermost element. -/
def rootTag : Tag := .opening "flowgorithm" [⟨"fileversion", "4.2"⟩]

/-- The tags behind the declaration. -/
def readDocument? (text : String) : Option (List Tag) :=
  (behind? declaration text.toList).bind Tag.read?

/-- The elements that a reader finds open at the end of a text, outermost first. It gives up if the
text is no declaration with tags behind it, or if a closing tag does not match. -/
def openElements? (text : String) : Option (List String) :=
  ((readDocument? text).bind (Tag.nest [])).map List.reverse

theorem header_eq_rootTag : Markup.header = declaration ++ rootTag.text := by
  unfold Markup.header declaration rootTag
  rw [Markup.startTag_eq]

/-- Readable tags are read back from behind the declaration. -/
theorem readDocument?_texts {tags : List Tag} (h : ∀ t ∈ tags, t.Readable) :
    readDocument? (declaration ++ Tag.texts tags) = some tags := by
  have hbehind : behind? declaration (declaration ++ Tag.texts tags).toList =
      some (Tag.texts tags).toList := by
    rw [String.toList_append, behind?, if_pos (by simp), List.drop_left]
  rw [readDocument?, hbehind, Option.bind_some, Tag.read?_texts h]

theorem readable_rootTag : rootTag.Readable := Tag.readable_iff.mpr (by decide)

/-- The tags of a whole document. -/
def documentTags (tags : List Tag) : List Tag := rootTag :: (tags ++ [.closing "flowgorithm"])

/-- The header is the declaration and the tag that opens the outermost element; the footer is the tag
that closes it and a line break. -/
theorem header_texts_footer (tags : List Tag) :
    Markup.header ++ Tag.texts tags ++ Markup.footer =
      declaration ++ Tag.texts (documentTags tags) ++ "\n" := by
  rw [documentTags, Tag.texts_cons, header_eq_rootTag, Markup.footer, Markup.endTag_eq,
    Tag.texts_append, Tag.texts_cons, Tag.texts_nil, String.append_empty]
  simp only [String.append_assoc]

theorem nest_documentTags {tags : List Tag}
    (h : Tag.nest ["flowgorithm"] tags = some ["flowgorithm"]) :
    Tag.nest [] (documentTags tags) = some [] := by
  rw [documentTags, rootTag, Tag.nest_opening, Tag.nest_append, h, Option.bind_some,
    Tag.nest_closing, Tag.nest_nil]

theorem readable_documentTags {tags : List Tag} (h : ∀ t ∈ tags, t.Readable) :
    ∀ t ∈ documentTags tags, t.Readable := by
  have hfooter : (Tag.closing "flowgorithm").Readable := Tag.readable_iff.mpr (by decide)
  rw [documentTags, List.forall_mem_cons, List.forall_mem_append, List.forall_mem_singleton]
  exact ⟨readable_rootTag, h, hfooter⟩

/-- A trace that closes everything makes a document: its tags are read back, and nest. -/
theorem Trace.readDocument?_eq {o : Options} {lines : List Line} {tags : List Tag}
    (h : Trace o [] lines tags []) (hquotes : ∀ line ∈ lines, QuotesOnlyInOutput line.tokens) :
    readDocument? (declaration ++ Tag.texts (documentTags tags)) = some (documentTags tags) ∧
      Tag.nest [] (documentTags tags) = some [] :=
  ⟨readDocument?_texts (readable_documentTags (h.readable hquotes)), nest_documentTags h.nest⟩

/-- **Blocks summarise the text.** Carry out any statements, with double quotes in output only, and
pass over those that are refused. The markup written so far is well nested, and the elements open at
its end are those of the open blocks. A finished document is well nested with nothing open. -/
theorem openElements?_attempt (o : Options) (statements : List (List Token))
    (hquotes : ∀ tokens ∈ statements, QuotesOnlyInOutput tokens) :
    openElements? ((Draft.new o).attempt statements).markup =
        some (openElements ((Draft.new o).attempt statements).blocks) ∧
      ∀ document, ((Draft.new o).attempt statements).finish = .ok document →
        ∃ text, document = text ++ "\n" ∧ openElements? text = some [] := by
  obtain ⟨lines, tags, blocks, hsub, trace, hd⟩ := (Draft.new o).exists_trace_attempt statements
  have hlines : ∀ line ∈ lines, QuotesOnlyInOutput line.tokens := fun line hline =>
    hquotes _ (hsub.subset (List.mem_map_of_mem hline))
  rw [hd]
  constructor
  · have hnest : Tag.nest ["flowgorithm"] tags = some (openElements blocks).reverse := trace.nest
    have hall : ∀ t ∈ rootTag :: tags, t.Readable := by
      rw [List.forall_mem_cons]
      exact ⟨readable_rootTag, trace.readable hlines⟩
    rw [Draft.markup_advance, Draft.new, header_eq_rootTag, String.append_assoc, ← Tag.texts_cons,
      openElements?, readDocument?_texts hall, Option.bind_some, rootTag, Tag.nest_opening, hnest,
      Option.map_some, List.reverse_reverse, Draft.blocks_advance]
  · intro document hfinish
    obtain ⟨hblocks, rfl⟩ := Draft.finish_eq_ok_iff.mp hfinish
    rw [Draft.blocks_advance] at hblocks
    subst hblocks
    obtain ⟨hread, hclosed⟩ := trace.readDocument?_eq hlines
    refine ⟨declaration ++ Tag.texts (documentTags tags), header_texts_footer tags, ?_⟩
    rw [openElements?, hread, Option.bind_some, hclosed, Option.map_some, List.reverse_nil]

/-- A loop inside the last branch of a chain, behind a refused statement; and a document. -/
theorem openElements?_attempt_chain :
    (∀ tokens ∈ [["fn", "main", "()", "_", "void"], ["if", "a"], ["else", "if", "b"], ["fn"],
        ["print", "\"x\"", "y"], ["else"], ["while", "i", "<", "10"]], QuotesOnlyInOutput tokens) ∧
      openElements? ((Draft.new .strict).attempt [["fn", "main", "()", "_", "void"], ["if", "a"],
        ["else", "if", "b"], ["fn"], ["print", "\"x\"", "y"], ["else"],
        ["while", "i", "<", "10"]]).markup =
          some ["flowgorithm", "function", "body", "if", "else", "if", "else", "while"] ∧
      ∃ document, ((Draft.new .strict).attempt [["fn", "main", "()", "_", "void"],
          ["print", "\"x\""], ["end"]]).finish = .ok document ∧
        ∃ text, document = text ++ "\n" ∧ openElements? text = some [] :=
  ⟨by decide, (openElements?_attempt .strict _ (by decide)).1, _, rfl,
    (openElements?_attempt .strict [["fn", "main", "()", "_", "void"], ["print", "\"x\""], ["end"]]
      (by decide)).2 _ rfl⟩

end Flowscript
