import Flowscript.Proofs.Chain
import Flowscript.Proofs.Respacing

/-!
# Statement text is passed through

Conditions, actions, assignments and comments are not looked into. Their text is cut into tokens,
the tokens are joined by single spaces, and the result is written down. This module compares what is
written with the line it comes from.

## What may change

Blanks may: the line is cut at some of them, and where two tokens meet there is exactly one space
afterwards, also where there was none before. So the comparison is made with all blanks left out,
and then nothing is lost, doubled or moved (`text_passed_through`). Blanks in a quoted region are a
part of the text, however, and they stay: no cut falls inside such a region, so the whole of it lies
in one token.

## Main definitions

* `eraseBlanks` — the characters of a text that are no blanks.
* `QuotedRegion` — a stretch of a line from a quote that opens to the one that closes.
* `textLeads` — how the statements begin that pass their text through.
* `Carries` — what values have in common with the tokens they are made of.

## Main results

* `eraseBlanks_tokenize` — cutting a line changes blanks only.
* `exists_token_of_quotedRegion` — a quoted region lies in one token.
* `Effect.carries` — the values of a line carry its arguments.
* `text_passed_through` — the values that are written, against the line.
-/

namespace Flowscript

/-! ### Texts without their blanks -/

/-- The characters of a text that are no blanks. -/
def eraseBlanks (s : String) : List Char := s.toList.filter fun c => !isBlank c

@[simp] theorem eraseBlanks_empty : eraseBlanks "" = [] := rfl

@[simp] theorem eraseBlanks_append (s t : String) :
    eraseBlanks (s ++ t) = eraseBlanks s ++ eraseBlanks t := by
  simp [eraseBlanks]

theorem eraseBlanks_of_blank {s : String} (h : ∀ c ∈ s.toList, isBlank c = true) :
    eraseBlanks s = [] := by
  simpa [eraseBlanks] using h

/-- Joining adds blanks only. -/
theorem eraseBlanks_expression (tokens : List Token) :
    eraseBlanks (String.intercalate " " tokens) = eraseBlanks (String.join tokens) := by
  induction tokens with
  | nil => rfl
  | cons t rest ih =>
    cases rest with
    | nil => simp
    | cons u rest =>
      have hspace : eraseBlanks " " = [] := rfl
      rw [String.intercalate_cons_cons, String.join_cons, eraseBlanks_append, eraseBlanks_append,
        eraseBlanks_append, hspace, List.append_nil, ih]

theorem eraseBlanks_join_gaps {words : List (Token × String)}
    (h : ∀ w ∈ words, ∀ c ∈ w.2.toList, isBlank c = true) :
    eraseBlanks (String.join (words.map fun w => w.1 ++ w.2)) =
      eraseBlanks (String.join (words.map Prod.fst)) := by
  induction words with
  | nil => rfl
  | cons w words ih =>
    obtain ⟨hgap, hlater⟩ := List.forall_mem_cons.mp h
    rw [List.map_cons, List.map_cons, String.join_cons, String.join_cons, eraseBlanks_append,
      eraseBlanks_append, eraseBlanks_append, eraseBlanks_of_blank hgap, List.append_nil,
      ih hlater]

/-- **Cutting changes blanks only.** Put together, the tokens of a line are the line. -/
theorem eraseBlanks_tokenize (line : String) :
    eraseBlanks (String.join (tokenize line)) = eraseBlanks line := by
  obtain ⟨s, rfl, htokens, -⟩ := exists_spacing_tokenize line
  rw [← htokens, Spacing.tokens, Spacing.text, eraseBlanks_append,
    eraseBlanks_of_blank s.isBlank_lead, List.nil_append, eraseBlanks_join_gaps s.isBlank_gap]

/-! ### Quoted regions -/

/-- A quoted region of a line. It begins with a quote that has an odd number, and goes on up to the
next quote or, if there is none, to the end of the line. -/
def QuotedRegion (line : String) (region : List Char) : Prop :=
  ∃ front inner back, line.toList = front ++ region ++ back ∧ ¬Quoted front ∧ '"' ∉ inner ∧
    (region = '"' :: inner ++ ['"'] ∨ region = '"' :: inner ∧ back = [])

theorem QuotedRegion.quote_mem {line : String} {region : List Char} (h : QuotedRegion line region) :
    '"' ∈ region := by
  obtain ⟨front, inner, back, -, -, -, rfl | ⟨rfl, -⟩⟩ := h
  · exact List.mem_cons_self
  · exact List.mem_cons_self

/-- Nothing is cut inside quotes. -/
theorem Mode.reads_inside_quotes {inner : List Char} (h : '"' ∉ inner) (grouped : Bool) :
    Mode.Reads ⟨true, grouped⟩ inner ⟨true, grouped⟩ := by
  induction inner with
  | nil => exact .nil _
  | cons c inner ih =>
    obtain ⟨hc, hinner⟩ : '"' ≠ c ∧ '"' ∉ inner := by simpa using h
    have hread : Mode.read ⟨true, grouped⟩ c = (⟨true, grouped⟩, .none) := by
      simp [Mode.read, hc.symm]
    exact (Mode.Reads.single hread).append (ih hinner)

/-- A quote that opens a region is read, with what stands in the region. -/
theorem Mode.reads_region {m : Mode} (hm : ¬m.quoted = true) {inner : List Char}
    (h : '"' ∉ inner) : m.Reads ('"' :: inner) ⟨true, m.grouped⟩ := by
  have hread : m.read '"' = (⟨true, m.grouped⟩, .none) := by simp [Mode.read, hm]
  exact (Mode.Reads.single hread).append (Mode.reads_inside_quotes h m.grouped)

/-- From where it begins, a quoted region is one piece. -/
theorem pieces_region {m : Mode} (hm : ¬m.quoted = true) {inner region back : List Char}
    (h : '"' ∉ inner)
    (hregion : region = '"' :: inner ++ ['"'] ∨ region = '"' :: inner ∧ back = []) :
    (pieces m (region ++ back)).1 = region := by
  have hreads := Mode.reads_region hm h
  rcases hregion with rfl | ⟨rfl, rfl⟩
  · rw [hreads.pieces_after rfl]
  · rw [List.append_nil, hreads.pieces_self]

/-- The pieces of the rest of a line are parts of the pieces of the whole. -/
theorem exists_piece_around (front cs : List Char) (m : Mode) {piece : List Char}
    (h : piece ∈ (pieces (front.foldl (fun m c => (m.read c).1) m) cs).1 ::
      (pieces (front.foldl (fun m c => (m.read c).1) m) cs).2) :
    ∃ whole ∈ (pieces m (front ++ cs)).1 :: (pieces m (front ++ cs)).2, piece <:+: whole := by
  induction front generalizing m with
  | nil => exact ⟨piece, h, List.infix_rfl⟩
  | cons c front ih =>
    obtain ⟨whole, hwhole, hpiece⟩ := ih (m.read c).1 h
    rw [List.cons_append, pieces]
    cases (m.read c).2 with
    | none =>
      rcases List.mem_cons.mp hwhole with rfl | hlater
      · exact ⟨_, List.mem_cons_self, hpiece.trans (List.suffix_cons c _).isInfix⟩
      · exact ⟨whole, List.mem_cons_of_mem _ hlater, hpiece⟩
    | after | drop => exact ⟨whole, List.mem_cons_of_mem _ hwhole, hpiece⟩

/-- **A quoted region lies in one token.** -/
theorem exists_token_of_quotedRegion {line : String} {region : List Char}
    (h : QuotedRegion line region) : ∃ t ∈ tokenize line, region <:+: t.toList := by
  have hquote := h.quote_mem
  obtain ⟨front, inner, back, hline, hquoted, hinner, hregion⟩ := h
  have hmode : ¬(Mode.after front).quoted = true := by rwa [(Mode.switches_after front).1]
  have hpiece : region ∈ (pieces (.after front) (region ++ back)).1 ::
      (pieces (.after front) (region ++ back)).2 := by
    rw [pieces_region hmode hinner hregion]
    exact List.mem_cons_self
  obtain ⟨whole, hwhole, hwithin⟩ := exists_piece_around front (region ++ back) .plain hpiece
  have hne : whole ≠ [] := List.ne_nil_of_mem (hwithin.subset hquote)
  refine ⟨String.ofList whole, ?_, by rwa [String.toList_ofList]⟩
  rw [tokenize, hline, List.append_assoc]
  exact List.mem_map_of_mem (List.mem_filter.mpr ⟨hwhole, by simpa using hne⟩)

/-! ### Values and the tokens they are made of -/

/-- The values are made of these tokens: they have the same text but for blanks, and each token
stands in one of them as it is. -/
structure Carries (values : List String) (tokens : List Token) : Prop where
  /-- The text is the same. -/
  same_text : eraseBlanks (String.join values) = eraseBlanks (String.join tokens)
  /-- No token is torn apart. -/
  exists_holding : ∀ t ∈ tokens, ∃ v ∈ values, t.toList <:+: v.toList

namespace Carries

/-- A token stands in an expression as it is. -/
theorem within_expression {tokens : List Token} {t : Token} (h : t ∈ tokens) :
    t.toList <:+: (String.intercalate " " tokens).toList := by
  induction tokens with
  | nil => exact absurd h List.not_mem_nil
  | cons u rest ih =>
    cases rest with
    | nil =>
      obtain rfl := List.mem_singleton.mp h
      simp
    | cons v rest =>
      rw [String.intercalate_cons_cons, String.toList_append, String.toList_append]
      rcases List.mem_cons.mp h with rfl | h
      · exact ⟨[], _, by rw [List.nil_append, List.append_assoc]⟩
      · exact (ih h).trans (List.suffix_append _ _).isInfix

theorem expression (tokens : List Token) : Carries [String.intercalate " " tokens] tokens where
  same_text := by
    rw [String.join_cons, String.join_nil, String.append_empty, eraseBlanks_expression]
  exists_holding := fun t ht => ⟨_, List.mem_singleton_self _, within_expression ht⟩

theorem cons (t : Token) {values : List String} {tokens : List Token} (h : Carries values tokens) :
    Carries (t :: values) (t :: tokens) where
  same_text := by
    rw [String.join_cons, String.join_cons, eraseBlanks_append, eraseBlanks_append, h.same_text]
  exists_holding := by
    intro u hu
    rcases List.mem_cons.mp hu with rfl | hu
    · exact ⟨u, List.mem_cons_self, List.infix_rfl⟩
    · obtain ⟨v, hv, hwithin⟩ := h.exists_holding u hu
      exact ⟨v, List.mem_cons_of_mem t hv, hwithin⟩

end Carries

/-! ### Lines that pass their text through -/

/-- The keywords that begin such a line alone. -/
def textKeywords : List Keyword := [.ifThen, .whileLoop, .doLoop, .call, .assign, .comment]

/-- The words that such a line may begin with. -/
def textLeads : List (List Token) :=
  [Keyword.otherwise.word, Keyword.ifThen.word] :: textKeywords.map fun k => [k.word]

example : textLeads =
    [["else", "if"], ["if"], ["while"], ["do"], ["call"], ["set"], ["#"]] := by decide

theorem Simple.carries {s : Simple} (h : s.keyword ∈ textKeywords) :
    Carries (Tag.values [s.tag]) s.arguments := by
  cases s with
  | assign target value => exact (Carries.expression value).cons target
  | call action => exact .expression action
  | comment text => exact .expression text
  | declare | scan => simp [keyword, textKeywords] at h
  | output newline parts => cases newline <;> simp [keyword, textKeywords] at h

theorem Loop.carries {l : Loop} (h : l.keyword ∈ textKeywords) :
    Carries (Tag.values [.opening l.element l.attributes]) l.arguments := by
  cases l with
  | whileLoop condition => exact .expression condition
  | doLoop condition => exact .expression condition
  | forLoop head wellFormed => simp [keyword, textKeywords] at h

/-- **Values carry the text of their line.** What such a line writes is made of what follows the
words it begins with. A comment may be dropped, and then it writes nothing. -/
theorem Effect.carries {o : Options} {bs bs' : List OpenBlock} {line : Line} {tags : List Tag}
    (effect : Effect o bs line tags bs') {lead args : List Token} (hlead : lead ∈ textLeads)
    (htokens : line.tokens = lead ++ args)
    (hwrites : lead = [Keyword.comment.word] → tags ≠ []) : Carries (Tag.values tags) args := by
  rw [textLeads, List.mem_cons, List.mem_map] at hlead
  rcases hlead with rfl | ⟨k, hk, rfl⟩
  · obtain ⟨hword, hargs⟩ := List.cons.inj htokens
    have hkeyword := Keyword.word_injective hword
    cases effect with
    | elseIf chained bs condition =>
      obtain ⟨-, rfl⟩ := List.cons.inj hargs
      exact .expression condition
    | otherwise => exact nomatch hargs
    | simple s => exact absurd hkeyword s.keyword_ne.1
    | loop l => exact absurd hkeyword l.keyword_ne.1
    | comment | function | ifThen | close | unmatchedEnd => exact nomatch hkeyword
  · obtain ⟨hword, rfl⟩ := List.cons.inj htokens
    obtain rfl := Keyword.word_injective hword
    cases effect with
    | simple s => exact s.carries hk
    | comment text =>
      by_cases hkept : o.topLevelComments = true
      · rw [if_pos hkept]
        exact Simple.carries hk
      · exact absurd (if_neg hkept) (hwrites rfl)
    | ifThen condition => exact .expression condition
    | loop l => exact l.carries hk
    | function | otherwise | elseIf | close | unmatchedEnd =>
      simp [Line.keyword, textKeywords] at hk

/-- **Text is passed through.** Take a line that is accepted as one of these statements and, if it
is a comment, is written. With all blanks left out, the line is the words it begins with and then
the values that are written. And every quoted region of the line stands in one of these values,
blanks included. -/
theorem text_passed_through {line : String} {lead args : List Token} {d d' : Draft}
    (hlead : lead ∈ textLeads) (htokens : tokenize line = lead ++ args)
    (haccepted : (process (tokenize line)).apply d = (.ok (), d'))
    (hwritten : lead = [Keyword.comment.word] → d'.markup ≠ d.markup) :
    ∃ statement tags, tokenize line = statement.tokens ∧
      Effect d.options d.blocks statement tags d'.blocks ∧
      d'.markup = d.markup ++ Tag.texts tags ∧
      eraseBlanks line = (String.join lead).toList ++ eraseBlanks (String.join (Tag.values tags)) ∧
      ∀ region, QuotedRegion line region → ∃ v ∈ Tag.values tags, region <:+: v.toList := by
  obtain ⟨statement, tags, blocks, hstatement, effect, rfl⟩ :=
    apply_process_eq_ok_iff.mp haccepted
  have hwrites : lead = [Keyword.comment.word] → tags ≠ [] := by
    rintro hcomment rfl
    exact hwritten hcomment (by simp)
  have hcarries := effect.carries hlead (hstatement.symm.trans htokens) hwrites
  refine ⟨statement, tags, hstatement, effect, rfl, ?_, ?_⟩
  · have hwords : ∀ lead ∈ textLeads,
        eraseBlanks (String.join lead) = (String.join lead).toList := by decide
    rw [← eraseBlanks_tokenize, htokens, String.join_append, eraseBlanks_append, hwords lead hlead,
      hcarries.same_text]
  · intro region hregion
    obtain ⟨t, ht, hwithin⟩ := exists_token_of_quotedRegion hregion
    rw [htokens, List.mem_append] at ht
    rcases ht with ht | ht
    · have hwords : ∀ lead ∈ textLeads, ∀ t ∈ lead, '"' ∉ t.toList := by decide
      exact absurd (hwithin.subset hregion.quote_mem) (hwords lead hlead t ht)
    · obtain ⟨v, hv, hvalue⟩ := hcarries.exists_holding t ht
      exact ⟨v, hv, hwithin.trans hvalue⟩

/-- A chained conditional with a quoted region inside a group, and one that is never closed. -/
theorem text_passed_through_chained :
    let line := "else\tif f(\"x  y\" z)  \"open  q"
    let markup := "</then><else><if expression=\"f(\"x  y\"  z) \"open  q\"><then>"
    (process (tokenize line)).apply ⟨"", [.ifPendingElse 0], .strict⟩ =
        (.ok (), ⟨markup, [.ifPendingElse 1], .strict⟩) ∧
      ∃ tags, markup = Tag.texts tags ∧
        eraseBlanks line = "elseif".toList ++ eraseBlanks (String.join (Tag.values tags)) ∧
        (∃ v ∈ Tag.values tags, "\"x  y\"".toList <:+: v.toList) ∧
        ∃ v ∈ Tag.values tags, "\"open  q".toList <:+: v.toList := by
  intro line markup
  have htokens : tokenize line = ["else", "if"] ++ ["f(\"x  y\"", " z)", "\"open  q"] := by decide
  have hclosed : QuotedRegion line "\"x  y\"".toList :=
    ⟨"else\tif f(".toList, "x  y".toList, " z)  \"open  q".toList, by decide, by decide, by decide,
      .inl (by decide)⟩
  have hopen : QuotedRegion line "\"open  q".toList :=
    ⟨"else\tif f(\"x  y\" z)  ".toList, "open  q".toList, [], by decide, by decide, by decide,
      .inr (by decide)⟩
  have haccepted : (process (tokenize line)).apply ⟨"", [.ifPendingElse 0], .strict⟩ =
      (.ok (), ⟨markup, [.ifPendingElse 1], .strict⟩) := by
    rw [htokens]
    rfl
  obtain ⟨-, tags, -, -, hmarkup, htext, hregions⟩ :=
    text_passed_through (by decide) htokens haccepted (by decide)
  rw [String.empty_append] at hmarkup
  exact ⟨haccepted, tags, hmarkup, htext, hregions _ hclosed, hregions _ hopen⟩

end Flowscript
