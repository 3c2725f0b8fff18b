import Flowscript.Proofs.Line

/-!
# What a statement can do

`Effect` is the statement machine as a relation: with these blocks open, this line writes these tags
and leaves those blocks open. It has one constructor for each thing that can happen, and the rest of
the theory argues by cases on it instead of unfolding `process`.

## What is deliberately absent

The markup written so far is no part of `Effect`, because no statement looks at it. That this is so
is one half of `apply_process_eq_ok_iff`; the other half is that whatever the relation allows, the
program does.

Refusals are absent as well. They are all alike: `process_cases` says that a list of tokens either
spells a line that takes effect or is refused with the draft left as it was.

## Main definitions

* `OpenBlock.closingTags` — the tags that close a block.
* `Effect` — what a line does to the open blocks.
* `Draft.advance` — the draft behind an effect.

## Main results

* `Effect.apply_process` — an effect takes place.
* `process_cases` — nothing else does.
* `apply_process_eq_ok_iff` — the two together.
* `draft_eq_of_apply_process_eq_error` — a refused statement leaves no trace.
-/

namespace Flowscript

open Markup

/-! ### Closing a block -/

namespace OpenBlock

/-- The tags that close a conditional whose branches are closed, together with the `else` branches
it was chained through and their conditionals. -/
def closeChain : Nat → List Tag
  | 0 => [.closing "if"]
  | chained + 1 => .closing "if" :: .closing "else" :: closeChain chained

/-- The tags that close a block. -/
def closingTags : OpenBlock → List Tag
  | .function => [.closing "body", .closing "function"]
  | .ifPendingElse chained => .closing "then" :: .whole "else" [] :: closeChain chained
  | .ifResolved chained => .closing "else" :: closeChain chained
  | .whileLoop => [.closing "while"]
  | .doLoop => [.closing "do"]
  | .forLoop => [.closing "for"]

theorem texts_closeChain (chained : Nat) :
    Tag.texts (closeChain chained) =
      endTag "if" ++ String.join (List.replicate chained closeElse) := by
  induction chained with
  | zero => simp [closeChain]
  | succ n ih =>
    rw [closeChain, List.replicate_succ]
    simp [ih, closeElse, String.append_assoc]

@[simp] theorem texts_closingTags (b : OpenBlock) : Tag.texts b.closingTags = b.closing := by
  cases b <;>
    simp [closingTags, closing, texts_closeChain, closeElse, String.append_assoc]

end OpenBlock

/-! ### Tags and the markup of the statements -/

theorem texts_turnTags : Tag.texts turnTags = Statement.elseMarkup := by
  simp [turnTags, Statement.elseMarkup]

theorem texts_conditionTags (condition : Expression) :
    Tag.texts (conditionTags condition) = Statement.ifMarkup condition := by
  simp [conditionTags, Statement.ifMarkup]

theorem Signature.texts_parameterTags (pairs : List (Token × Token)) :
    Tag.texts (parameterTags pairs) = Statement.parameterMarkup pairs := by
  cases pairs with
  | nil => simp [parameterTags, Statement.parameterMarkup]
  | cons p pairs =>
    simp [parameterTags, Statement.parameterMarkup, Tag.texts, Function.comp_def,
      String.append_assoc]

theorem Signature.texts_tags (s : Signature) :
    Tag.texts s.tags = Statement.functionMarkup s.name s.result s.type s.parameters := by
  simp [Signature.tags, Statement.functionMarkup, texts_parameterTags,
    Signature.attributes, String.append_assoc]

/-! ### The relation -/

/-- Under the options `o` and with the blocks `bs` open, innermost first, the line writes the tags
and leaves other blocks open. -/
inductive Effect (o : Options) : List OpenBlock → Line → List Tag → List OpenBlock → Prop where
  /-- A simple statement inside a block; outside, only if allowed there, and then no comment. -/
  | simple {bs : List OpenBlock} (s : Simple)
      (h : bs ≠ [] ∨ o.topLevelStatements = true ∧ ¬s.IsComment) :
      Effect o bs (.simple s) [s.tag] bs
  /-- A comment outside every block is read, but written only if it is to be kept. -/
  | comment (text : Expression) :
      Effect o [] (.simple (.comment text))
        (if o.topLevelComments then [(Simple.comment text).tag] else []) []
  /-- A function opens outside every block. -/
  | function (s : Signature) : Effect o [] (.function s) s.tags [.function]
  /-- A conditional opens. -/
  | ifThen {bs : List OpenBlock} (condition : Expression)
      (h : bs ≠ [] ∨ o.topLevelStatements = true) :
      Effect o bs (.ifThen condition) (conditionTags condition) (.ifPendingElse 0 :: bs)
  /-- The innermost block turns to its other branch. -/
  | otherwise (chained : Nat) (bs : List OpenBlock) :
      Effect o (.ifPendingElse chained :: bs) .otherwise turnTags (.ifResolved chained :: bs)
  /-- The innermost block turns to its other branch, which is a conditional again. -/
  | elseIf (chained : Nat) (bs : List OpenBlock) (condition : Expression) :
      Effect o (.ifPendingElse chained :: bs) (.elseIf condition)
        (turnTags ++ conditionTags condition) (.ifPendingElse (chained + 1) :: bs)
  /-- A loop opens. -/
  | loop {bs : List OpenBlock} (l : Loop) (h : bs ≠ [] ∨ o.topLevelStatements = true) :
      Effect o bs (.loop l) [.opening l.element l.attributes] (l.block :: bs)
  /-- The innermost block closes. -/
  | close (b : OpenBlock) (bs : List OpenBlock) : Effect o (b :: bs) .close b.closingTags bs
  /-- An `end` that closes nothing is passed over, if that is tolerated. -/
  | unmatchedEnd (h : o.unmatchedEnd = true) : Effect o [] .close [] []

namespace Draft

/-- The draft behind an effect: the tags are written behind everything else. -/
def advance (d : Draft) (tags : List Tag) (blocks : List OpenBlock) : Draft :=
  ⟨d.markup ++ Tag.texts tags, blocks, d.options⟩

@[simp] theorem blocks_advance (d : Draft) (tags : List Tag) (blocks : List OpenBlock) :
    (d.advance tags blocks).blocks = blocks := rfl

@[simp] theorem options_advance (d : Draft) (tags : List Tag) (blocks : List OpenBlock) :
    (d.advance tags blocks).options = d.options := rfl

@[simp] theorem markup_advance (d : Draft) (tags : List Tag) (blocks : List OpenBlock) :
    (d.advance tags blocks).markup = d.markup ++ Tag.texts tags := rfl

end Draft

/-! ### An effect takes place -/

/-- The word may begin a statement with these blocks open. -/
def MayStand (keyword : Option Keyword) (d : Draft) : Prop :=
  d.blocks ≠ [] ∨ Statement.permittedAtTopLevel keyword = true ∨
    d.options.topLevelStatements = true

instance (keyword : Option Keyword) (d : Draft) : Decidable (MayStand keyword d) :=
  inferInstanceAs (Decidable (_ ∨ _ ∨ _))

/-- The place of a word is checked before the word is looked up. -/
theorem apply_process_cons (word : Token) (args : List Token) (d : Draft) :
    (process (word :: args)).apply d =
      if MayStand (Keyword.ofWord? word) d then
        match Keyword.ofWord? word with
        | none => (.error (.unknownCommand word), d)
        | some k => (Statement.ofKeyword k args).apply d
      else (.error (.outsideFunction word), d) := by
  have hcheck : (d.atTopLevel && !Statement.permittedAtTopLevel (Keyword.ofWord? word)
      && !d.options.topLevelStatements) = true ↔ ¬MayStand (Keyword.ofWord? word) d := by
    simp [MayStand, Draft.atTopLevel, and_assoc]
  rw [process, Step.apply_bind, Step.apply_get]
  by_cases h : MayStand (Keyword.ofWord? word) d
  · simp only [hcheck, h, not_true, if_false, if_true]
    cases Keyword.ofWord? word <;> rfl
  · simp only [hcheck, h, not_false_iff, if_true, if_false]
    rfl

/-- A keyword that may stand where it stands is carried out by its own statement. -/
theorem apply_process_word (k : Keyword) (args : List Token) (d : Draft)
    (h : MayStand (some k) d) :
    (process (k.word :: args)).apply d = (Statement.ofKeyword k args).apply d := by
  rw [apply_process_cons, Keyword.ofWord?_word, if_pos h]

/-- A statement that is accepted was carried out by the definition of its keyword. -/
theorem apply_ofKeyword_of_process {k : Keyword} {args : List Token} {d d' : Draft}
    (h : (process (k.word :: args)).apply d = (.ok (), d')) :
    (Statement.ofKeyword k args).apply d = (.ok (), d') := by
  rw [apply_process_cons, Keyword.ofWord?_word] at h
  by_cases hplace : MayStand (some k) d
  · rwa [if_pos hplace] at h
  · rw [if_neg hplace] at h
    exact nomatch h

/-- A simple statement writes its tag, wherever it stands; a comment only inside a block. -/
theorem Simple.apply_ofKeyword (s : Simple) (d : Draft) (h : d.blocks ≠ [] ∨ ¬s.IsComment) :
    (Statement.ofKeyword s.keyword s.arguments).apply d = (.ok (), d.advance [s.tag] d.blocks) := by
  cases s with
  | declare names type =>
    obtain ⟨names, hne⟩ := names
    have hcount : ¬names.length + 1 < 2 := by
      have := List.length_pos_iff.mpr hne
      omega
    simp [keyword, arguments, tag, Statement.ofKeyword, Statement.declare, Statement.requireCount,
      hcount, Draft.advance]
  | assign target value =>
    obtain ⟨value, hne⟩ := value
    obtain ⟨first, rest, rfl⟩ := List.exists_cons_of_ne_nil hne
    simp [keyword, arguments, tag, Statement.ofKeyword, Statement.assign, Draft.advance]
  | call action =>
    obtain ⟨action, hne⟩ := action
    simp [keyword, arguments, tag, Statement.ofKeyword, Statement.call, Statement.requireCount,
      hne, Draft.advance]
  | output newline parts =>
    obtain ⟨parts, hne⟩ := parts
    cases newline <;>
      simp [keyword, arguments, tag, Statement.ofKeyword, Statement.output,
        Statement.requireCount, hne, Draft.advance]
  | scan target =>
    simp [keyword, arguments, tag, Statement.ofKeyword, Statement.scan, Draft.advance]
  | comment text =>
    obtain ⟨text, hne⟩ := text
    have hinside : d.blocks ≠ [] := h.resolve_right fun hc => hc rfl
    simp [keyword, arguments, tag, Statement.ofKeyword, Statement.comment, Statement.requireCount,
      Draft.atTopLevel, hinside, hne, Draft.advance]

/-- A loop writes the tag that opens its element, and opens its block. -/
theorem Loop.apply_ofKeyword (l : Loop) (d : Draft) :
    (Statement.ofKeyword l.keyword l.arguments).apply d =
      (.ok (), d.advance [.opening l.element l.attributes] (l.block :: d.blocks)) := by
  cases l with
  | whileLoop condition =>
    obtain ⟨condition, hne⟩ := condition
    simp [keyword, arguments, element, attributes, block, Statement.ofKeyword,
      Statement.whileLoop, Statement.requireExpression, hne, Draft.advance]
  | doLoop condition =>
    obtain ⟨condition, hne⟩ := condition
    simp [keyword, arguments, element, attributes, block, Statement.ofKeyword,
      Statement.doLoop, Statement.requireExpression, hne, Draft.advance]
  | forLoop head hwf =>
    simp [keyword, arguments, element, attributes, block, Statement.ofKeyword,
      Statement.forLoop, hwf.ofTokens_tokens, Statement.ForHead.markup_eq, Draft.advance]

/-- **Effects take place.** Whatever the relation allows, the program does, and accepts it. -/
theorem Effect.apply_process {d : Draft} {line : Line} {tags : List Tag} {blocks : List OpenBlock}
    (h : Effect d.options d.blocks line tags blocks) :
    (process line.tokens).apply d = (.ok (), d.advance tags blocks) := by
  obtain ⟨m, bs, o⟩ := d
  simp only at h
  cases h with
  | simple s h =>
    rw [Line.tokens, Line.keyword, apply_process_word _ _ _ (h.imp_right fun h => .inr h.1)]
    exact s.apply_ofKeyword ⟨m, blocks, o⟩ (h.imp_right And.right)
  | comment text =>
    obtain ⟨text, hne⟩ := text
    rw [Line.tokens, Line.keyword, Simple.keyword, apply_process_word _ _ _ (.inr (.inl rfl))]
    cases hkeep : o.topLevelComments <;>
      simp [Line.arguments, Simple.arguments, Simple.tag, Statement.ofKeyword, Statement.comment,
        Statement.requireCount, Draft.atTopLevel, hkeep, hne, Draft.advance]
  | function s =>
    have hp : Statement.parameterPairs? ("(" ++ s.inner ++ ")") = some s.parameters :=
      Statement.parameterPairs?_eq_some_iff.mpr ⟨s.inner, rfl, s.reads⟩
    rw [Line.tokens, Line.keyword, apply_process_word _ _ _ (.inr (.inl rfl))]
    simp [Line.arguments, Signature.arguments, Statement.ofKeyword, Statement.function,
      Draft.atTopLevel, hp, Draft.advance, Signature.texts_tags]
  | ifThen condition h =>
    obtain ⟨condition, hne⟩ := condition
    rw [Line.tokens, Line.keyword, apply_process_word _ _ _ (h.imp_right .inr)]
    simp [Line.arguments, Statement.ofKeyword, Statement.ifThen, Statement.requireExpression, hne,
      Draft.advance, texts_conditionTags]
  | otherwise chained bs =>
    rw [Line.tokens, Line.keyword, apply_process_word _ _ _ (.inl (List.cons_ne_nil _ _))]
    simp [Line.arguments, Statement.ofKeyword, Statement.otherwise, Draft.advance, texts_turnTags]
  | elseIf chained bs condition =>
    obtain ⟨condition, hne⟩ := condition
    rw [Line.tokens, Line.keyword, apply_process_word _ _ _ (.inl (List.cons_ne_nil _ _))]
    simp [Line.arguments, Statement.ofKeyword, Statement.otherwise, Statement.requireExpression,
      hne, Draft.advance, texts_turnTags, texts_conditionTags, String.append_assoc]
  | loop l h =>
    rw [Line.tokens, Line.keyword, apply_process_word _ _ _ (h.imp_right .inr)]
    exact l.apply_ofKeyword ⟨m, bs, o⟩
  | close b bs =>
    rw [Line.tokens, Line.keyword, apply_process_word _ _ _ (.inl (List.cons_ne_nil _ _))]
    simp [Line.arguments, Statement.ofKeyword, Statement.close, Draft.advance]
  | unmatchedEnd h =>
    rw [Line.tokens, Line.keyword, apply_process_word _ _ _ (.inr (.inl rfl))]
    simp [Line.arguments, Statement.ofKeyword, Statement.close, Draft.advance, h]

/-! ### Nothing else takes place -/

namespace Statement

/-- A step is refused, and leaves the draft as it was. -/
def Refused (s : Step Unit) (d : Draft) : Prop := ∃ e, s.apply d = (.error e, d)

/-- The tokens spell a line that takes effect on the draft. -/
def Accepted (tokens : List Token) (d : Draft) : Prop :=
  ∃ line tags blocks, tokens = line.tokens ∧ Effect d.options d.blocks line tags blocks

theorem refused_refuseCount (k : Keyword) (expected : Arity) (args : List Token) (d : Draft) :
    Refused (refuseCount k expected args) d :=
  ⟨_, rfl⟩

/-- A check on the number of arguments refuses, or lets the statement go on. -/
theorem refused_of_length_lt {k : Keyword} {n : Nat} {args : List Token} (h : args.length < n)
    (rest : Step Unit) (d : Draft) : Refused (requireCount k n args >>= fun _ => rest) d :=
  ⟨.argumentCount k.word (.atLeast n) args.length, by simp [requireCount, refuseCount, h]⟩

theorem refused_of_eq_nil (k : Keyword) (rest : Step Unit) (d : Draft) :
    Refused (requireExpression k [] >>= fun _ => rest) d :=
  ⟨.missingExpression k.word, by simp [requireExpression]⟩

section Cases

variable (args : List Token) (d : Draft)

theorem function_cases :
    Refused (function args) d ∨ Accepted (Keyword.function.word :: args) d := by
  unfold function
  split
  · next name parameters result type =>
    by_cases htop : d.blocks = []
    · cases hp : parameterPairs? parameters with
      | none => exact .inl ⟨.malformedParameters name, by simp [Draft.atTopLevel, htop]⟩
      | some pairs =>
        obtain ⟨inner, rfl, hreads⟩ := parameterPairs?_eq_some_iff.mp hp
        have heffect := Effect.function (o := d.options) ⟨name, inner, pairs, result, type, hreads⟩
        exact .inr ⟨_, _, _, rfl, htop ▸ heffect⟩
    · exact .inl ⟨.nestedFunction name, by simp [Draft.atTopLevel, htop]⟩
  · exact .inl (refused_refuseCount ..)

theorem otherwise_cases :
    Refused (otherwise args) d ∨ Accepted (Keyword.otherwise.word :: args) d := by
  obtain ⟨m, blocks, o⟩ := d
  match blocks with
  | .ifPendingElse chained :: bs =>
    match args with
    | [] => exact .inr ⟨.otherwise, _, _, rfl, .otherwise chained bs⟩
    | first :: condition =>
      by_cases hfirst : first = Keyword.ifThen.word
      · by_cases hne : condition = []
        · refine .inl ⟨.missingExpression Keyword.ifThen.word, ?_⟩
          simp [otherwise, hfirst, requireExpression, hne]
        · refine .inr ⟨.elseIf ⟨condition, hne⟩, _, _, ?_, .elseIf chained bs _⟩
          rw [hfirst]
          rfl
      · exact .inl ⟨.elseArguments (condition.length + 1), by simp [otherwise, hfirst]⟩
  | [] | .function :: _ | .ifResolved _ :: _ | .whileLoop :: _ | .doLoop :: _ | .forLoop :: _ =>
    exact .inl ⟨.elseWithoutIf, by simp [otherwise]⟩

theorem close_cases : Refused (close args) d ∨ Accepted (Keyword.close.word :: args) d := by
  obtain ⟨m, blocks, o⟩ := d
  match args, blocks with
  | [], b :: bs => exact .inr ⟨.close, _, _, rfl, .close b bs⟩
  | [], [] =>
    by_cases h : o.unmatchedEnd = true
    · exact .inr ⟨.close, _, _, rfl, .unmatchedEnd h⟩
    · exact .inl ⟨.unexpectedEnd, by simp [close, h]⟩
  | a :: args, _ =>
    exact .inl ⟨.argumentCount Keyword.close.word (.exactly 0) (args.length + 1), by
      simp [close, refuseCount]⟩

theorem comment_cases : Refused (comment args) d ∨ Accepted (Keyword.comment.word :: args) d := by
  by_cases hne : args = []
  · exact .inl (refused_of_length_lt (by simp [hne]) _ d)
  · obtain ⟨m, blocks, o⟩ := d
    match blocks with
    | [] => exact .inr ⟨.simple (.comment ⟨args, hne⟩), _, _, rfl, .comment _⟩
    | b :: bs =>
      have hinside : b :: bs ≠ [] := List.cons_ne_nil b bs
      exact .inr ⟨.simple (.comment ⟨args, hne⟩), _, _, rfl, .simple _ (.inl hinside)⟩

/-! The other statements may stand only inside a block, or outside if the options say so. -/

variable {d} (hd : d.blocks ≠ [] ∨ d.options.topLevelStatements = true)

include hd

theorem accepted_simple (s : Simple) (hs : ¬s.IsComment) :
    Accepted (s.keyword.word :: s.arguments) d :=
  ⟨.simple s, _, _, rfl, .simple s (hd.imp_right fun h => ⟨h, hs⟩)⟩

theorem accepted_loop (l : Loop) : Accepted (l.keyword.word :: l.arguments) d :=
  ⟨.loop l, _, _, rfl, .loop l hd⟩

theorem ifThen_cases : Refused (ifThen args) d ∨ Accepted (Keyword.ifThen.word :: args) d := by
  by_cases hne : args = []
  · subst hne
    exact .inl (refused_of_eq_nil ..)
  · exact .inr ⟨.ifThen ⟨args, hne⟩, _, _, rfl, .ifThen _ hd⟩

theorem whileLoop_cases :
    Refused (whileLoop args) d ∨ Accepted (Keyword.whileLoop.word :: args) d := by
  by_cases hne : args = []
  · subst hne
    exact .inl (refused_of_eq_nil ..)
  · exact .inr (accepted_loop hd (.whileLoop ⟨args, hne⟩))

theorem doLoop_cases : Refused (doLoop args) d ∨ Accepted (Keyword.doLoop.word :: args) d := by
  by_cases hne : args = []
  · subst hne
    exact .inl (refused_of_eq_nil ..)
  · exact .inr (accepted_loop hd (.doLoop ⟨args, hne⟩))

theorem forLoop_cases : Refused (forLoop args) d ∨ Accepted (Keyword.forLoop.word :: args) d := by
  cases hhead : ForHead.ofTokens args with
  | error e => exact .inl ⟨e, by simp [forLoop, hhead]⟩
  | ok head =>
    obtain ⟨hwf, rfl⟩ := ForHead.ofTokens_eq_ok_iff.mp hhead
    exact .inr (accepted_loop hd (.forLoop head hwf))

theorem declare_cases : Refused (declare args) d ∨ Accepted (Keyword.declare.word :: args) d := by
  by_cases hcount : args.length < 2
  · exact .inl (refused_of_length_lt hcount _ d)
  · rcases List.eq_nil_or_concat args with rfl | ⟨names, type, rfl⟩
    · simp at hcount
    · have hne : names ≠ [] := by
        rintro rfl
        simp at hcount
      exact .inr (List.concat_eq_append ▸
        accepted_simple hd (.declare ⟨names, hne⟩ type) Keyword.noConfusion)

theorem assign_cases : Refused (assign args) d ∨ Accepted (Keyword.assign.word :: args) d := by
  match args with
  | target :: token :: rest =>
    have hne : token :: rest ≠ [] := List.cons_ne_nil token rest
    exact .inr (accepted_simple hd (.assign target ⟨token :: rest, hne⟩) Keyword.noConfusion)
  | [] | [_] => exact .inl (refused_refuseCount ..)

theorem call_cases : Refused (call args) d ∨ Accepted (Keyword.call.word :: args) d := by
  by_cases hne : args = []
  · exact .inl (refused_of_length_lt (by simp [hne]) _ d)
  · exact .inr (accepted_simple hd (.call ⟨args, hne⟩) Keyword.noConfusion)

theorem output_cases (newline : Bool) (k : Keyword)
    (hk : k = if newline then .println else .print) :
    Refused (output k newline args) d ∨ Accepted (k.word :: args) d := by
  subst hk
  by_cases hne : args = []
  · exact .inl (refused_of_length_lt (by simp [hne]) _ d)
  · refine .inr (accepted_simple hd (.output newline ⟨args, hne⟩) ?_)
    cases newline <;> exact Keyword.noConfusion

theorem scan_cases : Refused (scan args) d ∨ Accepted (Keyword.scan.word :: args) d := by
  match args with
  | [target] => exact .inr (accepted_simple hd (.scan target) Keyword.noConfusion)
  | [] | _ :: _ :: _ => exact .inl (refused_refuseCount ..)

end Cases

/-- A keyword that may stand where it stands is refused or takes effect. -/
theorem ofKeyword_cases (k : Keyword) (args : List Token) {d : Draft}
    (hd : MayStand (some k) d) :
    Refused (ofKeyword k args) d ∨ Accepted (k.word :: args) d := by
  -- the three words that are let through everywhere look at the blocks themselves
  have hd' (hk : permittedAtTopLevel (some k) = false) :
      d.blocks ≠ [] ∨ d.options.topLevelStatements = true :=
    hd.imp_right fun h => h.resolve_left (by simp [hk])
  cases k with
  | function => exact function_cases args d
  | ifThen => exact ifThen_cases args (hd' rfl)
  | otherwise => exact otherwise_cases args d
  | whileLoop => exact whileLoop_cases args (hd' rfl)
  | doLoop => exact doLoop_cases args (hd' rfl)
  | forLoop => exact forLoop_cases args (hd' rfl)
  | close => exact close_cases args d
  | declare => exact declare_cases args (hd' rfl)
  | assign => exact assign_cases args (hd' rfl)
  | call => exact call_cases args (hd' rfl)
  | print => exact output_cases args (hd' rfl) false _ rfl
  | println => exact output_cases args (hd' rfl) true _ rfl
  | scan => exact scan_cases args (hd' rfl)
  | comment => exact comment_cases args d

end Statement

/-- **Nothing else takes place.** Tokens are refused, with the draft left as it was, or they spell a
line that takes effect. -/
theorem process_cases (tokens : List Token) (d : Draft) :
    Statement.Refused (process tokens) d ∨ Statement.Accepted tokens d := by
  match tokens with
  | [] => exact .inl ⟨.emptyStatement, rfl⟩
  | word :: args =>
    rw [Statement.Refused, apply_process_cons]
    by_cases hplace : MayStand (Keyword.ofWord? word) d
    · rw [if_pos hplace]
      cases hk : Keyword.ofWord? word with
      | none => exact .inl ⟨_, rfl⟩
      | some k =>
        obtain rfl := Keyword.word_of_ofWord?_eq_some hk
        exact Statement.ofKeyword_cases k args (hk ▸ hplace)
    · exact .inl ⟨.outsideFunction word, if_neg hplace⟩

/-- **What `process` accepts.** A statement is accepted exactly if its tokens spell a line that
takes effect, and the effect is all it does. -/
theorem apply_process_eq_ok_iff {tokens : List Token} {d d' : Draft} :
    (process tokens).apply d = (.ok (), d') ↔
      ∃ line tags blocks, tokens = line.tokens ∧ Effect d.options d.blocks line tags blocks ∧
        d' = d.advance tags blocks := by
  constructor
  · intro h
    rcases process_cases tokens d with ⟨e, he⟩ | ⟨line, tags, blocks, rfl, heffect⟩
    · rw [he] at h
      simp at h
    · rw [heffect.apply_process] at h
      exact ⟨line, tags, blocks, rfl, heffect, (Prod.mk.inj h).2.symm⟩
  · rintro ⟨line, tags, blocks, rfl, heffect, rfl⟩
    exact heffect.apply_process

/-- A refused statement leaves no trace. -/
theorem draft_eq_of_apply_process_eq_error {tokens : List Token} {d d' : Draft}
    {e : StatementError} (h : (process tokens).apply d = (.error e, d')) : d' = d := by
  rcases process_cases tokens d with ⟨e', he⟩ | ⟨line, tags, blocks, rfl, heffect⟩
  · rw [he] at h
    exact (Prod.mk.inj h).2.symm
  · rw [heffect.apply_process] at h
    simp at h

end Flowscript
