import Flowscript.Proofs.Effect

/-!
# Attribute values and the tokens they come from

The values that a line writes are its arguments, put together: joined by spaces, listed with commas,
concatenated with their quotes escaped, or cut out of a parameter list. Whether a value holds a
double quote, or anything else that could be taken for markup, is therefore a question about tokens.

## Properties that see only parts

`PartWise P` collects what a property of texts needs to be carried from tokens to values and back: a
text has it exactly if the parts between separators have it. The two properties of interest are of
this kind, so the walk over the statements is made once (`Effect.forall_values_iff`), for all of
them.

The expression of an output statement is escaped, and the property its tokens must have is another
one in general; it is a second parameter.

## Main definitions

* `PartWise` — properties of texts that are decided part by part.
* `ArgumentsHave` — a property of the arguments of a statement.
* `Dropped` — a comment that is read, but not written.

## Main results

* `PartWise.forall_tokenize_iff` — tokens have the property if the text they are cut from has it.
* `Effect.forall_values_iff` — the values of an effect have the property if the tokens have it.
-/

namespace Flowscript

/-- The characters at which a text may be cut without a trace. -/
def isSeparator (c : Char) : Bool := isBlank c || c = ',' || c = '(' || c = ')'

/-- A property of texts that is decided on the parts between separators. A double quote belongs to
the part in front of it. -/
structure PartWise (P : List Char → Prop) : Prop where
  /-- Names have the property. -/
  name {cs : List Char} (h : cs.all (fun c => c.isAlphanum || c = '_') = true) : P cs
  /-- Separators have no part in it. -/
  separator (xs ys : List Char) {c : Char} (h : isSeparator c = true) :
    P (xs ++ c :: ys) ↔ P xs ∧ P ys
  /-- Behind a double quote it is decided anew. -/
  quote (xs ys : List Char) : P (xs ++ '"' :: ys) ↔ P (xs ++ ['"']) ∧ P ys

namespace PartWise

variable {P : List Char → Prop} (hP : PartWise P)

include hP

theorem nil : P [] := hP.name (by simp)

/-! ### Texts that are put together -/

/-- A text between parts that has no part in the property. -/
theorem forall_intercalate_iff {sep : String}
    (hsep : ∀ xs ys, P (xs ++ sep.toList ++ ys) ↔ P xs ∧ P ys) (tokens : List Token) :
    P (String.intercalate sep tokens).toList ↔ ∀ t ∈ tokens, P t.toList := by
  induction tokens with
  | nil => simpa using hP.nil
  | cons t rest ih =>
    cases rest with
    | nil => simp
    | cons u rest =>
      rw [String.intercalate_cons_cons, String.toList_append, String.toList_append, hsep, ih,
        List.forall_mem_cons (l := u :: rest)]

theorem expression_iff (tokens : List Token) :
    P (String.intercalate " " tokens).toList ↔ ∀ t ∈ tokens, P t.toList := by
  refine hP.forall_intercalate_iff (fun xs ys => ?_) tokens
  have hspace : xs ++ " ".toList ++ ys = xs ++ ' ' :: ys := by simp
  rw [hspace, hP.separator xs ys rfl]

theorem listing_iff (tokens : List Token) :
    P (String.intercalate ", " tokens).toList ↔ ∀ t ∈ tokens, P t.toList := by
  refine hP.forall_intercalate_iff (fun xs ys => ?_) tokens
  have hcomma : xs ++ ", ".toList ++ ys = xs ++ ',' :: ([] ++ ' ' :: ys) := by simp
  rw [hcomma, hP.separator xs _ rfl, hP.separator [] ys rfl]
  simp [hP.nil]

theorem group_iff (inner : String) : P ("(" ++ inner ++ ")").toList ↔ P inner.toList := by
  have hgroup : ("(" ++ inner ++ ")").toList = [] ++ '(' :: (inner.toList ++ [')']) := by simp
  rw [hgroup, hP.separator [] _ rfl, hP.separator _ [] rfl]
  simp [hP.nil]

/-! ### Texts that are cut -/

/-- A character that ends its token is a double quote or a separator. -/
theorem after_iff {m : Mode} {c : Char} (h : (m.read c).2 = .after) (xs ys : List Char) :
    P (xs ++ c :: ys) ↔ P (xs ++ [c]) ∧ P ys := by
  have hc : c = '"' ∨ c = ')' := by
    unfold Mode.read at h
    grind
  rcases hc with rfl | rfl
  · exact hP.quote xs ys
  · rw [hP.separator xs ys rfl, hP.separator xs [] rfl]
    simp [hP.nil]

theorem drop_iff {m : Mode} {c : Char} (h : (m.read c).2 = .drop) (xs ys : List Char) :
    P (xs ++ c :: ys) ↔ P xs ∧ P ys := by
  have hc : isBlank c = true := by
    unfold Mode.read at h
    grind
  exact hP.separator xs ys (by simp [isSeparator, hc])

/-- The text in front of the cut, `xs`, belongs to the piece the pass stands in. -/
theorem pieces_iff (m : Mode) (cs xs : List Char) :
    P (xs ++ cs) ↔ P (xs ++ (pieces m cs).1) ∧ ∀ piece ∈ (pieces m cs).2, P piece := by
  induction cs generalizing m xs with
  | nil => simp [pieces]
  | cons c cs ih =>
    rw [pieces]
    cases hcut : (m.read c).2 with
    | none => simpa [hcut] using ih (m.read c).1 (xs ++ [c])
    | after =>
      rw [hP.after_iff hcut, ← List.nil_append cs, ih (m.read c).1 []]
      simp
    | drop =>
      rw [hP.drop_iff hcut, ← List.nil_append cs, ih (m.read c).1 []]
      simp

/-- The tokens of a line have the property exactly if the line has it. -/
theorem forall_tokenize_iff (line : String) :
    (∀ t ∈ tokenize line, P t.toList) ↔ P line.toList := by
  have hpieces := hP.pieces_iff .plain line.toList []
  rw [List.nil_append, List.nil_append] at hpieces
  rw [hpieces]
  simp only [tokenize, tokenChars, List.forall_mem_map, String.toList_ofList, List.mem_filter,
    decide_eq_true_eq, ← List.forall_mem_cons]
  -- the pieces left out are empty
  constructor
  · intro h piece hmem
    by_cases hne : piece = []
    · exact hne ▸ hP.nil
    · exact h piece ⟨hmem, hne⟩
  · exact fun h piece hmem => h piece hmem.1

end PartWise

/-! ### Lines and their values -/

/-- The words of the statements whose arguments are escaped. -/
def isOutputWord (word : Token) : Bool :=
  word = Keyword.print.word || word = Keyword.println.word

/-- The arguments of a statement have the property `P`; those of an output statement have `Q`. -/
def ArgumentsHave (P Q : List Char → Prop) : List Token → Prop
  | [] => True
  | word :: args => ∀ a ∈ args, if isOutputWord word then Q a.toList else P a.toList

/-- A comment outside every block that is not to be kept. -/
def Dropped (o : Options) (bs : List OpenBlock) (tokens : List Token) : Prop :=
  bs = [] ∧ o.topLevelComments = false ∧ tokens.head? = some Keyword.comment.word

/-- Only comments are dropped. -/
theorem not_dropped {o : Options} {bs : List OpenBlock} {line : Line}
    (h : bs ≠ [] ∨ line.keyword ≠ .comment) : ¬Dropped o bs line.tokens := by
  rintro ⟨hbs, -, hword⟩
  rw [Line.tokens, List.head?_cons, Option.some.injEq] at hword
  exact h.elim (absurd hbs) (absurd (Keyword.word_injective hword))

/-- What closes a block has no attributes. -/
theorem OpenBlock.values_closingTags (b : OpenBlock) : Tag.values b.closingTags = [] := by
  have hchain (chained : Nat) : Tag.values (closeChain chained) = [] := by
    induction chained with
    | zero => rfl
    | succ chained ih => simp [closeChain, Tag.attributes, ih]
  cases b <;> simp [closingTags, Tag.attributes, hchain]

section Values

variable {P Q : List Char → Prop}

/-- For all statements but those of output, one property is enough. -/
theorem argumentsHave_iff {word : Token} (h : isOutputWord word = false) (args : List Token) :
    ArgumentsHave P Q (word :: args) ↔ ∀ a ∈ args, P a.toList := by
  simp [ArgumentsHave, h]

variable (hP : PartWise P)
  (hQ : ∀ tokens, P (outputText tokens).toList ↔ ∀ t ∈ tokens, Q t.toList)

include hP hQ in
theorem Simple.forall_values_iff (s : Simple) :
    (∀ v ∈ Tag.values [s.tag], P v.toList) ↔ ArgumentsHave P Q (Line.simple s).tokens := by
  cases s with
  | declare names type =>
    rw [Line.tokens, argumentsHave_iff rfl]
    simp [tag, Tag.attributes, Line.arguments, arguments, hP.listing_iff, hP.name, hP.nil, or_imp,
      forall_and, -String.toList_intercalate]
  | assign target value =>
    rw [Line.tokens, argumentsHave_iff rfl]
    simp [tag, Tag.attributes, Line.arguments, arguments, hP.expression_iff,
      -String.toList_intercalate]
  | call action =>
    rw [Line.tokens, argumentsHave_iff rfl]
    simp [tag, Tag.attributes, Line.arguments, arguments, hP.expression_iff,
      -String.toList_intercalate]
  | output newline parts =>
    have hword : isOutputWord (Line.simple (.output newline parts)).keyword.word = true := by
      cases newline <;> rfl
    rw [Line.tokens, ArgumentsHave]
    cases newline <;>
      simp [tag, Tag.attributes, Line.arguments, arguments, hQ, hword, hP.name]
  | scan target =>
    rw [Line.tokens, argumentsHave_iff rfl]
    simp [tag, Tag.attributes, Line.arguments, arguments]
  | comment text =>
    rw [Line.tokens, argumentsHave_iff rfl]
    simp [tag, Tag.attributes, Line.arguments, arguments, hP.expression_iff,
      -String.toList_intercalate]

include hP

theorem Loop.forall_values_iff (l : Loop) :
    (∀ v ∈ Tag.values [.opening l.element l.attributes], P v.toList) ↔
      ArgumentsHave P Q (Line.loop l).tokens := by
  cases l with
  | whileLoop condition =>
    rw [Line.tokens, argumentsHave_iff rfl]
    simp [attributes, Tag.attributes, Line.arguments, arguments, hP.expression_iff,
      -String.toList_intercalate]
  | doLoop condition =>
    rw [Line.tokens, argumentsHave_iff rfl]
    simp [attributes, Tag.attributes, Line.arguments, arguments, hP.expression_iff,
      -String.toList_intercalate]
  | forLoop head hwf =>
    rw [Line.tokens, argumentsHave_iff rfl]
    cases hb : head.backward <;>
      simp [attributes, Statement.ForHead.attributes, Tag.attributes, Line.arguments, arguments,
        Statement.ForHead.tokens, hb,
        hP.expression_iff, hP.name, or_imp, forall_and, -String.toList_intercalate]

theorem conditionTags_forall_values_iff (condition : Expression) :
    (∀ v ∈ Tag.values (conditionTags condition), P v.toList) ↔
      ∀ t ∈ condition.val, P t.toList := by
  simp [conditionTags, Tag.attributes, hP.expression_iff, -String.toList_intercalate]

theorem Signature.parameterTags_forall_values_iff (pairs : List (Token × Token)) :
    (∀ v ∈ Tag.values (parameterTags pairs), P v.toList) ↔
      ∀ t ∈ pairs.flatMap fun p => [p.1, p.2], P t.toList := by
  have hparameters : Tag.values (parameterTags pairs) =
      pairs.flatMap fun p => [p.1, p.2, "False"] := by
    cases pairs with
    | nil => rfl
    | cons p pairs => simp [parameterTags, Tag.values, Tag.attributes, List.flatMap_map]
  rw [hparameters, List.forall_mem_flatMap, List.forall_mem_flatMap]
  simp [hP.name]

theorem Signature.forall_values_iff (s : Signature) :
    (∀ v ∈ Tag.values s.tags, P v.toList) ↔ ArgumentsHave P Q (Line.function s).tokens := by
  -- the word for "no result" and the empty value written for it are both names
  have hresult : P (if s.result = Statement.noResult then "" else s.result).toList ↔
      P s.result.toList := by
    by_cases h : s.result = Statement.noResult
    · rw [if_pos h, h]
      exact iff_of_true hP.nil (hP.name (by decide))
    · rw [if_neg h]
  have hparameters : (∀ v ∈ Tag.values (parameterTags s.parameters), P v.toList) ↔
      P ("(" ++ s.inner ++ ")").toList := by
    rw [parameterTags_forall_values_iff hP, ← s.reads, hP.forall_tokenize_iff, hP.group_iff]
  have hsplit : Tag.values s.tags = [s.name, s.type,
      if s.result = Statement.noResult then "" else s.result] ++
        Tag.values (parameterTags s.parameters) := by
    simp [tags, attributes, Tag.attributes]
  rw [Line.tokens, argumentsHave_iff rfl, hsplit, List.forall_mem_append, hparameters]
  simp only [Line.arguments, arguments, List.forall_mem_cons, hresult]
  tauto

include hQ

/-- **Values and tokens.** The values that a line writes have the property exactly if its arguments
have it, provided that the line writes anything at all. -/
theorem Effect.forall_values_iff {o : Options} {bs bs' : List OpenBlock} {line : Line}
    {tags : List Tag} (h : Effect o bs line tags bs') :
    (∀ v ∈ Tag.values tags, P v.toList) ↔
      (¬Dropped o bs line.tokens → ArgumentsHave P Q line.tokens) := by
  cases h with
  | simple s h =>
    rw [s.forall_values_iff hP hQ, forall_prop_of_true (not_dropped (h.imp_right And.right))]
  | comment text =>
    by_cases hkeep : o.topLevelComments = true
    · have hwritten : ¬Dropped o [] (Line.simple (.comment text)).tokens := by
        simp [Dropped, hkeep]
      rw [if_pos hkeep, (Simple.comment text).forall_values_iff hP hQ, forall_prop_of_true hwritten]
    · have hdropped : Dropped o [] (Line.simple (.comment text)).tokens :=
        ⟨rfl, by simpa using hkeep, rfl⟩
      simp [hkeep, hdropped]
  | function s =>
    rw [s.forall_values_iff hP, forall_prop_of_true (not_dropped (.inr Keyword.noConfusion))]
  | ifThen condition h =>
    rw [conditionTags_forall_values_iff hP,
      forall_prop_of_true (not_dropped (.inr Keyword.noConfusion)), Line.tokens,
      argumentsHave_iff rfl, Line.arguments]
  | otherwise chained bs =>
    simp [turnTags, Tag.attributes, Line.tokens, Line.arguments, ArgumentsHave]
  | elseIf chained bs condition =>
    rw [Tag.values_append, List.forall_mem_append, conditionTags_forall_values_iff hP,
      forall_prop_of_true (not_dropped (.inr Keyword.noConfusion)), Line.tokens,
      argumentsHave_iff rfl, Line.arguments, List.forall_mem_cons]
    have hif : P Keyword.ifThen.word.toList := hP.name (by decide)
    simp [turnTags, Tag.attributes, hif]
  | loop l h =>
    have hloop : (Line.loop l).keyword ≠ .comment := by cases l <;> exact Keyword.noConfusion
    rw [l.forall_values_iff hP, forall_prop_of_true (not_dropped (.inr hloop))]
  | close b bs => simp [b.values_closingTags, Line.tokens, Line.arguments, ArgumentsHave]
  | unmatchedEnd h => simp [Line.tokens, Line.arguments, ArgumentsHave]

end Values

end Flowscript
