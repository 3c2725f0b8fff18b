import Flowscript.Proofs.Head
import Flowscript.Proofs.Tag

/-!
# Well-formed statement lines

A `Line` is a statement that is right in itself: its word is a keyword, and its arguments are ones
that the keyword takes. Whether it may stand where it stands is another matter, which the open
blocks settle (`Flowscript.Proofs.Effect`).

## Well-formedness is in the types

An expression comes with a proof that it is not empty, the head of a counting loop with the
conditions under which it is read back, a signature with the reading of its parameter list. A line
therefore has no side conditions: every `Line` has a spelling, and every spelling is accepted
wherever the blocks allow it.

## Main definitions

* `Expression`, `Simple`, `Loop`, `Signature`, `Line` — lines and their parts.
* `Line.tokens` — how a line is spelled.
* `Simple.tag`, `Loop.attributes`, `Signature.tags`, `conditionTags`, `turnTags` — what lines write.

## Main results

* `Markup.expression_eq`, `Markup.quotedExpression_eq` — expressions are written as they look.
-/

namespace Flowscript

/-- The tokens of an expression, of which there is at least one. -/
abbrev Expression := { tokens : List Token // tokens ≠ [] }

/-! ### Expressions -/

/-- What is written for the parts of an output. The operator of the target notation stands between
them, and an entity between the pieces that their double quotes leave. -/
def outputText (parts : List Token) : String :=
  String.ofList
    ("&quot;".toList.intercalate ((String.intercalate " &amp; " parts).toList.splitOn '"'))

namespace Markup

/-- Writing an entity for each quote puts entities between the pieces. -/
theorem flatMap_quote_eq (cs : List Char) :
    cs.flatMap (fun c => if c = '"' then "&quot;".toList else [c]) =
      "&quot;".toList.intercalate (cs.splitOn '"') := by
  induction cs with
  | nil => rfl
  | cons c cs ih =>
    obtain ⟨piece, pieces, hpieces⟩ := List.exists_cons_of_ne_nil (List.splitOn_ne_nil '"' cs)
    rw [List.flatMap_cons, ih, hpieces]
    by_cases hc : c = '"'
    · have hcut : (c :: cs).splitOn '"' = [] :: piece :: pieces := by
        rw [← hpieces, List.splitOn_cons_eq_if_modifyHead, if_pos (by simpa using hc)]
      rw [hcut, if_pos hc, List.intercalate_cons_cons, List.nil_append]
    · have hcut : (c :: cs).splitOn '"' = (c :: piece) :: pieces := by
        rw [List.splitOn_cons_eq_if_modifyHead, if_neg (by simpa using hc), hpieces,
          List.modifyHead_cons]
      rw [hcut, if_neg hc]
      cases pieces <;> simp

@[simp] theorem expression_eq (tokens : List Token) :
    expression tokens = String.intercalate " " tokens := rfl

@[simp] theorem quotedExpression_eq (parts : List Token) :
    quotedExpression parts = outputText parts := by
  rw [quotedExpression, escapeQuotes, flatMap_quote_eq, outputText]

end Markup

/-! ### Simple statements -/

/-- A statement that opens no block. -/
inductive Simple where
  /-- Declares variables of one type. -/
  | declare (names : Expression) (type : Token)
  /-- Assigns to a variable. -/
  | assign (target : Token) (value : Expression)
  /-- Calls a function for its effect. -/
  | call (action : Expression)
  /-- Writes, and ends the line if `newline`. -/
  | output (newline : Bool) (parts : Expression)
  /-- Reads a variable. -/
  | scan (target : Token)
  /-- Says something to the reader. -/
  | comment (text : Expression)
deriving DecidableEq, Repr

namespace Simple

/-- The word a simple statement begins with. -/
def keyword : Simple → Keyword
  | .declare .. => .declare
  | .assign .. => .assign
  | .call _ => .call
  | .output newline _ => if newline then .println else .print
  | .scan _ => .scan
  | .comment _ => .comment

/-- What follows the word. -/
def arguments : Simple → List Token
  | .declare names type => names ++ [type]
  | .assign target value => target :: value
  | .call action => action
  | .output _ parts => parts
  | .scan target => [target]
  | .comment text => text

/-- The tag a simple statement writes. -/
def tag : Simple → Tag
  | .declare names type =>
    .whole "declare"
      [⟨"name", String.intercalate ", " names⟩, ⟨"type", type⟩, ⟨"array", "False"⟩, ⟨"size", ""⟩]
  | .assign target value =>
    .whole "assign" [⟨"variable", target⟩, ⟨"expression", String.intercalate " " value⟩]
  | .call action => .whole "call" [⟨"expression", String.intercalate " " action⟩]
  | .output newline parts =>
    .whole "output"
      [⟨"expression", outputText parts⟩, ⟨"newline", if newline then "True" else "False"⟩]
  | .scan target => .whole "input" [⟨"variable", target⟩]
  | .comment text => .whole "comment" [⟨"text", String.intercalate " " text⟩]

/-- Comments are the simple statements that may stand anywhere. -/
def IsComment (s : Simple) : Prop := s.keyword = .comment

instance (s : Simple) : Decidable s.IsComment := inferInstanceAs (Decidable (s.keyword = .comment))

end Simple

/-! ### Heads of blocks -/

/-- The attributes of the element a counting loop is written as. -/
def Statement.ForHead.attributes (h : Statement.ForHead) : List Attribute :=
  [⟨"variable", h.counter⟩, ⟨"start", String.intercalate " " h.start⟩,
    ⟨"end", String.intercalate " " h.stop⟩, ⟨"direction", if h.backward then "dec" else "inc"⟩,
    ⟨"step", String.intercalate " " h.step⟩]

theorem Statement.ForHead.markup_eq (h : Statement.ForHead) :
    h.markup = (Tag.opening "for" h.attributes).text := by
  simp [markup, attributes]

/-- The head of a loop. -/
inductive Loop where
  /-- Tested before its body. -/
  | whileLoop (condition : Expression)
  /-- Tested after its body. -/
  | doLoop (condition : Expression)
  /-- Counts. -/
  | forLoop (head : Statement.ForHead) (wellFormed : head.WellFormed)

namespace Loop

/-- The word a loop begins with. -/
def keyword : Loop → Keyword
  | .whileLoop _ => .whileLoop
  | .doLoop _ => .doLoop
  | .forLoop .. => .forLoop

/-- What follows the word. -/
def arguments : Loop → List Token
  | .whileLoop condition | .doLoop condition => condition
  | .forLoop head _ => head.tokens

/-- The block a loop opens. -/
def block : Loop → OpenBlock
  | .whileLoop _ => .whileLoop
  | .doLoop _ => .doLoop
  | .forLoop .. => .forLoop

/-- The element a loop is written as. -/
def element : Loop → String
  | .whileLoop _ => "while"
  | .doLoop _ => "do"
  | .forLoop .. => "for"

/-- The attributes of that element. -/
def attributes : Loop → List Attribute
  | .whileLoop condition | .doLoop condition => [⟨"expression", String.intercalate " " condition⟩]
  | .forLoop head _ => head.attributes

end Loop

/-- The head of a function. -/
structure Signature where
  /-- The function's name. -/
  name : Token
  /-- What stands between the parentheses. -/
  inner : String
  /-- The parameters, each with its name and its type. -/
  parameters : List (Token × Token)
  /-- The variable that is the result, or the word for "no result". -/
  result : Token
  /-- The type of the result. -/
  type : Token
  /-- The parameters are what stands between the parentheses. -/
  reads : tokenize inner = parameters.flatMap fun p => [p.1, p.2]

namespace Signature

/-- What follows the word that begins a function. -/
def arguments (s : Signature) : List Token := [s.name, "(" ++ s.inner ++ ")", s.result, s.type]

/-- The attributes of the element a function is written as. -/
def attributes (s : Signature) : List Attribute :=
  [⟨"name", s.name⟩, ⟨"type", s.type⟩,
    ⟨"variable", if s.result = Statement.noResult then "" else s.result⟩]

/-- The tags of a parameter list; an empty list is one tag. -/
def parameterTags : List (Token × Token) → List Tag
  | [] => [.whole "parameters" []]
  | pairs =>
    .opening "parameters" [] ::
      (pairs.map fun p =>
        .whole "parameter" [⟨"name", p.1⟩, ⟨"type", p.2⟩, ⟨"array", "False"⟩]) ++
      [.closing "parameters"]

/-- The tags that open a function and its body. -/
def tags (s : Signature) : List Tag :=
  .opening "function" s.attributes :: parameterTags s.parameters ++ [.opening "body" []]

end Signature

/-! ### Lines -/

/-- A statement line. -/
inductive Line where
  /-- A simple statement. -/
  | simple (s : Simple)
  /-- Opens a function. -/
  | function (s : Signature)
  /-- Opens a conditional. -/
  | ifThen (condition : Expression)
  /-- Opens the other branch of a conditional. -/
  | otherwise
  /-- Opens the other branch of a conditional, and a conditional chained to it. -/
  | elseIf (condition : Expression)
  /-- Opens a loop. -/
  | loop (l : Loop)
  /-- Closes a block. -/
  | close

namespace Line

/-- The word a line begins with. -/
def keyword : Line → Keyword
  | .simple s => s.keyword
  | .function _ => .function
  | .ifThen _ => .ifThen
  | .otherwise | .elseIf _ => .otherwise
  | .loop l => l.keyword
  | .close => .close

/-- What follows the word. -/
def arguments : Line → List Token
  | .simple s => s.arguments
  | .function s => s.arguments
  | .ifThen condition => condition
  | .otherwise | .close => []
  | .elseIf condition => Keyword.ifThen.word :: condition
  | .loop l => l.arguments

/-- How a line is spelled. -/
def tokens (l : Line) : List Token := l.keyword.word :: l.arguments

end Line

/-- The tags that open a conditional and its first branch. -/
def conditionTags (condition : Expression) : List Tag :=
  [.opening "if" [⟨"expression", String.intercalate " " condition⟩], .opening "then" []]

/-- The tags between the two branches of a conditional. -/
def turnTags : List Tag := [.closing "then", .opening "else" []]

end Flowscript
