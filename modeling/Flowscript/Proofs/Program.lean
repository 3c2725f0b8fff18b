import Flowscript.Proofs.Line

/-!
# Program trees

The grammar of the notation, as trees. A program is a list of items; a function and the compound
statements hold bodies, which are lists of statements again. Nothing here mentions drafts or open
blocks: a tree has a spelling (`lines`) and a nested markup (`tags`), each by recursion on the tree.

## Chains

A chain of conditionals is one statement: a first branch, any number of `else if` branches, and an
`else` branch or none. It is spelled flat, with one `end`. Its markup is nested: each `else if` is a
conditional inside the `else` branch before it, and a missing `else` branch is an empty element.

## Main definitions

* `Stmt`, `Item`, `Program` — the trees.
* `Program.lines`, `Program.statements` — the lines of a tree, and what they spell.
* `Program.tags` — the markup of a tree, under options that may keep comments outside functions.
* `Program.Admitted` — the trees that options allow.
-/

namespace Flowscript

/-- A statement inside a function. -/
inductive Stmt where
  /-- A statement that opens no block. -/
  | simple (s : Simple)
  /-- A loop with its body. -/
  | loop (head : Loop) (body : List Stmt)
  /-- A chain of conditionals: the first branch, the `else if` branches, the `else` branch. -/
  | ifChain (condition : Expression) (body : List Stmt)
      (elseIfs : List (Expression × List Stmt)) (otherwise : Option (List Stmt))

/-- A piece of a program. -/
inductive Item where
  /-- A function with its body. -/
  | function (signature : Signature) (body : List Stmt)
  /-- A comment outside every function. -/
  | comment (text : Expression)
  /-- An `end` that closes nothing. -/
  | unmatchedEnd
  /-- A statement outside every function. -/
  | statement (s : Stmt)

/-- A program is a list of items. -/
abbrev Program := List Item

/-! ### Spelling -/

mutual

/-- The lines of a statement. -/
def Stmt.lines : Stmt → List Line
  | .simple s => [.simple s]
  | .loop head body => .loop head :: Stmt.bodyLines body ++ [.close]
  | .ifChain condition body elseIfs otherwise =>
    .ifThen condition :: Stmt.bodyLines body ++ Stmt.elseIfLines elseIfs ++
      Stmt.elseLines otherwise ++ [.close]

/-- The lines of a body. -/
def Stmt.bodyLines : List Stmt → List Line
  | [] => []
  | s :: body => s.lines ++ Stmt.bodyLines body

/-- The lines of the `else if` branches of a chain. -/
def Stmt.elseIfLines : List (Expression × List Stmt) → List Line
  | [] => []
  | (condition, body) :: rest =>
    .elseIf condition :: Stmt.bodyLines body ++ Stmt.elseIfLines rest

/-- The lines of the `else` branch of a chain. -/
def Stmt.elseLines : Option (List Stmt) → List Line
  | none => []
  | some body => .otherwise :: Stmt.bodyLines body

end

/-- The lines of an item. -/
def Item.lines : Item → List Line
  | .function signature body => .function signature :: Stmt.bodyLines body ++ [.close]
  | .comment text => [.simple (.comment text)]
  | .unmatchedEnd => [.close]
  | .statement s => s.lines

/-- The lines of a program. -/
def Program.lines (p : Program) : List Line := p.flatMap Item.lines

/-- What a program spells: its lines, each as its tokens. -/
def Program.statements (p : Program) : List (List Token) := p.lines.map Line.tokens

/-! ### Markup -/

/-- An element with its content. -/
def Tag.element (name : String) (as : List Attribute) (content : List Tag) : List Tag :=
  .opening name as :: content ++ [.closing name]

/-- A conditional: its first branch, and behind it whatever stands for its `else` branch. -/
def Tag.conditional (condition : Expression) (body otherwise : List Tag) : List Tag :=
  element "if" [⟨"expression", String.intercalate " " condition⟩]
    (element "then" [] body ++ otherwise)

mutual

/-- The markup of a statement. -/
def Stmt.tags : Stmt → List Tag
  | .simple s => [s.tag]
  | .loop head body => Tag.element head.element head.attributes (Stmt.bodyTags body)
  | .ifChain condition body elseIfs otherwise =>
    Tag.conditional condition (Stmt.bodyTags body)
      (Stmt.elseIfTags (Stmt.elseTags otherwise) elseIfs)

/-- The markup of a body. -/
def Stmt.bodyTags : List Stmt → List Tag
  | [] => []
  | s :: body => s.tags ++ Stmt.bodyTags body

/-- The markup of the rest of a chain, whose last `else` branch is `last`. -/
def Stmt.elseIfTags (last : List Tag) : List (Expression × List Stmt) → List Tag
  | [] => last
  | (condition, body) :: rest =>
    Tag.element "else" []
      (Tag.conditional condition (Stmt.bodyTags body) (Stmt.elseIfTags last rest))

/-- The markup of an `else` branch; a missing one is an empty element. -/
def Stmt.elseTags : Option (List Stmt) → List Tag
  | none => [.whole "else" []]
  | some body => Tag.element "else" [] (Stmt.bodyTags body)

end

/-- The markup of an item. -/
def Item.tags (o : Options) : Item → List Tag
  | .function signature body =>
    Tag.element "function" signature.attributes
      (Signature.parameterTags signature.parameters ++ Tag.element "body" [] (Stmt.bodyTags body))
  | .comment text => if o.topLevelComments then [(Simple.comment text).tag] else []
  | .unmatchedEnd => []
  | .statement s => s.tags

/-- The markup of a program. -/
def Program.tags (o : Options) (p : Program) : List Tag := p.flatMap (Item.tags o)

/-! ### What options allow -/

/-- Comments may stand outside functions, as items of their own. -/
def Stmt.IsComment : Stmt → Prop
  | .simple s => s.IsComment
  | .loop .. | .ifChain .. => False

/-- The items that options allow. -/
def Item.Admitted (o : Options) : Item → Prop
  | .function .. | .comment _ => True
  | .unmatchedEnd => o.unmatchedEnd = true
  | .statement s => o.topLevelStatements = true ∧ ¬s.IsComment

/-- The programs that options allow. -/
def Program.Admitted (o : Options) (p : Program) : Prop := ∀ item ∈ p, item.Admitted o

end Flowscript
