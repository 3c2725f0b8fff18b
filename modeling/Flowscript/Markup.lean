/-!
# Markup fragments

A document is a sequence of tags. This module writes the three kinds of tag and the two fixed ends
of a document; everything the program emits is put together from them.

## Total, permissive writing

Attribute values are written as they are given. The one value that is escaped is the expression of
an output statement (`quotedExpression`), because its string literals always hold quotes; every
other value is passed through, and what a source puts there ends up in the document.

## Main definitions

* `Attribute`, `startTag`, `emptyTag`, `endTag` — the kinds of tag.
* `header`, `footer` — what every document begins and ends with.
* `quotedExpression` — the value of an output expression.
-/

namespace Flowscript

/-- A name and the value written for it. -/
structure Attribute where
  /-- The attribute's name. -/
  name : String
  /-- The value, written between double quotes as it is. -/
  value : String
deriving DecidableEq, Repr

/-- An attribute as it is written, with the space that separates it from what stands before it. -/
def Attribute.written (a : Attribute) : String := " " ++ a.name ++ "=\"" ++ a.value ++ "\""

namespace Markup

/-- The attributes of a tag, in order. -/
def attributes (as : List Attribute) : String := String.join (as.map Attribute.written)

/-- A tag that opens an element. -/
def startTag (element : String) (as : List Attribute) : String :=
  "<" ++ element ++ attributes as ++ ">"

/-- A tag that is a whole element. -/
def emptyTag (element : String) (as : List Attribute) : String :=
  "<" ++ element ++ attributes as ++ "/>"

/-- A tag that closes an element. -/
def endTag (element : String) : String := "</" ++ element ++ ">"

/-- What every document begins with. -/
def header : String :=
  "<?xml version=\"1.0\"?>" ++ startTag "flowgorithm" [⟨"fileversion", "4.2"⟩]

/-- What every document ends with. -/
def footer : String := endTag "flowgorithm" ++ "\n"

/-- Tokens joined by single spaces: the text of an expression. -/
def expression (tokens : List String) : String := String.intercalate " " tokens

/-- Write every double quote as an entity. -/
def escapeQuotes (s : String) : String :=
  String.ofList (s.toList.flatMap fun c => if c = '"' then "&quot;".toList else [c])

/-- The value of an output expression: the arguments are concatenated by the target notation's
operator `&`, itself written as an entity, and their quotes are escaped. -/
def quotedExpression (tokens : List String) : String :=
  escapeQuotes (String.intercalate " &amp; " tokens)

end Markup

end Flowscript
