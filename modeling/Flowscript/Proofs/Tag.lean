import Flowscript.Markup

/-!
# Markup as a list of tags

Everything a program writes is put together from tags, and what is proved about a document is proved
about its tags: how they nest here, how they are found again in the text in
`Flowscript.Proofs.Scan`.

## Texts

What tags look like is said here once more, on its own, so that a statement about tags is one about
texts whatever the writers do. The equations of the writers (`Markup.startTag_eq` and those behind
it) are the only place where both are seen.

## Nesting

`nest` reads a list of tags with a stack of open elements, innermost first. It fails at a closing
tag that does not close the innermost open element, and at nothing else. Attributes play no part in
it.

## Main definitions

* `Tag`, `Tag.text`, `Tag.texts` — tags and how they are written.
* `Tag.nest` — the elements left open by a list of tags.

## Main results

* `Markup.startTag_eq`, `Markup.emptyTag_eq`, `Markup.endTag_eq` — tags are written as they look.
* `Markup.header_eq`, `Markup.footer_eq` — what stands around the tags of a document.
* `Tag.texts_append` — writing is a homomorphism.
* `Tag.nest_append` — tags are read one list after the other.
-/

namespace Flowscript

/-- A tag of a document. -/
inductive Tag where
  /-- Opens an element. -/
  | opening (element : String) (attributes : List Attribute)
  /-- Is a whole element. -/
  | whole (element : String) (attributes : List Attribute)
  /-- Closes an element. -/
  | closing (element : String)
deriving DecidableEq, Repr

/-- What an attribute looks like, with the space in front of it. -/
def Attribute.text (a : Attribute) : String := " " ++ a.name ++ "=\"" ++ a.value ++ "\""

namespace Tag

/-- What attributes look like, one behind the other. -/
def attributeTexts (as : List Attribute) : String := String.join (as.map Attribute.text)

/-- What a tag looks like. -/
def text : Tag → String
  | .opening element as => "<" ++ element ++ attributeTexts as ++ ">"
  | .whole element as => "<" ++ element ++ attributeTexts as ++ "/>"
  | .closing element => "</" ++ element ++ ">"

/-- Tags written one after the other. -/
def texts (tags : List Tag) : String := String.join (tags.map text)

@[simp] theorem texts_nil : texts [] = "" := by simp [texts]

@[simp] theorem texts_cons (t : Tag) (tags : List Tag) :
    texts (t :: tags) = t.text ++ texts tags := by
  simp [texts]

@[simp] theorem texts_append (xs ys : List Tag) : texts (xs ++ ys) = texts xs ++ texts ys := by
  simp [texts, String.join_append]

/-- The attributes of a tag. A closing tag has none. -/
def attributes : Tag → List Attribute
  | .opening _ as | .whole _ as => as
  | .closing _ => []

/-- The attribute values of a list of tags. -/
def values (tags : List Tag) : List String :=
  tags.flatMap fun t => t.attributes.map Attribute.value

@[simp] theorem values_nil : values [] = [] := rfl

@[simp] theorem values_cons (t : Tag) (tags : List Tag) :
    values (t :: tags) = t.attributes.map Attribute.value ++ values tags := rfl

@[simp] theorem values_append (xs ys : List Tag) : values (xs ++ ys) = values xs ++ values ys :=
  List.flatMap_append

/-! ### Nesting -/

/-- Read a list of tags with the elements `opened`, innermost first, already open. The result is the
elements open behind the tags; there is none if a closing tag does not match. -/
def nest (opened : List String) : List Tag → Option (List String)
  | [] => some opened
  | .opening element _ :: tags => nest (element :: opened) tags
  | .whole _ _ :: tags => nest opened tags
  | .closing element :: tags =>
    match opened with
    | [] => none
    | innermost :: outer => if innermost = element then nest outer tags else none

section Nest

variable (opened : List String) (element : String) (as : List Attribute) (tags : List Tag)

@[simp] theorem nest_nil : nest opened [] = some opened := by rw [nest]

@[simp] theorem nest_opening :
    nest opened (.opening element as :: tags) = nest (element :: opened) tags := by rw [nest]

@[simp] theorem nest_whole : nest opened (.whole element as :: tags) = nest opened tags := by
  rw [nest]

@[simp] theorem nest_closing :
    nest (element :: opened) (.closing element :: tags) = nest opened tags := by simp [nest]

end Nest

theorem nest_append (opened : List String) (xs ys : List Tag) :
    nest opened (xs ++ ys) = (nest opened xs).bind fun between => nest between ys := by
  fun_induction nest opened xs with
  | case1 opened => simp
  | case2 opened element as tags ih => simpa using ih
  | case3 opened element as tags ih => simpa using ih
  | case4 element tags => simp [nest]
  | case5 tags innermost outer ih => simpa using ih
  | case6 element tags innermost outer hne => simp [nest, hne]

end Tag

/-! ### The writers -/

namespace Markup

variable (element : String) (as : List Attribute)

theorem attributes_eq : attributes as = Tag.attributeTexts as := rfl

@[simp] theorem startTag_eq : startTag element as = (Tag.opening element as).text := by
  rw [startTag, attributes_eq, Tag.text]

@[simp] theorem emptyTag_eq : emptyTag element as = (Tag.whole element as).text := by
  rw [emptyTag, attributes_eq, Tag.text]

@[simp] theorem endTag_eq : endTag element = (Tag.closing element).text := by
  rw [endTag, Tag.text]

theorem header_eq :
    header = "<?xml version=\"1.0\"?><flowgorithm fileversion=\"4.2\">" := by decide

theorem footer_eq : footer = "</flowgorithm>\n" := by decide

end Markup

end Flowscript
