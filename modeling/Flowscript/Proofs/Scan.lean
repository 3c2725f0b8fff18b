import Flowscript.Proofs.Tag

/-!
# Reading tags back from a text

`Scan.step` reads a text one character at a time and gathers the tags it finds. It knows nothing
about the program that wrote the text: names are made of name characters, an attribute is a name, an
equals sign and a value between double quotes, and between two tags there is nothing.

## Values are opaque

Between its quotes a value may hold anything, angle brackets and slashes included; only the next
double quote ends it. So what is read back from written tags is those tags exactly as long as no
value holds a double quote (`Tag.read?_texts`), and no other condition on values is needed.

## Main definitions

* `Scan`, `Scan.step` — the scanner and its step.
* `Tag.read?` — the tags of a text.
* `Tag.Readable` — tags with proper names and values without double quotes.

## Main results

* `Scan.run_text` — the scan of a readable tag adds this tag.
* `Tag.read?_texts` — readable tags are read back from their text.
-/

namespace Flowscript

/-- Where a scan stands. -/
inductive Place where
  /-- Between two tags. -/
  | content
  /-- Behind `<`. -/
  | bracket
  /-- In the name of an opening tag. -/
  | openingName (name : List Char)
  /-- In the name of a closing tag. -/
  | closingName (name : List Char)
  /-- Behind a space, where an attribute begins. -/
  | gap (element : String) (as : List Attribute)
  /-- In the name of an attribute. -/
  | attributeName (element : String) (as : List Attribute) (name : List Char)
  /-- Behind the equals sign of an attribute. -/
  | equals (element : String) (as : List Attribute) (name : String)
  /-- In the value of an attribute. -/
  | value (element : String) (as : List Attribute) (name : String) (value : List Char)
  /-- Behind the value of an attribute. -/
  | behindValue (element : String) (as : List Attribute)
  /-- Behind the slash of a tag that is a whole element. -/
  | slash (element : String) (as : List Attribute)
deriving DecidableEq, Repr

/-- The state of a scan: where it stands, and the tags read so far. -/
structure Scan where
  /-- Where the scan stands. -/
  place : Place
  /-- The tags behind it. -/
  tags : List Tag
deriving DecidableEq, Repr

/-- The characters of names. -/
def isNameChar (c : Char) : Bool := c.isAlphanum || c = '-' || c = '_' || c = '.' || c = ':'

namespace Scan

/-- Behind the name or an attribute of a tag: another attribute, or one of the two ends. -/
def behindPart (tags : List Tag) (element : String) (as : List Attribute) (c : Char) :
    Option Scan :=
  if c = ' ' then some ⟨.gap element as, tags⟩
  else if c = '/' then some ⟨.slash element as, tags⟩
  else if c = '>' then some ⟨.content, tags ++ [.opening element as]⟩
  else none

/-- Read one character. -/
def step (s : Scan) (c : Char) : Option Scan :=
  match s.place with
  | .content => if c = '<' then some ⟨.bracket, s.tags⟩ else none
  | .bracket =>
    if c = '/' then some ⟨.closingName [], s.tags⟩
    else if isNameChar c then some ⟨.openingName [c], s.tags⟩
    else none
  | .openingName name =>
    if isNameChar c then some ⟨.openingName (name ++ [c]), s.tags⟩
    else behindPart s.tags (String.ofList name) [] c
  | .closingName name =>
    if isNameChar c then some ⟨.closingName (name ++ [c]), s.tags⟩
    else if c = '>' ∧ name ≠ [] then
      some ⟨.content, s.tags ++ [.closing (String.ofList name)]⟩
    else none
  | .gap element as =>
    if isNameChar c then some ⟨.attributeName element as [c], s.tags⟩ else none
  | .attributeName element as name =>
    if isNameChar c then some ⟨.attributeName element as (name ++ [c]), s.tags⟩
    else if c = '=' then some ⟨.equals element as (String.ofList name), s.tags⟩
    else none
  | .equals element as name => if c = '"' then some ⟨.value element as name [], s.tags⟩ else none
  | .value element as name value =>
    if c = '"' then some ⟨.behindValue element (as ++ [⟨name, String.ofList value⟩]), s.tags⟩
    else some ⟨.value element as name (value ++ [c]), s.tags⟩
  | .behindValue element as => behindPart s.tags element as c
  | .slash element as =>
    if c = '>' then some ⟨.content, s.tags ++ [.whole element as]⟩ else none

/-- Read a text. -/
def run (s : Scan) : List Char → Option Scan
  | [] => some s
  | c :: cs => (s.step c).bind fun s' => s'.run cs

end Scan

/-- The tags of a text that is made of tags and of nothing else. -/
def Tag.read? (cs : List Char) : Option (List Tag) :=
  match Scan.run ⟨.content, []⟩ cs with
  | some ⟨.content, tags⟩ => some tags
  | _ => none

/-! ### Reading what was written -/

/-- A text that a scan reads as one name. -/
def IsName (s : String) : Prop := s.toList ≠ [] ∧ s.toList.all isNameChar = true

instance (s : String) : Decidable (IsName s) := inferInstanceAs (Decidable (_ ∧ _))

theorem IsName.exists_cons {s : String} (h : IsName s) :
    ∃ first rest, s = String.ofList (first :: rest) ∧ isNameChar first = true ∧
      ∀ c ∈ rest, isNameChar c = true := by
  obtain ⟨hne, hchars⟩ := h
  obtain ⟨first, rest, hs⟩ := List.exists_cons_of_ne_nil hne
  rw [hs, List.all_eq_true] at hchars
  obtain ⟨hfirst, hrest⟩ := List.forall_mem_cons.mp hchars
  exact ⟨first, rest, by rw [← hs, String.ofList_toList], hfirst, hrest⟩

/-- An attribute that a scan reads as one attribute. -/
def Attribute.Readable (a : Attribute) : Prop := IsName a.name ∧ '"' ∉ a.value.toList

/-- The element a tag opens, is or closes. -/
def Tag.name : Tag → String
  | .opening element _ | .whole element _ | .closing element => element

/-- A tag that a scan reads as one tag. -/
def Tag.Readable (t : Tag) : Prop := IsName t.name ∧ ∀ a ∈ t.attributes, a.Readable

namespace Scan

@[simp] theorem run_nil (s : Scan) : s.run [] = some s := rfl

theorem run_cons {s s' : Scan} {c : Char} (h : s.step c = some s') (cs : List Char) :
    s.run (c :: cs) = s'.run cs := by
  rw [run, h, Option.bind_some]

theorem run_append (s : Scan) (xs ys : List Char) :
    s.run (xs ++ ys) = (s.run xs).bind fun between => between.run ys := by
  induction xs generalizing s with
  | nil => rfl
  | cons c xs ih =>
    rw [List.cons_append, run, run]
    cases s.step c with
    | none => rfl
    | some s' => exact ih s'

/-- Names and values are gathered character by character, as long as the place they are gathered in
takes them. -/
theorem run_gather (gather : List Char → Place) (tags : List Tag) {takes : Char → Prop}
    (hstep : ∀ n c, takes c → step ⟨gather n, tags⟩ c = some ⟨gather (n ++ [c]), tags⟩)
    {cs : List Char} (h : ∀ c ∈ cs, takes c) (n : List Char) :
    run ⟨gather n, tags⟩ cs = some ⟨gather (n ++ cs), tags⟩ := by
  induction cs generalizing n with
  | nil => simp
  | cons c cs ih =>
    obtain ⟨hc, hcs⟩ := List.forall_mem_cons.mp h
    rw [run, hstep n c hc, Option.bind_some, ih hcs, List.append_assoc, List.singleton_append]

/-- At this place the name of the element and some attributes have been read, and what ends them
comes next. -/
def EndsPart (p : Place) (element : String) (as : List Attribute) : Prop :=
  ∀ tags c, isNameChar c = false → step ⟨p, tags⟩ c = behindPart tags element as c

theorem endsPart_openingName (name : List Char) :
    EndsPart (.openingName name) (String.ofList name) [] := by
  intro tags c hc
  simp [step, hc]

theorem endsPart_behindValue (element : String) (as : List Attribute) :
    EndsPart (.behindValue element as) element as := fun _ _ _ => rfl

variable {p : Place} {element : String} {as : List Attribute}

theorem run_attribute (hp : EndsPart p element as) {a : Attribute} (ha : a.Readable)
    (tags : List Tag) :
    run ⟨p, tags⟩ a.text.toList = some ⟨.behindValue element (as ++ [a]), tags⟩ := by
  obtain ⟨name, value⟩ := a
  obtain ⟨hname, hvalue⟩ := ha
  obtain ⟨first, rest, rfl, hfirst, hrest⟩ := hname.exists_cons
  have hchars : (Attribute.text ⟨String.ofList (first :: rest), value⟩).toList =
      ' ' :: first :: (rest ++ '=' :: '"' :: (value.toList ++ ['"'])) := by
    simp [Attribute.text]
  have hgap : step ⟨p, tags⟩ ' ' = some ⟨.gap element as, tags⟩ := hp tags ' ' rfl
  have hstart : step ⟨.gap element as, tags⟩ first =
      some ⟨.attributeName element as [first], tags⟩ := by
    simp [step, hfirst]
  have hnames : run ⟨.attributeName element as [first], tags⟩ rest =
      some ⟨.attributeName element as (first :: rest), tags⟩ :=
    run_gather (.attributeName element as) tags (fun n c hc => by simp [step, hc]) hrest [first]
  have hvalues : run ⟨.value element as (String.ofList (first :: rest)) [], tags⟩ value.toList =
      some ⟨.value element as (String.ofList (first :: rest)) value.toList, tags⟩ :=
    run_gather (.value element as _) tags (fun n c (hc : c ≠ '"') => by simp [step, hc])
      (fun c hmem => ne_of_mem_of_not_mem hmem hvalue) []
  rw [hchars, run_cons hgap, run_cons hstart, run_append, hnames, Option.bind_some, run_cons rfl,
    run_cons rfl, run_append, hvalues, Option.bind_some, run_cons rfl, run_nil]
  simp

theorem run_attributes (hp : EndsPart p element as) {bs : List Attribute}
    (hbs : ∀ b ∈ bs, b.Readable) (tags : List Tag) :
    ∃ p', run ⟨p, tags⟩ (Tag.attributeTexts bs).toList = some ⟨p', tags⟩ ∧
      EndsPart p' element (as ++ bs) := by
  induction bs generalizing p as with
  | nil => exact ⟨p, by simp [Tag.attributeTexts], by simpa using hp⟩
  | cons b bs ih =>
    obtain ⟨hb, hbs⟩ := List.forall_mem_cons.mp hbs
    obtain ⟨p', hrun, hp'⟩ := ih (endsPart_behindValue element (as ++ [b])) hbs
    refine ⟨p', ?_, by simpa using hp'⟩
    have hsplit : (Tag.attributeTexts (b :: bs)).toList =
        b.text.toList ++ (Tag.attributeTexts bs).toList := by
      simp [Tag.attributeTexts]
    rw [hsplit, run_append, run_attribute hp hb, Option.bind_some, hrun]

/-- The name and the attributes of a tag, up to where one of its ends follows. -/
theorem run_head (element : String) (bs : List Attribute) (hname : IsName element)
    (hbs : ∀ b ∈ bs, b.Readable) (tags : List Tag) :
    ∃ p', run ⟨.content, tags⟩ ('<' :: (element.toList ++ (Tag.attributeTexts bs).toList)) =
      some ⟨p', tags⟩ ∧ EndsPart p' element bs := by
  obtain ⟨first, rest, rfl, hfirst, hrest⟩ := hname.exists_cons
  have hslash : first ≠ '/' := by
    rintro rfl
    simp [isNameChar] at hfirst
  have hstart : step ⟨.bracket, tags⟩ first = some ⟨.openingName [first], tags⟩ := by
    simp [step, hslash, hfirst]
  have hnames : run ⟨.openingName [first], tags⟩ rest =
      some ⟨.openingName (first :: rest), tags⟩ :=
    run_gather .openingName tags (fun n c hc => by simp [step, hc]) hrest [first]
  obtain ⟨p', hrun, hp'⟩ := run_attributes (endsPart_openingName (first :: rest)) hbs tags
  refine ⟨p', ?_, by simpa using hp'⟩
  rw [run_cons rfl, String.toList_ofList, List.cons_append, run_cons hstart, run_append, hnames,
    Option.bind_some, hrun]

/-- **One tag.** The scan of a readable tag adds this tag and stands behind it. -/
theorem run_text {t : Tag} (ht : t.Readable) (tags : List Tag) :
    run ⟨.content, tags⟩ t.text.toList = some ⟨.content, tags ++ [t]⟩ := by
  cases t with
  | opening element bs =>
    obtain ⟨p', hrun, hp'⟩ := run_head element bs ht.1 ht.2 tags
    have hchars : (Tag.opening element bs).text.toList =
        '<' :: (element.toList ++ (Tag.attributeTexts bs).toList) ++ ['>'] := by
      simp [Tag.text]
    rw [hchars, run_append, hrun, Option.bind_some, run_cons (hp' tags '>' rfl), run_nil]
  | whole element bs =>
    obtain ⟨p', hrun, hp'⟩ := run_head element bs ht.1 ht.2 tags
    have hchars : (Tag.whole element bs).text.toList =
        '<' :: (element.toList ++ (Tag.attributeTexts bs).toList) ++ ['/', '>'] := by
      simp [Tag.text]
    rw [hchars, run_append, hrun, Option.bind_some, run_cons (hp' tags '/' rfl),
      run_cons rfl, run_nil]
  | closing element =>
    have hname : IsName element := ht.1
    have hnames : run ⟨.closingName [], tags⟩ element.toList =
        some ⟨.closingName element.toList, tags⟩ :=
      run_gather .closingName tags (fun n c hc => by simp [step, hc])
        (List.all_eq_true.mp hname.2) []
    have hend : step ⟨.closingName element.toList, tags⟩ '>' =
        some ⟨.content, tags ++ [.closing element]⟩ := by
      simp [step, hname.1, isNameChar]
    have hchars : (Tag.closing element).text.toList =
        '<' :: '/' :: (element.toList ++ ['>']) := by
      simp [Tag.text]
    rw [hchars, run_cons rfl, run_cons rfl, run_append, hnames, Option.bind_some,
      run_cons hend, run_nil]

/-- Readable tags are gathered in order. -/
theorem run_texts {ts : List Tag} (hts : ∀ t ∈ ts, t.Readable) (tags : List Tag) :
    run ⟨.content, tags⟩ (Tag.texts ts).toList = some ⟨.content, tags ++ ts⟩ := by
  induction ts generalizing tags with
  | nil => simp
  | cons t ts ih =>
    obtain ⟨ht, hts⟩ := List.forall_mem_cons.mp hts
    rw [Tag.texts_cons, String.toList_append, run_append, run_text ht, Option.bind_some, ih hts,
      List.append_assoc, List.singleton_append]

end Scan

/-- **Reading back.** Readable tags are what is read from their text. -/
theorem Tag.read?_texts {tags : List Tag} (h : ∀ t ∈ tags, t.Readable) :
    Tag.read? (Tag.texts tags).toList = some tags := by
  rw [Tag.read?, Scan.run_texts h, List.nil_append]

end Flowscript
