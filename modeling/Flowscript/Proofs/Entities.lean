import Flowscript.Proofs.WellFormed

/-!
# Output can be read back

The arguments of an output statement are put together by ` & `, and the result is written as an
attribute value: the operator becomes `&amp;`, and every quote becomes `&quot;`. This module reads
such a value back.

## Why the order matters

The operator is an entity before the quotes are escaped, and escaping touches quotes only, so no
entity is escaped a second time. A reader who goes from left to right and replaces each entity by
its character then meets an ampersand exactly where one of the two was written: the arguments are
assumed to hold none of their own. With one, as in `&quot;`, the reader could not tell it from what
was written for a quote.

## Main definitions

* `decodeEntities` — a text, read with its entities.
* `WritesOutput` — what an output statement adds to the markup.

## Main results

* `decodeEntities_outputText` — reading gives the arguments, put together.
* `intercalate_operator_injective` — put together, the arguments can still be told apart.
* `output_can_be_undone` — what follows for output statements.
-/

namespace Flowscript

/-! ### Reading entities -/

/-- Read a text from left to right, with `&quot;` for a quote and `&amp;` for an ampersand. Any
other character stands for itself. -/
def decodeEntities : List Char → List Char
  | '&' :: 'q' :: 'u' :: 'o' :: 't' :: ';' :: cs => '"' :: decodeEntities cs
  | '&' :: 'a' :: 'm' :: 'p' :: ';' :: cs => '&' :: decodeEntities cs
  | c :: cs => c :: decodeEntities cs
  | [] => []

theorem decodeEntities_cons_of_ne {c : Char} (h : c ≠ '&') (cs : List Char) :
    decodeEntities (c :: cs) = c :: decodeEntities cs := by
  rw [decodeEntities]
  · simp [h]
  · simp [h]

/-- Escaping can be undone where there was no ampersand before. -/
theorem decodeEntities_escaped_append {cs : List Char} (h : '&' ∉ cs) (rest : List Char) :
    decodeEntities (escaped cs ++ rest) = cs ++ decodeEntities rest := by
  induction cs with
  | nil => rfl
  | cons c cs ih =>
    obtain ⟨hc, hcs⟩ : '&' ≠ c ∧ '&' ∉ cs := by simpa using h
    by_cases hquote : c = '"'
    · subst hquote
      rw [escaped_cons_quote]
      show '"' :: decodeEntities (escaped cs ++ rest) = '"' :: (cs ++ decodeEntities rest)
      rw [ih hcs]
    · rw [escaped_cons_of_ne hquote, List.cons_append, decodeEntities_cons_of_ne hc.symm, ih hcs,
        List.cons_append]

/-- The operator is read as it was meant. -/
theorem decodeEntities_operator_append (rest : List Char) :
    decodeEntities (" &amp; ".toList ++ rest) = " & ".toList ++ decodeEntities rest := rfl

theorem escaped_append (xs ys : List Char) : escaped (xs ++ ys) = escaped xs ++ escaped ys :=
  List.flatMap_append

/-- **Reading gives the arguments,** put together by the operator. -/
theorem decodeEntities_outputText {args : List Token} (h : ∀ a ∈ args, '&' ∉ a.toList) :
    decodeEntities (outputText args).toList = (String.intercalate " & " args).toList := by
  rw [toList_outputText]
  induction args with
  | nil => rfl
  | cons a rest ih =>
    obtain ⟨ha, hrest⟩ := List.forall_mem_cons.mp h
    cases rest with
    | nil =>
      have hread := decodeEntities_escaped_append ha []
      simpa [decodeEntities] using hread
    | cons b rest =>
      have hoperator : escaped " &amp; ".toList = " &amp; ".toList := rfl
      rw [String.intercalate_cons_cons, String.intercalate_cons_cons, String.toList_append,
        String.toList_append, escaped_append, escaped_append, List.append_assoc,
        decodeEntities_escaped_append ha, hoperator, decodeEntities_operator_append, ih hrest,
        String.toList_append, String.toList_append, List.append_assoc]

/-! ### Arguments that are put together -/

/-- The first occurrence of a character cuts a text in one way only. -/
theorem append_cons_inj {c : Char} {xs ys xs' ys' : List Char} (hxs : c ∉ xs) (hxs' : c ∉ xs')
    (h : xs ++ c :: ys = xs' ++ c :: ys') : xs = xs' ∧ ys = ys' := by
  rcases List.append_eq_append_iff.mp h with ⟨between, rfl, hrest⟩ | ⟨between, rfl, hrest⟩
  · cases between with
    | nil => simpa using hrest
    | cons d between =>
      obtain ⟨rfl, -⟩ := List.cons.inj hrest
      simp at hxs'
  · cases between with
    | nil => simpa using hrest.symm
    | cons d between =>
      obtain ⟨rfl, -⟩ := List.cons.inj hrest
      simp at hxs

theorem toList_intercalate_operator (a b : Token) (rest : List Token) :
    (String.intercalate " & " (a :: b :: rest)).toList =
      a.toList ++ [' '] ++ '&' :: ' ' :: (String.intercalate " & " (b :: rest)).toList := by
  rw [String.intercalate_cons_cons, String.toList_append, String.toList_append]
  show a.toList ++ [' ', '&', ' '] ++ _ = _
  simp

/-- Put together by the operator, arguments without an ampersand can be told apart. -/
theorem intercalate_operator_injective {xs ys : List Token} (hxs : xs ≠ []) (hys : ys ≠ [])
    (hx : ∀ a ∈ xs, '&' ∉ a.toList) (hy : ∀ a ∈ ys, '&' ∉ a.toList)
    (h : String.intercalate " & " xs = String.intercalate " & " ys) : xs = ys := by
  -- one argument has no ampersand, and two or more have one
  have hone (a : Token) (ha : '&' ∉ a.toList) (b c : Token) (rest : List Token) :
      String.intercalate " & " [a] ≠ String.intercalate " & " (b :: c :: rest) := by
    intro heq
    rw [String.intercalate_singleton] at heq
    rw [heq, toList_intercalate_operator] at ha
    simp at ha
  induction xs generalizing ys with
  | nil => exact absurd rfl hxs
  | cons a xs ih =>
    obtain ⟨b, ys, rfl⟩ := List.exists_cons_of_ne_nil hys
    obtain ⟨ha, hx⟩ := List.forall_mem_cons.mp hx
    obtain ⟨hb, hy⟩ := List.forall_mem_cons.mp hy
    match xs, ys with
    | [], [] => simpa using h
    | [], c :: ys => exact absurd h (hone a ha b c ys)
    | c :: xs, [] => exact absurd h.symm (hone b hb a c xs)
    | c :: xs, e :: ys =>
      have hchars := congrArg String.toList h
      rw [toList_intercalate_operator, toList_intercalate_operator] at hchars
      obtain ⟨hfirst, hlater⟩ := append_cons_inj (by simpa using ha) (by simpa using hb) hchars
      obtain rfl : a = b := String.toList_inj.mp (List.append_cancel_right hfirst)
      have hrest := String.toList_inj.mp (List.cons.inj hlater).2
      rw [ih (List.cons_ne_nil c xs) (List.cons_ne_nil e ys) hx hy hrest]

/-! ### Output statements -/

/-- The word of an output statement that ends the line, or of one that does not. -/
def outputWord (newline : Bool) : Token := (if newline then Keyword.println else .print).word

/-- From `d` to `d'` one output element was written, with this expression. -/
def WritesOutput (d d' : Draft) (newline : Bool) (value : String) : Prop :=
  d'.markup = d.markup ++ (Tag.whole "output"
    [⟨"expression", value⟩, ⟨"newline", if newline then "True" else "False"⟩]).text

/-- The expression can be seen in the markup. -/
theorem WritesOutput.unique {d d' : Draft} {newline : Bool} {value value' : String}
    (h : WritesOutput d d' newline value) (h' : WritesOutput d d' newline value') :
    value = value' := by
  have htags := h.symm.trans h'
  simpa [Tag.text, Tag.attributeTexts, Attribute.text, String.append_assoc] using htags

/-- An output statement that is accepted has arguments, and writes them. -/
theorem writesOutput_of_process {newline : Bool} {args : List Token} {d d' : Draft}
    (h : (process (outputWord newline :: args)).apply d = (.ok (), d')) :
    args ≠ [] ∧ WritesOutput d d' newline (outputText args) := by
  have happly := apply_ofKeyword_of_process h
  have hne : args ≠ [] := by
    rintro rfl
    cases newline <;> exact nomatch happly
  have hcomment : ¬(Simple.output newline ⟨args, hne⟩).IsComment := by
    cases newline <;> exact Keyword.noConfusion
  have hwrites := Simple.apply_ofKeyword (.output newline ⟨args, hne⟩) d (.inr hcomment)
  obtain rfl := (Prod.mk.inj (hwrites.symm.trans happly)).2
  refine ⟨hne, ?_⟩
  simp [WritesOutput, Simple.tag]

/-- **Output can be read back.** An output statement whose arguments hold no ampersand writes an
expression without quotes, and reading its entities gives the arguments, put together by ` & `. If
another such statement writes the same expression, wherever it stands, then it has the same
arguments. -/
theorem output_can_be_undone {newline : Bool} {args : List Token} {d d' : Draft}
    (hamp : ∀ a ∈ args, '&' ∉ a.toList)
    (haccepted : (process (outputWord newline :: args)).apply d = (.ok (), d')) :
    ∃ value, WritesOutput d d' newline value ∧ '"' ∉ value.toList ∧
      decodeEntities value.toList = (String.intercalate " & " args).toList ∧
      ∀ (newline' : Bool) (args' : List Token) (e e' : Draft), (∀ a ∈ args', '&' ∉ a.toList) →
        (process (outputWord newline' :: args')).apply e = (.ok (), e') →
        WritesOutput e e' newline' value → args' = args := by
  obtain ⟨hne, hwrites⟩ := writesOutput_of_process haccepted
  have hread := decodeEntities_outputText hamp
  refine ⟨outputText args, hwrites, quote_notMem_outputText args, hread, ?_⟩
  intro newline' args' e e' hamp' haccepted' hsame
  obtain ⟨hne', hwrites'⟩ := writesOutput_of_process haccepted'
  have hvalue : outputText args' = outputText args := hwrites'.unique hsame
  have hread' := decodeEntities_outputText hamp'
  rw [hvalue, hread] at hread'
  exact intercalate_operator_injective hne' hne hamp' hamp (String.toList_inj.mp hread'.symm)

/-- A text with blanks and quotes, an argument that is empty and one made of quotes only. -/
theorem output_can_be_undone_empty :
    let args := ["\"x = \"", "", "\"\"", "x"]
    let value := "&quot;x = &quot; &amp;  &amp; &quot;&quot; &amp; x"
    ∃ d', (process ("println" :: args)).apply (.new .lenient) = (.ok (), d') ∧
      WritesOutput (.new .lenient) d' true value ∧ '"' ∉ value.toList ∧
      decodeEntities value.toList = "\"x = \" &  & \"\" & x".toList ∧
      ∀ args' e', (∀ a ∈ args', '&' ∉ a.toList) →
        (process ("print" :: args')).apply (.new .lenient) = (.ok (), e') →
        WritesOutput (.new .lenient) e' false value → args' = args := by
  intro args value
  obtain ⟨d', haccepted⟩ : ∃ d', (process (outputWord true :: args)).apply (.new .lenient) =
      (.ok (), d') := ⟨_, rfl⟩
  have hamp : ∀ a ∈ args, '&' ∉ a.toList := by decide
  obtain ⟨written, hwrites, hquote, hread, hsame⟩ := output_can_be_undone hamp haccepted
  have hvalue : outputText args = value := by decide
  obtain rfl : written = value :=
    (hwrites.unique (writesOutput_of_process haccepted).2).trans hvalue
  refine ⟨d', haccepted, hwrites, hquote, hread, ?_⟩
  intro args' e'
  exact hsame false args' (.new .lenient) e'

/-- An ampersand of the source looks like one that was written for a quote. -/
example : outputText ["\""] = outputText ["&quot;"] := by decide

end Flowscript
