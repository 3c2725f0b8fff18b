import Flowscript.Proofs.Respacing

/-!
# Signatures can be read back

The line that opens a function is cut into tokens twice: the parameter list is one token of the line,
and what stands between its parentheses is cut again, into names and types. This module follows a
signature through both passes into the document.

## Plain words

A word is plain if no character in it means anything to a pass over a line. A plain word is a token
of its own wherever it stands, and so is a group of plain words: inside it nothing is cut, blanks
included, and its last parenthesis ends it with nothing left open. Both are `Detached`, and a line of
detached tokens with blanks between them is read as these tokens (`tokenize_join_of_detached`).

## The other direction

Nothing is assumed about the tokens of a signature that is accepted. Its parameter list begins with a
parenthesis and ends with one, so these two are the first that opens and the last that closes, and
the parameters are the tokens of what stands between them.

## Main definitions

* `IsPlain` — words that mean nothing to a pass over a line.
* `signatureLine`, `functionTags` — a signature in a source, and in a document.
* `Enclosed` — what stands between the first `(` and the last `)` of a text.

## Main results

* `tokenize_signatureLine` — a signature has five tokens, whatever its parameter list.
* `exists_signature_of_process` — what is known of a signature that is accepted.
* `signature_read_back` — a signature in a source against the one in the document.
-/

namespace Flowscript

open Markup

/-! ### Plain words -/

/-- A word that means nothing to a pass over a line: it has characters, and none of them is a blank,
a part of a line end, a quote or a parenthesis. -/
def IsPlain (w : Token) : Prop :=
  w ≠ "" ∧ ∀ c ∈ w.toList, c ∉ [' ', '\t', '\n', '\r', '"', '(', ')']

instance : DecidablePred IsPlain := fun w =>
  -- Named here, for a search may find the instance that goes through every character there is.
  @instDecidableAnd (w ≠ "") _ _ (List.decidableBAll _ _)

theorem IsPlain.notMem {w : Token} (h : IsPlain w) {c : Char}
    (hc : c ∈ [' ', '\t', '\n', '\r', '"', '(', ')']) : c ∉ w.toList :=
  fun hmem => h.2 c hmem hc

/-- A text is read without a cut if none of its characters makes a cut or changes the mode. -/
theorem Mode.reads_of_forall {m : Mode} {cs : List Char}
    (h : ∀ c ∈ cs, m.read c = (m, .none)) : m.Reads cs m := by
  induction cs with
  | nil => exact .nil m
  | cons c cs ih =>
    obtain ⟨hc, hcs⟩ := List.forall_mem_cons.mp h
    exact (Mode.Reads.single hc).append (ih hcs)

theorem IsPlain.detached {w : Token} (h : IsPlain w) : Detached w := by
  have hreads : Mode.plain.Reads w.toList .plain := by
    refine Mode.reads_of_forall fun c hc => ?_
    have hspecial := h.2 c hc
    simp only [List.mem_cons, List.not_mem_nil, or_false, not_or] at hspecial
    simp [Mode.read, Mode.plain, isBlank, hspecial]
  have hne : w.toList ≠ [] := mt String.toList_eq_nil_iff.mp h.1
  have hdetached := hreads.detached hne
  rwa [String.ofList_toList] at hdetached

/-- A group without quotes and further parentheses is detached, whatever blanks it holds. -/
theorem detached_group {inner : String}
    (h : ∀ c ∈ ['"', '(', ')'], c ∉ inner.toList) : Detached ("(" ++ inner ++ ")") := by
  have hinner : Mode.Reads ⟨false, true⟩ inner.toList ⟨false, true⟩ := by
    refine Mode.reads_of_forall fun c hc => ?_
    have hspecial : ¬c = '"' ∧ ¬c = '(' ∧ ¬c = ')' := by
      refine ⟨?_, ?_, ?_⟩ <;> rintro rfl <;> exact h _ (by decide) hc
    simp [Mode.read, hspecial]
  have hopen : Mode.plain.Reads ['('] ⟨false, true⟩ := .single rfl
  have hdetached := (hopen.append hinner).detached_after (c := ')') rfl rfl
  rwa [show String.ofList (['('] ++ inner.toList ++ [')']) = "(" ++ inner ++ ")" by
    simp [← String.toList_inj]] at hdetached

/-! ### Lines of detached tokens -/

/-- Detached tokens with blanks between them are the tokens of their line. Blanks may also follow the
last one. -/
theorem tokenize_join_of_detached {words : List (Token × String)}
    (h : ∀ w ∈ words, Detached w.1) (hblank : ∀ w ∈ words, ∀ c ∈ w.2.toList, isBlank c = true)
    (hgap : ∀ w ∈ words.dropLast, w.2 ≠ "") :
    tokenize (String.join (words.map fun w => w.1 ++ w.2)) = words.map Prod.fst := by
  induction words with
  | nil => rfl
  | cons w words ih =>
    obtain ⟨hw, hlater⟩ := List.forall_mem_cons.mp h
    obtain ⟨hwblank, hblank⟩ := List.forall_mem_cons.mp hblank
    rw [List.map_cons, String.join_cons, String.append_assoc, List.map_cons]
    cases words with
    | nil =>
      have hhead : ∀ c ∈ (w.2 ++ "").toList.head?, isBlank c = true := by
        rw [String.append_empty]
        exact fun c hc => hwblank c (List.mem_of_mem_head? hc)
      rw [List.map_nil, String.join_nil, hw _ hhead, tokenize_append_of_blank hwblank]
      rfl
    | cons w' words =>
      rw [List.dropLast_cons_cons, List.forall_mem_cons] at hgap
      rw [hw _ (isBlank_of_mem_head? hwblank hgap.1 _), tokenize_append_of_blank hwblank,
        ih hlater hblank hgap.2]

namespace Spacing

variable {s : Spacing}

/-- A spacing of detached tokens is read as these tokens, if there are blanks between any two. -/
theorem tokenize_text_of_detached (h : ∀ t ∈ s.tokens, Detached t)
    (hgap : ∀ w ∈ s.words.dropLast, w.2 ≠ "") : tokenize s.text = s.tokens := by
  have hdetached : ∀ w ∈ s.words, Detached w.1 := fun w hw => h w.1 (List.mem_map_of_mem hw)
  rw [text, tokenize_append_of_blank s.isBlank_lead,
    tokenize_join_of_detached hdetached s.isBlank_gap hgap, tokens]

/-- A character that is no blank and stands in none of the tokens does not stand in the line. -/
theorem notMem_text {c : Char} (hc : isBlank c = false) (h : ∀ t ∈ s.tokens, c ∉ t.toList) :
    c ∉ s.text.toList := by
  have hnotBlank {gap : String} (hgap : ∀ c ∈ gap.toList, isBlank c = true) : c ∉ gap.toList :=
    fun hmem => by simp [hgap c hmem] at hc
  rw [text, String.toList_append, List.mem_append, not_or]
  refine ⟨hnotBlank s.isBlank_lead, ?_⟩
  rw [String.toList_join, List.mem_flatMap]
  rintro ⟨_, hword, hmem⟩
  obtain ⟨w, hw, rfl⟩ := List.mem_map.mp hword
  rw [String.toList_append, List.mem_append] at hmem
  rcases hmem with hmem | hmem
  · exact h w.1 (List.mem_map_of_mem hw) hmem
  · exact hnotBlank (s.isBlank_gap w hw) hmem

end Spacing

/-! ### Signatures in a source -/

/-- The line that opens a function, with `inner` between its parentheses. -/
def signatureLine (name inner result type : String) : String :=
  "fn " ++ name ++ " (" ++ inner ++ ") " ++ result ++ " " ++ type

section Line

variable {name result type : Token} (hname : IsPlain name) (hresult : IsPlain result)
  (htype : IsPlain type)

/-- The same line, taken apart. -/
def signatureSpacing (inner : String) : Spacing where
  lead := ""
  words := [("fn", " "), (name, " "), ("(" ++ inner ++ ")", " "), (result, " "), (type, "")]
  isBlank_lead := Spacing.empty.isBlank_lead
  ne_empty := by simp [hname.1, hresult.1, htype.1]
  isBlank_gap := by simp [isBlank]

theorem text_signatureSpacing (inner : String) :
    (signatureSpacing hname hresult htype inner).text = signatureLine name inner result type := by
  simp [Spacing.text, signatureSpacing, signatureLine, ← String.toList_inj]

theorem tokens_signatureSpacing (inner : String) :
    (signatureSpacing hname hresult htype inner).tokens =
      ["fn", name, "(" ++ inner ++ ")", result, type] := rfl

include hname hresult htype

variable {inner : String}

/-- A signature of plain words has five tokens, one of which is the parameter list. -/
theorem tokenize_signatureLine (hinner : ∀ c ∈ ['"', '(', ')'], c ∉ inner.toList) :
    tokenize (signatureLine name inner result type) =
      ["fn", name, "(" ++ inner ++ ")", result, type] := by
  have hfn : IsPlain "fn" := by decide
  rw [← text_signatureSpacing hname hresult htype inner, Spacing.tokenize_text_of_detached,
    tokens_signatureSpacing]
  · simp [tokens_signatureSpacing, hfn.detached, hname.detached, detached_group hinner,
      hresult.detached, htype.detached]
  · simp [signatureSpacing]

/-- Both characters of line ends are missing from a signature of plain words. -/
theorem notMem_signatureLine {c : Char} (hc : c = '\n' ∨ c = '\r') (hinner : c ∉ inner.toList) :
    c ∉ (signatureLine name inner result type).toList := by
  have hspecial : c ∈ [' ', '\t', '\n', '\r', '"', '(', ')'] := by
    rcases hc with rfl | rfl <;> decide
  have hblank : isBlank c = false := by rcases hc with rfl | rfl <;> rfl
  have hmarks : c ≠ 'f' ∧ c ≠ 'n' ∧ c ≠ '(' ∧ c ≠ ')' := by
    rcases hc with rfl | rfl <;> decide
  rw [← text_signatureSpacing hname hresult htype inner]
  refine Spacing.notMem_text hblank ?_
  simp [tokens_signatureSpacing, hmarks, hinner, hname.notMem hspecial, hresult.notMem hspecial,
    htype.notMem hspecial]

end Line

/-! ### Signatures in a document -/

/-- The tags that open a function and its body. The word for "no result" leaves the variable empty,
and a function without parameters has an empty list of them. -/
def functionTags (name result type : Token) (parameters : List (Token × Token)) : List Tag :=
  .opening "function"
      [⟨"name", name⟩, ⟨"type", type⟩, ⟨"variable", if result = "_" then "" else result⟩] ::
    (if parameters = [] then [.whole "parameters" []]
      else
        .opening "parameters" [] ::
          (parameters.map fun p =>
            .whole "parameter" [⟨"name", p.1⟩, ⟨"type", p.2⟩, ⟨"array", "False"⟩]) ++
          [.closing "parameters"]) ++
    [.opening "body" []]

theorem Signature.tags_eq_functionTags (s : Signature) :
    s.tags = functionTags s.name s.result s.type s.parameters := by
  obtain ⟨name, inner, parameters, result, type, reads⟩ := s
  cases parameters <;> rfl

/-- What stands between the first `(` and the last `)` of a text. -/
def Enclosed (text inner : String) : Prop :=
  ∃ before after, text.toList = before ++ '(' :: inner.toList ++ ')' :: after ∧ '(' ∉ before ∧
    ')' ∉ after

/-- A text in parentheses encloses what stands between the two. -/
theorem enclosed_iff {inner inner' : String} :
    Enclosed ("(" ++ inner ++ ")") inner' ↔ inner' = inner := by
  constructor
  · rintro ⟨before, after, htext, hbefore, hafter⟩
    have hchars : '(' :: (inner.toList ++ [')']) =
        before ++ '(' :: (inner'.toList ++ ')' :: after) := by simpa using htext
    obtain rfl : before = [] := by
      cases before with
      | nil => rfl
      | cons c before =>
        obtain ⟨rfl, -⟩ := List.cons.inj hchars
        exact absurd List.mem_cons_self hbefore
    have hclosed := (List.cons.inj hchars).2
    rcases List.eq_nil_or_concat after with rfl | ⟨front, last, rfl⟩
    · have hinner := (List.append_inj' hclosed rfl).1
      exact (String.toList_inj.mp hinner).symm
    · rw [List.concat_eq_append, ← List.cons_append, ← List.append_assoc] at hclosed
      obtain ⟨-, hlast⟩ := List.append_inj' hclosed rfl
      obtain ⟨rfl, -⟩ := List.cons.inj hlast
      simp at hafter
  · rintro rfl
    exact ⟨[], [], by simp, by simp, by simp⟩

theorem Line.exists_signature {l : Line} (h : l.keyword = .function) : ∃ s, l = .function s := by
  cases l with
  | function s => exact ⟨s, rfl⟩
  | simple s =>
    cases s with
    | output newline => cases newline <;> exact nomatch h
    | declare | assign | call | scan | comment => exact nomatch h
  | loop l => cases l <;> exact nomatch h
  | ifThen | otherwise | elseIf | close => exact nomatch h

/-- A signature that is accepted has a parameter list in parentheses, and the tokens between them are
the parameters that are written. -/
theorem exists_signature_of_process {args : List Token} {d d' : Draft}
    (h : (process ("fn" :: args)).apply d = (.ok (), d')) :
    ∃ s : Signature, args = s.arguments ∧ d' = d.advance s.tags [.function] := by
  obtain ⟨m, bs, o⟩ := d
  obtain ⟨line, tags, blocks, htokens, effect, rfl⟩ := apply_process_eq_ok_iff.mp h
  obtain ⟨hword, hargs⟩ := List.cons.inj htokens
  have hkeyword : Keyword.function = line.keyword := Keyword.word_injective hword
  obtain ⟨s, rfl⟩ := Line.exists_signature hkeyword.symm
  cases effect with
  | function s => exact ⟨s, hargs, rfl⟩

/-! ### From the source to the document -/

/-- A function of two lines compiles to its tags. -/
theorem compile_of_signature (s : Signature) {source : String}
    (h : statements source = [Keyword.function.word :: s.arguments, ["end"]]) (file : Nat)
    (o : Options) :
    compile source file o = .ok (header ++
      Tag.texts (functionTags s.name s.result s.type s.parameters ++
        [.closing "body", .closing "function"]) ++ footer) := by
  have trace : Trace o [] [.function s, .close]
      (s.tags ++ OpenBlock.function.closingTags) [] :=
    .cons (.function s) (.single (.close .function []))
  rw [compile_eq_ok_iff, ← s.tags_eq_functionTags]
  exact ⟨[.function s, .close], _, h, trace, rfl⟩

/-- A source that opens a function and closes it again, all in plain words, compiles to that
function. -/
theorem compile_signatureLine {name result type : Token} {parameters : List (Token × Token)}
    {inner : Spacing} (hname : IsPlain name) (hresult : IsPlain result) (htype : IsPlain type)
    (hplain : ∀ p ∈ parameters, IsPlain p.1 ∧ IsPlain p.2)
    (htokens : inner.tokens = parameters.flatMap fun p => [p.1, p.2])
    (hgap : ∀ w ∈ inner.words.dropLast, w.2 ≠ "")
    (l : Layout [signatureLine name inner.text result type, "end"]) (file : Nat) (o : Options) :
    compile l.source file o = .ok (header ++
      Tag.texts (functionTags name result type parameters ++
        [.closing "body", .closing "function"]) ++ footer) := by
  have hwords : ∀ t ∈ inner.tokens, IsPlain t := by
    rw [htokens]
    intro t ht
    obtain ⟨p, hp, ht⟩ := List.mem_flatMap.mp ht
    rcases List.mem_pair.mp ht with rfl | rfl
    · exact (hplain p hp).1
    · exact (hplain p hp).2
  have hinner : ∀ c ∈ ['\n', '\r', '"', '(', ')'], c ∉ inner.text.toList := by
    intro c hc
    have hspecial : c ∈ [' ', '\t', '\n', '\r', '"', '(', ')'] :=
      List.mem_cons_of_mem _ (List.mem_cons_of_mem _ hc)
    have hblank : ∀ c ∈ ['\n', '\r', '"', '(', ')'], isBlank c = false := by
      simp [isBlank]
    exact Spacing.notMem_text (hblank c hc) fun t ht => (hwords t ht).notMem hspecial
  -- the second pass, over what stands between the parentheses
  have hreads : tokenize inner.text = parameters.flatMap fun p => [p.1, p.2] := by
    rw [inner.tokenize_text_of_detached (fun t ht => (hwords t ht).detached) hgap, htokens]
  -- the first pass, over the line
  have hline := tokenize_signatureLine hname hresult htype fun c hc =>
    hinner c (List.mem_cons_of_mem _ (List.mem_cons_of_mem _ hc))
  have hends : ∀ c, c = '\n' ∨ c = '\r' →
      ∀ line ∈ [signatureLine name inner.text result type, "end"], c ∉ line.toList := by
    intro c hc
    rw [List.forall_mem_cons, List.forall_mem_singleton]
    rcases hc with rfl | rfl
    · exact ⟨notMem_signatureLine hname hresult htype (.inl rfl) (hinner _ (by decide)), by decide⟩
    · exact ⟨notMem_signatureLine hname hresult htype (.inr rfl) (hinner _ (by decide)), by decide⟩
  have hlf := hends '\n' (.inl rfl)
  have hcr : ∀ line ∈ [signatureLine name inner.text result type, "end"],
      line.toList.getLast? ≠ some '\r' := fun line hmem hlast =>
    hends '\r' (.inr rfl) line hmem (List.mem_of_getLast? hlast)
  refine compile_of_signature ⟨name, inner.text, parameters, result, type, hreads⟩ ?_ file o
  rw [l.statements_source hlf hcr, List.map_cons, hline]
  rfl

/-- **Signatures can be read back.** Take plain words for the name, the result and the type of a
function, and for the names and types of its parameters, the latter with any blanks between and
around them. However the signature and an `end` are laid out as a source, under all options, the
document is that function with these parameters and an empty body; its variable is empty only for
the word `_`.

Conversely, if any tokens are accepted as a signature, then the names and types of the parameters
that are written are the tokens of what stands between the first `(` and the last `)` of the second
argument. -/
theorem signature_read_back :
    (∀ (name result type : Token) (parameters : List (Token × Token)) (inner : Spacing),
      IsPlain name → IsPlain result → IsPlain type →
      (∀ p ∈ parameters, IsPlain p.1 ∧ IsPlain p.2) →
      inner.tokens = parameters.flatMap (fun p => [p.1, p.2]) →
      (∀ w ∈ inner.words.dropLast, w.2 ≠ "") →
      ∀ (l : Layout [signatureLine name inner.text result type, "end"]) (file : Nat) (o : Options),
        compile l.source file o = .ok (header ++
          Tag.texts (functionTags name result type parameters ++
            [.closing "body", .closing "function"]) ++ footer) ∧
        ((if result = "_" then "" else result) = "" ↔ result = "_")) ∧
    ∀ (args : List Token) (d d' : Draft), (process ("fn" :: args)).apply d = (.ok (), d') →
      ∃ name list result type parameters, args = [name, list, result, type] ∧
        d'.markup = d.markup ++ Tag.texts (functionTags name result type parameters) ∧
        (∃ inner, Enclosed list inner) ∧
        ∀ inner, Enclosed list inner →
          parameters.flatMap (fun p => [p.1, p.2]) = tokenize inner := by
  constructor
  · intro name result type parameters inner hname hresult htype hplain htokens hgap l file o
    refine ⟨compile_signatureLine hname hresult htype hplain htokens hgap l file o, ?_⟩
    by_cases hnone : result = "_" <;> simp [hnone, hresult.1]
  · intro args d d' haccepted
    obtain ⟨s, rfl, rfl⟩ := exists_signature_of_process haccepted
    refine ⟨s.name, _, s.result, s.type, s.parameters, rfl, ?_, ⟨s.inner, enclosed_iff.mpr rfl⟩, ?_⟩
    · rw [Draft.markup_advance, s.tags_eq_functionTags]
    · intro inner henclosed
      rw [enclosed_iff.mp henclosed, s.reads]

/-- Parameters with blanks around them, in an indented line; and a parameter list with a group
inside, whose name is that group. -/
theorem signature_read_back_spaced :
    (∃ (inner : Spacing) (l : Layout [signatureLine "f" inner.text "_" "void", "end"]),
      inner.tokens = ["a", "int", "é", "T"] ∧
      l.source = "\tfn f ( a \tint\té  T\t) _ void\r\nend" ∧
      compile l.source 0 .strict = .ok (header ++
        "<function name=\"f\" type=\"void\" variable=\"\"><parameters>" ++
        "<parameter name=\"a\" type=\"int\" array=\"False\"/>" ++
        "<parameter name=\"é\" type=\"T\" array=\"False\"/>" ++
        "</parameters><body></body></function>" ++ footer)) ∧
    ∃ d', (process ["fn", "g", "((a b) c)", "x", "int"]).apply (.new .strict) = (.ok (), d') ∧
      Enclosed "((a b) c)" "(a b) c" ∧
      ∃ parameters, d'.markup = header ++ Tag.texts (functionTags "g" "x" "int" parameters) ∧
        parameters.flatMap (fun p => [p.1, p.2]) = ["(a b)", "c"] := by
  constructor
  · let inner : Spacing :=
      ⟨" ", [("a", " \t"), ("int", "\t"), ("é", "  "), ("T", "\t")], by simp [isBlank], by simp,
        by simp [isBlank]⟩
    let l : Layout [signatureLine "f" inner.text "_" "void", "end"] :=
      ⟨[⟨"\t", some (signatureLine "f" inner.text "_" "void"), .crlf, by simp [isBlank]⟩,
        ⟨"", some "end", .lf, by simp⟩], false, rfl⟩
    have hcompile := (signature_read_back.1 "f" "_" "void" [("a", "int"), ("é", "T")] inner
      (by decide) (by decide) (by decide) (by decide) rfl (by decide) l 0 .strict).1
    refine ⟨inner, l, rfl, by decide +kernel, hcompile.trans ?_⟩
    decide +kernel
  · obtain ⟨d', haccepted⟩ : ∃ d', (process ["fn", "g", "((a b) c)", "x", "int"]).apply
        (.new .strict) = (.ok (), d') := ⟨_, rfl⟩
    have henclosed : Enclosed "((a b) c)" "(a b) c" :=
      ⟨[], [], by decide, by decide, by decide⟩
    obtain ⟨name, list, result, type, parameters, hargs, hmarkup, -, hreads⟩ :=
      signature_read_back.2 _ _ _ haccepted
    simp only [List.cons.injEq, and_true] at hargs
    obtain ⟨rfl, rfl, rfl, rfl⟩ := hargs
    have htokens : tokenize "(a b) c" = ["(a b)", "c"] := by decide
    exact ⟨d', haccepted, henclosed, parameters, hmarkup,
      (hreads _ henclosed).trans htokens⟩

end Flowscript
