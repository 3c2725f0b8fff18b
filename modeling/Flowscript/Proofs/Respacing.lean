import Flowscript.Proofs.Boundaries
import Flowscript.Proofs.Layout

/-!
# Tokens can be read again

Write the tokens of a line down again with other blanks between them: the same tokens are read, as
long as no quote of the line stands in a group.

## What can go wrong

Reading a line again starts outside quotes and groups, and so must every one of its tokens. Behind a
blank that was dropped and behind a parenthesis that closes a group the pass does stand outside of
both. A closing quote is the exception: it ends its token even inside a group, and the next token
begins there. Read again it begins outside of the group, and a blank that is put in front of it
inside the group becomes a part of it.

The last token is a case of its own. It may hold a quote or a parenthesis that is never closed, so
nothing can be said of it but that it is one token if nothing follows.

## How it is proved

`Mode.Reads` says that some text is read without a cut. The part of a token that the pass has behind
it is always of this kind, read from the start of a line, and this is the invariant
(`rereadable_tokensLeft`): where the token ends, the text that was read again is the token.

## Main definitions

* `QuotesOutsideGroups` — no quote of a line stands in a group.
* `Spacing.Separated` — blanks between any two tokens, and none behind the last.
* `Rereadable` — tokens that are read again one by one.

## Main results

* `rereadable_tokenize` — the tokens of such a line can be read again.
* `tokenize_respaced` — whatever blanks are chosen, they are the same tokens.
-/

namespace Flowscript

/-! ### Texts that are read without a cut -/

/-- From mode `m`, the text `cs` is read without a cut, and mode `m'` follows it. -/
def Mode.Reads (m : Mode) (cs : List Char) (m' : Mode) : Prop :=
  ∀ rest, pieces m (cs ++ rest) = (cs ++ (pieces m' rest).1, (pieces m' rest).2)

namespace Mode.Reads

variable {m m' : Mode} {cs : List Char} {c : Char}

theorem nil (m : Mode) : m.Reads [] m := fun _ => rfl

theorem single (h : m.read c = (m', .none)) : m.Reads [c] m' := by
  intro rest
  rw [List.singleton_append, pieces, h]
  rfl

theorem append {m'' : Mode} {ds : List Char} (h : m.Reads cs m') (h' : m'.Reads ds m'') :
    m.Reads (cs ++ ds) m'' := by
  intro rest
  rw [List.append_assoc, h (ds ++ rest), h' rest, List.append_assoc]

/-- The text goes on up to a character that ends its token. -/
theorem pieces_after (h : m.Reads cs m') (hcut : (m'.read c).2 = .after) (rest : List Char) :
    pieces m (cs ++ [c] ++ rest) =
      (cs ++ [c], (pieces (m'.read c).1 rest).1 :: (pieces (m'.read c).1 rest).2) := by
  rw [List.append_assoc, List.singleton_append, h (c :: rest), pieces, hcut]

theorem pieces_drop (h : m.Reads cs m') (hcut : (m'.read c).2 = .drop) (rest : List Char) :
    pieces m (cs ++ c :: rest) =
      (cs, (pieces (m'.read c).1 rest).1 :: (pieces (m'.read c).1 rest).2) := by
  rw [h (c :: rest), pieces, hcut, List.append_nil]

theorem pieces_self (h : m.Reads cs m') : pieces m cs = (cs, []) := by
  have hend := h []
  rwa [pieces, List.append_nil] at hend

end Mode.Reads

/-! ### Tokens that are read again -/

/-- A token that ends where it should, whatever blanks follow it and whatever follows those. -/
def Detached (t : Token) : Prop :=
  ∀ rest : String, (∀ c ∈ rest.toList.head?, isBlank c = true) →
    tokenize (t ++ rest) = t :: tokenize rest

/-- Tokens that are read again one by one. Of the last one it is only asked that it is a token of
its own if nothing follows. -/
inductive Rereadable : List Token → Prop where
  /-- No token at all. -/
  | nil : Rereadable []
  /-- The last token. -/
  | last {t : Token} (whole : tokenize t = [t]) : Rereadable [t]
  /-- A token with others behind it. -/
  | cons {t : Token} {ts : List Token} (detached : Detached t) (later : Rereadable ts) :
      Rereadable (t :: ts)

/-- A token is detached if its characters, read from the start of a line, are. -/
theorem detached_ofList {t : List Char}
    (h : ∀ rest : List Char, (∀ c ∈ rest.head?, isBlank c = true) →
      tokenChars (t ++ rest) = t :: tokenChars rest) : Detached (String.ofList t) := by
  intro rest hrest
  rw [tokenize, String.toList_append, String.toList_ofList, h rest.toList hrest, List.map_cons,
    tokenize]

theorem Mode.Reads.tokenize_ofList {t : List Char} {m : Mode} (h : Mode.plain.Reads t m)
    (hne : t ≠ []) : tokenize (String.ofList t) = [String.ofList t] := by
  rw [tokenize, String.toList_ofList, tokenChars, h.pieces_self]
  simp [hne]

/-- A token that its last character ends, with nothing left open, is detached. -/
theorem Mode.Reads.detached_after {t : List Char} {m : Mode} {c : Char}
    (h : Mode.plain.Reads t m) (hcut : (m.read c).2 = .after) (hplain : (m.read c).1 = .plain) :
    Detached (String.ofList (t ++ [c])) := by
  apply detached_ofList
  intro rest _
  rw [tokenChars, h.pieces_after hcut, hplain, tokenChars]
  simp

/-- A token that leaves nothing open is detached, because a blank ends it. -/
theorem Mode.Reads.detached {t : List Char} (h : Mode.plain.Reads t .plain) (hne : t ≠ []) :
    Detached (String.ofList t) := by
  apply detached_ofList
  intro rest hrest
  cases rest with
  | nil =>
    rw [List.append_nil, tokenChars, h.pieces_self]
    simp [hne, tokenChars, pieces]
  | cons c rest =>
    have hblank : isBlank c = true := hrest c rfl
    have hread := Mode.read_plain_of_blank hblank
    rw [tokenChars, h.pieces_drop (by rw [hread]), tokenChars_cons_of_blank hblank, tokenChars,
      hread]
    simp [hne]

/-! ### The tokens of a line are read again -/

/-- No quote of the line stands in a group. -/
def QuotesOutsideGroups (line : String) : Prop :=
  ∀ i < line.toList.length, line.toList[i]? = some '"' → ¬Grouped (line.toList.take i)

instance : DecidablePred QuotesOutsideGroups := fun line =>
  inferInstanceAs (Decidable (∀ i < line.toList.length, _ → ¬_))

theorem QuotesOutsideGroups.not_grouped {line : String} (h : QuotesOutsideGroups line)
    {front back : List Char} (hline : line.toList = front ++ '"' :: back) : ¬Grouped front := by
  have hquote := h front.length
  rw [hline, List.getElem?_append_right (Nat.le_refl _), List.take_left] at hquote
  exact hquote (by simp) (by simp)

/-- Outside of groups, a character that ends its token leaves nothing open. -/
theorem Mode.read_of_after {m : Mode} {c : Char} (hcut : (m.read c).2 = .after)
    (hquote : c = '"' → ¬m.grouped = true) : (m.read c).1 = .plain := by
  rcases Mode.read_eq_after_iff.mp hcut with ⟨rfl, hquoted⟩ | ⟨rfl, hquoted, hgrouped⟩
  · have hgrouped : m.grouped = false := by simpa using hquote rfl
    simp [Mode.read, hquoted, hgrouped, Mode.plain]
  · simp [Mode.read, hquoted, hgrouped, Mode.plain]

/-- A blank is dropped only where nothing is open, and nothing is open behind it. -/
theorem Mode.eq_plain_of_drop {m : Mode} {c : Char} (hcut : (m.read c).2 = .drop) :
    m = .plain ∧ (m.read c).1 = .plain := by
  obtain ⟨hblank, hquoted, hgrouped⟩ := Mode.read_eq_drop_iff.mp hcut
  obtain rfl : m = .plain := by
    obtain ⟨quoted, grouped⟩ := m
    simpa [Mode.plain] using And.intro hquoted hgrouped
  exact ⟨rfl, by rw [Mode.read_plain_of_blank hblank]⟩

/-- **The invariant.** The pass stands behind `front` in a token of which it has read `acc`, and
`acc` would be read from the start of a line to the same mode without a cut. -/
theorem rereadable_tokensLeft (cs : List Char) {front acc : List Char}
    (hacc : Mode.plain.Reads acc (.after front))
    (hquote : ∀ x y, cs = x ++ '"' :: y → ¬Grouped (front ++ x)) :
    Rereadable (tokensLeft (.after front) acc cs) := by
  induction cs generalizing front acc with
  | nil =>
    by_cases hne : acc = []
    · simpa [tokensLeft, pieces, hne] using Rereadable.nil
    · simpa [tokensLeft, pieces, hne] using Rereadable.last (hacc.tokenize_ofList hne)
  | cons c cs ih =>
    have hmode := Mode.after_append_singleton front c
    have hquote' : ∀ x y, cs = x ++ '"' :: y → ¬Grouped (front ++ [c] ++ x) := by
      intro x y hcs
      rw [List.append_assoc, List.singleton_append]
      exact hquote (c :: x) y (by rw [hcs, List.cons_append])
    -- behind a cut the pass begins a token where a line could begin
    have hfresh (hplain : ((Mode.after front).read c).1 = .plain) :
        Rereadable (tokensLeft ((Mode.after front).read c).1 [] cs) := by
      rw [← hmode] at hplain ⊢
      exact ih (hplain ▸ Mode.Reads.nil .plain) hquote'
    cases hcut : ((Mode.after front).read c).2 with
    | none =>
      have hlater := ih (hacc.append (.single (Prod.ext hmode.symm hcut))) hquote'
      rw [hmode] at hlater
      simpa [tokensLeft, pieces, hcut] using hlater
    | after =>
      have hplain : ((Mode.after front).read c).1 = .plain := by
        refine Mode.read_of_after hcut fun hc => ?_
        rw [(Mode.switches_after front).2, ← List.append_nil front]
        exact hquote [] cs (by rw [hc, List.nil_append])
      have hlater := Rereadable.cons (hacc.detached_after hcut hplain) (hfresh hplain)
      simpa [tokensLeft, pieces, hcut] using hlater
    | drop =>
      obtain ⟨hbefore, hplain⟩ := Mode.eq_plain_of_drop hcut
      by_cases hne : acc = []
      · simpa [tokensLeft, pieces, hcut, hne] using hfresh hplain
      · rw [hbefore] at hacc
        have hlater := Rereadable.cons (hacc.detached hne) (hfresh hplain)
        simpa [tokensLeft, pieces, hcut, hne] using hlater

theorem rereadable_tokenize {line : String} (h : QuotesOutsideGroups line) :
    Rereadable (tokenize line) := by
  have hstart : Mode.plain.Reads [] (.after []) := Mode.Reads.nil .plain
  exact rereadable_tokensLeft line.toList hstart fun x y hline => h.not_grouped hline

/-! ### Other blanks -/

namespace Spacing

/-- Any two tokens that follow each other have blanks between them, and no blanks follow the last
one. -/
def Separated (s : Spacing) : Prop :=
  (∀ w ∈ s.words.dropLast, w.2 ≠ "") ∧ ∀ w ∈ s.words.getLast?, w.2 = ""

instance : DecidablePred Separated := fun s =>
  inferInstanceAs (Decidable ((∀ w ∈ s.words.dropLast, _) ∧ ∀ w ∈ s.words.getLast?, _))

/-- Tokens, each with a space behind it but the last. -/
def singleSpaces : List Token → List (Token × String)
  | [] => []
  | [t] => [(t, "")]
  | t :: u :: rest => (t, " ") :: singleSpaces (u :: rest)

theorem map_fst_singleSpaces (ts : List Token) : (singleSpaces ts).map Prod.fst = ts := by
  fun_induction singleSpaces ts <;> simp_all

theorem join_singleSpaces (ts : List Token) :
    String.join ((singleSpaces ts).map fun w => w.1 ++ w.2) = String.intercalate " " ts := by
  fun_induction singleSpaces ts with
  | case1 => rfl
  | case2 t => simp
  | case3 t u rest ih =>
    rw [List.map_cons, String.join_cons, ih, String.intercalate_cons_cons]

theorem isBlank_singleSpaces (ts : List Token) :
    ∀ w ∈ singleSpaces ts, ∀ c ∈ w.2.toList, isBlank c = true := by
  fun_induction singleSpaces ts with
  | case1 => simp
  | case2 t => simp
  | case3 t u rest ih =>
    rw [List.forall_mem_cons]
    exact ⟨by simp [isBlank], ih⟩

theorem ne_empty_of_mem_singleSpaces {ts : List Token} (hne : ∀ t ∈ ts, t ≠ "") :
    ∀ w ∈ singleSpaces ts, w.1 ≠ "" := by
  intro w hw
  exact hne w.1 (map_fst_singleSpaces ts ▸ List.mem_map_of_mem hw)

/-- Tokens with single spaces between them. -/
def joined (ts : List Token) (hne : ∀ t ∈ ts, t ≠ "") : Spacing where
  lead := ""
  words := singleSpaces ts
  isBlank_lead := List.forall_mem_nil _
  ne_empty := ne_empty_of_mem_singleSpaces hne
  isBlank_gap := isBlank_singleSpaces ts

theorem separated_joined (ts : List Token) (hne : ∀ t ∈ ts, t ≠ "") :
    (joined ts hne).Separated := by
  show (∀ w ∈ (singleSpaces ts).dropLast, w.2 ≠ "") ∧ ∀ w ∈ (singleSpaces ts).getLast?, w.2 = ""
  clear hne
  fun_induction singleSpaces ts with
  | case1 => simp
  | case2 t => simp
  | case3 t u rest ih =>
    obtain ⟨w, words, hwords⟩ : ∃ w words, singleSpaces (u :: rest) = w :: words := by
      cases rest <;> exact ⟨_, _, rfl⟩
    rw [hwords] at ih ⊢
    rw [List.dropLast_cons_cons, List.getLast?_cons_cons, List.forall_mem_cons]
    exact ⟨⟨by simp, ih.1⟩, ih.2⟩

end Spacing

/-- What follows a token behind a gap begins with a blank. -/
theorem isBlank_of_mem_head? {gap : String} (hblank : ∀ c ∈ gap.toList, isBlank c = true)
    (hne : gap ≠ "") (rest : String) : ∀ c ∈ (gap ++ rest).toList.head?, isBlank c = true := by
  obtain ⟨first, more, hchars⟩ :=
    List.exists_cons_of_ne_nil (mt String.toList_eq_nil_iff.mp hne)
  intro c hc
  rw [String.toList_append, hchars, List.cons_append, List.head?_cons] at hc
  obtain rfl := Option.some.inj hc
  exact hblank first (by rw [hchars]; exact List.mem_cons_self)

/-- Tokens that can be read again are read again, whatever blanks are put between them. -/
theorem Rereadable.tokenize_join {ts : List Token} (h : Rereadable ts)
    {words : List (Token × String)} (hwords : words.map Prod.fst = ts)
    (hblank : ∀ w ∈ words, ∀ c ∈ w.2.toList, isBlank c = true)
    (hgap : ∀ w ∈ words.dropLast, w.2 ≠ "") (hlast : ∀ w ∈ words.getLast?, w.2 = "") :
    tokenize (String.join (words.map fun w => w.1 ++ w.2)) = ts := by
  induction h generalizing words with
  | nil =>
    obtain rfl := List.map_eq_nil_iff.mp hwords
    rfl
  | @last t whole =>
    obtain ⟨⟨_, gap⟩, rfl, rfl⟩ := List.map_eq_singleton_iff.mp hwords
    obtain rfl : gap = "" := hlast (_, gap) rfl
    simpa using whole
  | @cons t ts detached later ih =>
    obtain ⟨⟨_, gap⟩, words, rfl, rfl, hlater⟩ := List.map_eq_cons_iff.mp hwords
    rw [List.forall_mem_cons] at hblank
    cases words with
    | nil =>
      obtain rfl : gap = "" := hlast (_, gap) rfl
      obtain rfl : ts = [] := hlater.symm
      simpa [tokenize, tokenChars, pieces] using detached "" (by simp)
    | cons w words =>
      rw [List.dropLast_cons_cons, List.forall_mem_cons] at hgap
      rw [List.getLast?_cons_cons] at hlast
      have hrest := ih hlater hblank.2 hgap.2 hlast
      have hhead := isBlank_of_mem_head? hblank.1 hgap.1
        (String.join ((w :: words).map fun w => w.1 ++ w.2))
      rw [List.map_cons, String.join_cons, String.append_assoc, detached _ hhead,
        tokenize_append_of_blank hblank.1, hrest]

/-- **Tokens can be read again.** Take a line in which no quote stands in a group, and write its
tokens down with any blanks in front of the first one and any blanks, but at least one, between
them: it has the same tokens. In particular this is so for single spaces. -/
theorem tokenize_respaced {line : String} (hquote : QuotesOutsideGroups line) :
    (∀ s : Spacing, s.tokens = tokenize line → s.Separated → tokenize s.text = tokenize line) ∧
      tokenize (String.intercalate " " (tokenize line)) = tokenize line := by
  have hrespaced : ∀ s : Spacing, s.tokens = tokenize line → s.Separated →
      tokenize s.text = tokenize line := by
    intro s htokens hseparated
    rw [Spacing.text, tokenize_append_of_blank s.isBlank_lead]
    exact (rereadable_tokenize hquote).tokenize_join htokens s.isBlank_gap hseparated.1 hseparated.2
  refine ⟨hrespaced, ?_⟩
  have hne : ∀ t ∈ tokenize line, t ≠ "" := by
    intro t ht
    obtain ⟨cs, hcs, rfl⟩ := List.mem_map.mp ht
    simpa using ne_nil_of_mem_tokenChars hcs
  have hjoined := hrespaced (.joined (tokenize line) hne)
    (Spacing.map_fst_singleSpaces (tokenize line)) (Spacing.separated_joined _ hne)
  rwa [Spacing.text, Spacing.joined, Spacing.join_singleSpaces, String.empty_append] at hjoined

/-- Tokens cut by a closing quote, a group with blanks in it, a parenthesis that closes nothing and
a quote that is never closed. -/
theorem tokenize_respaced_unclosed :
    let line := "print \"a  b\"c) f(x  y)z \"( d"
    QuotesOutsideGroups line ∧
      tokenize line = ["print", "\"a  b\"", "c)", "f(x  y)", "z", "\"( d"] ∧
      tokenize "\t print  \"a  b\" \t c) f(x  y) z\t\"( d" = tokenize line ∧
      tokenize (String.intercalate " " (tokenize line)) = tokenize line := by
  intro line
  have hquote : QuotesOutsideGroups line := by decide
  have htokens : tokenize line = ["print", "\"a  b\"", "c)", "f(x  y)", "z", "\"( d"] := by decide
  obtain ⟨hrespaced, hsingle⟩ := tokenize_respaced hquote
  refine ⟨hquote, htokens, ?_, hsingle⟩
  exact hrespaced ⟨"\t ", [("print", "  "), ("\"a  b\"", " \t "), ("c)", " "), ("f(x  y)", " "),
    ("z", "\t"), ("\"( d", "")], by simp [isBlank], by decide, by simp [isBlank]⟩ htokens.symm
    (by decide)

/-- A quote inside a group: the blank between the two tokens becomes a part of the second. -/
example : tokenize "f(\"a\"b)" = ["f(\"a\"", "b)"] ∧
    tokenize "f(\"a\" b)" = ["f(\"a\"", " b)"] := by decide

end Flowscript
