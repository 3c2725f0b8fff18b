import Flowscript.Text.Lines
import Flowscript.Token
import Mathlib.Data.String.Basic

/-!
# Tokens are slices of their line

Tokenizing builds no text: every token stands in its line, and a pass that only keeps byte offsets
finds all of them. This module spells that pass out, shows that it may cut its slices wherever it
does, and that they are the tokens.

## What can go wrong with offsets

A slice of a text has to begin and end between two characters, and a character takes one to four
bytes. The pass ends a token behind a quote or a parenthesis by adding one to the offset of that
character, which is right for these two characters and for no others that may stand there.
`sliceAt?` gives nothing for a slice that cuts a character in two, so the equation with the tokens
says that this never happens.

## The invariant

The pass stands somewhere inside a token, or between tokens. What it has read of the token it stands
in is a text `acc`, empty between tokens; the offset it remembers is where `acc` begins. The rest of
the line is then `acc` and the characters to come, and that text is taken apart into tokens and
blanks (`Mode.exists_spacing`).

## Main definitions

* `sliceAt?` — the text of a stretch of a line, if it is one.
* `tokenSpans` — the stretches of a line that the pass finds.
* `Spacing` — a line taken apart into tokens and the blanks around them.

## Main results

* `Spacing.map_sliceAt?_spans` — the tokens of a spacing are slices.
* `exists_spacing_tokenize` — every line is a spacing of its tokens, which stand where the pass
  finds them.
* `tokens_are_slices` — what follows for the slices.
-/

namespace Flowscript

/-! ### Slices -/

/-- The text of a stretch of a line. There is none if the ends are in the wrong order, or if one of
them lies inside a character or behind the line. -/
def sliceAt? (line : String) (s : Span) : Option String :=
  if s.start ≤ s.stop ∧ (String.Pos.Raw.mk s.start).IsValid line ∧
      (String.Pos.Raw.mk s.stop).IsValid line then
    some (String.Pos.Raw.extract line ⟨s.start⟩ ⟨s.stop⟩)
  else none

theorem isValid_utf8ByteSize (front back : String) :
    (String.Pos.Raw.mk front.utf8ByteSize).IsValid (front ++ back) :=
  String.Pos.Raw.isValid_iff_exists_append.mpr ⟨front, back, rfl, rfl⟩

theorem utf8Len_eq_utf8ByteSize (s : String) : String.utf8Len s.toList = s.utf8ByteSize := by
  rw [← String.utf8ByteSize_ofList, String.ofList_toList]

/-- What stands between two texts is the slice between their lengths. -/
theorem sliceAt?_append (front text back : String) :
    sliceAt? (front ++ text ++ back)
      ⟨front.utf8ByteSize, front.utf8ByteSize + text.utf8ByteSize⟩ = some text := by
  have hstart := isValid_utf8ByteSize front (text ++ back)
  have hstop := isValid_utf8ByteSize (front ++ text) back
  rw [← String.append_assoc] at hstart
  rw [String.utf8ByteSize_append] at hstop
  have hextract := String.extract_of_valid front.toList text.toList back.toList
  rw [utf8Len_eq_utf8ByteSize, utf8Len_eq_utf8ByteSize, ← String.toList_append,
    ← String.toList_append, String.ofList_toList, String.ofList_toList] at hextract
  rw [sliceAt?, if_pos ⟨Nat.le_add_right _ _, hstart, hstop⟩, hextract]

theorem isValid_of_sliceAt? {line text : String} {s : Span} (h : sliceAt? line s = some text) :
    (String.Pos.Raw.mk s.start).IsValid line ∧ (String.Pos.Raw.mk s.stop).IsValid line := by
  by_cases hvalid : s.start ≤ s.stop ∧ (String.Pos.Raw.mk s.start).IsValid line ∧
      (String.Pos.Raw.mk s.stop).IsValid line
  · exact hvalid.2
  · rw [sliceAt?, if_neg hvalid] at h
    cases h

/-! ### The pass with offsets -/

/-- The stretches of the tokens in the rest of a line, which is read from mode `m` and begins at
byte `i`. The token that the pass stands in, if it stands in one, began at byte `start`. -/
def Mode.spans (m : Mode) (start : Option Nat) (i : Nat) : List Char → List Span
  | [] => (start.map fun b => ⟨b, i⟩).toList
  | c :: cs =>
    match (m.read c).2 with
    | .none => spans (m.read c).1 (some (start.getD i)) (i + c.utf8Size) cs
    -- the character itself is the last byte of the token
    | .after => ⟨start.getD i, i + 1⟩ :: spans (m.read c).1 none (i + c.utf8Size) cs
    | .drop =>
      (start.map fun b => ⟨b, i⟩).toList ++ spans (m.read c).1 none (i + c.utf8Size) cs

/-- The stretches of the tokens of a line. -/
def tokenSpans (line : String) : List Span := Mode.plain.spans none 0 line.toList

namespace Mode

/-- Where a token ends behind the character that is read. -/
theorem read_eq_after_iff {m : Mode} {c : Char} :
    (m.read c).2 = .after ↔
      (c = '"' ∧ m.quoted = true) ∨ (c = ')' ∧ ¬m.quoted = true ∧ m.grouped = true) := by
  unfold read
  grind

/-- Where the character that is read is left out. -/
theorem read_eq_drop_iff {m : Mode} {c : Char} :
    (m.read c).2 = .drop ↔ isBlank c = true ∧ ¬m.quoted = true ∧ ¬m.grouped = true := by
  unfold read
  grind [isBlank]

/-- Only a quote or a parenthesis ends a token behind itself, and both take one byte. -/
theorem utf8Size_of_after {m : Mode} {c : Char} (h : (m.read c).2 = .after) : c.utf8Size = 1 := by
  rcases read_eq_after_iff.mp h with ⟨rfl, -⟩ | ⟨rfl, -⟩ <;> rfl

end Mode

/-! ### Lines taken apart -/

/-- A line taken apart: blanks, and then tokens with blanks behind each of them. -/
structure Spacing where
  /-- The blanks in front of the first token. -/
  lead : String
  /-- The tokens, each with the blanks behind it. -/
  words : List (Token × String)
  /-- There is nothing but blanks in front. -/
  isBlank_lead : ∀ c ∈ lead.toList, isBlank c = true
  /-- No token is empty. -/
  ne_empty : ∀ w ∈ words, w.1 ≠ ""
  /-- There is nothing but blanks behind a token. -/
  isBlank_gap : ∀ w ∈ words, ∀ c ∈ w.2.toList, isBlank c = true

namespace Spacing

/-- The line. -/
def text (s : Spacing) : String := s.lead ++ String.join (s.words.map fun w => w.1 ++ w.2)

/-- The tokens. -/
def tokens (s : Spacing) : List Token := s.words.map Prod.fst

/-- Where tokens stand that follow each other, with blanks behind each, from byte `i` on. -/
def places (i : Nat) : List (Token × String) → List Span
  | [] => []
  | (t, gap) :: rest =>
    ⟨i, i + t.utf8ByteSize⟩ :: places (i + t.utf8ByteSize + gap.utf8ByteSize) rest

/-- Where the tokens stand, if the line begins at byte `i`. -/
def spans (s : Spacing) (i : Nat) : List Span := places (i + s.lead.utf8ByteSize) s.words

/-! ### Building a line from its end -/

/-- The empty line. -/
def empty : Spacing := ⟨"", [], by simp, by simp, by simp⟩

/-- A line with one more blank in front. -/
def indent (c : Char) (hc : isBlank c = true) (s : Spacing) : Spacing where
  lead := String.ofList [c] ++ s.lead
  words := s.words
  isBlank_lead := by simpa [hc] using s.isBlank_lead
  ne_empty := s.ne_empty
  isBlank_gap := s.isBlank_gap

/-- A line with one more token in front, given by its characters. Without characters there is no
token. -/
def cons (t : List Char) (s : Spacing) : Spacing :=
  if ht : t = [] then s
  else
    { lead := ""
      words := (String.ofList t, s.lead) :: s.words
      isBlank_lead := by simp
      ne_empty := List.forall_mem_cons.mpr ⟨by simpa using ht, s.ne_empty⟩
      isBlank_gap := List.forall_mem_cons.mpr ⟨s.isBlank_lead, s.isBlank_gap⟩ }

@[simp] theorem toList_text_empty : empty.text.toList = [] := by simp [text, empty]

@[simp] theorem tokens_empty : empty.tokens = [] := rfl

@[simp] theorem spans_empty (i : Nat) : empty.spans i = [] := rfl

@[simp] theorem toList_text_indent (c : Char) (hc : isBlank c = true) (s : Spacing) :
    (s.indent c hc).text.toList = c :: s.text.toList := by
  simp [text, indent]

@[simp] theorem tokens_indent (c : Char) (hc : isBlank c = true) (s : Spacing) :
    (s.indent c hc).tokens = s.tokens := rfl

@[simp] theorem spans_indent (c : Char) (hc : isBlank c = true) (s : Spacing) (i : Nat) :
    (s.indent c hc).spans i = s.spans (i + c.utf8Size) := by
  simp [spans, indent, Nat.add_assoc]

@[simp] theorem toList_text_cons (t : List Char) (s : Spacing) :
    (s.cons t).text.toList = t ++ s.text.toList := by
  by_cases ht : t = [] <;> simp [text, cons, ht]

@[simp] theorem tokens_cons (t : List Char) (s : Spacing) :
    (s.cons t).tokens = (if t = [] then [] else [String.ofList t]) ++ s.tokens := by
  by_cases ht : t = [] <;> simp [tokens, cons, ht]

@[simp] theorem spans_cons (t : List Char) (s : Spacing) (i : Nat) :
    (s.cons t).spans i =
      (if t = [] then [] else [⟨i, i + byteLength t⟩]) ++ s.spans (i + byteLength t) := by
  by_cases ht : t = []
  · simp [cons, ht]
  · simp [spans, cons, places, ht, byteLength_eq_utf8ByteSize]

/-! ### What every spacing has -/

section Places

variable {words : List (Token × String)} {i : Nat} {p : Span}

/-- Tokens that follow some text stand where their places are counted from its end. -/
theorem map_sliceAt?_places (words : List (Token × String)) (front : String) :
    (places front.utf8ByteSize words).map
        (sliceAt? (front ++ String.join (words.map fun w => w.1 ++ w.2))) =
      (words.map Prod.fst).map some := by
  -- the text in front of the tokens that are left grows by one token and the blanks behind it
  induction words generalizing front with
  | nil => rfl
  | cons w words ih =>
    obtain ⟨t, gap⟩ := w
    have hline : front ++ String.join (((t, gap) :: words).map fun w => w.1 ++ w.2) =
        front ++ t ++ gap ++ String.join (words.map fun w => w.1 ++ w.2) := by
      simp [String.append_assoc]
    have hhead := sliceAt?_append front t (gap ++ String.join (words.map fun w => w.1 ++ w.2))
    rw [← String.append_assoc] at hhead
    have hrest := ih (front ++ t ++ gap)
    rw [String.utf8ByteSize_append, String.utf8ByteSize_append] at hrest
    rw [places, List.map_cons, hline, hhead, hrest, List.map_cons, List.map_cons]

theorem le_start_of_mem_places (h : p ∈ places i words) : i ≤ p.start := by
  induction words generalizing i with
  | nil => exact absurd h List.not_mem_nil
  | cons w words ih =>
    rw [places, List.mem_cons] at h
    rcases h with rfl | h
    · exact Nat.le_refl _
    · have hlater := ih h
      omega

theorem pairwise_places (words : List (Token × String)) (i : Nat) :
    (places i words).Pairwise fun p q => p.stop ≤ q.start := by
  induction words generalizing i with
  | nil => exact .nil
  | cons w words ih =>
    refine .cons (fun q hq => ?_) (ih _)
    exact (Nat.le_add_right _ _).trans (le_start_of_mem_places hq)

theorem start_lt_stop_of_mem_places (hne : ∀ w ∈ words, w.1 ≠ "") (h : p ∈ places i words) :
    p.start < p.stop := by
  induction words generalizing i with
  | nil => exact absurd h List.not_mem_nil
  | cons w words ih =>
    obtain ⟨hword, hne⟩ := List.forall_mem_cons.mp hne
    rw [places, List.mem_cons] at h
    rcases h with rfl | h
    · have hpos : 0 < w.1.utf8ByteSize :=
        Nat.pos_of_ne_zero (mt String.utf8ByteSize_eq_zero_iff.mp hword)
      show i < i + w.1.utf8ByteSize
      omega
    · exact ih hne h

end Places

/-- **The tokens of a spacing are slices of its line.** -/
theorem map_sliceAt?_spans (s : Spacing) :
    (s.spans 0).map (sliceAt? s.text) = s.tokens.map some := by
  have hplaces := map_sliceAt?_places s.words s.lead
  rwa [spans, Nat.zero_add, text, tokens]

/-- The stretches of the tokens of a spacing do not overlap and come in order. -/
theorem pairwise_spans (s : Spacing) (i : Nat) :
    (s.spans i).Pairwise fun p q => p.stop ≤ q.start :=
  pairwise_places s.words _

theorem start_lt_stop (s : Spacing) {i : Nat} {p : Span} (h : p ∈ s.spans i) :
    p.start < p.stop :=
  start_lt_stop_of_mem_places s.ne_empty h

end Spacing

/-! ### What the pass finds -/

/-- Where the token began of which the pass has read `acc`, if it stands in one. -/
def tokenStart (acc : List Char) (b : Nat) : Option Nat := if acc = [] then none else some b

theorem tokenStart_nil (b : Nat) : tokenStart [] b = none := rfl

theorem tokenStart_append_singleton (acc : List Char) (c : Char) (b : Nat) :
    tokenStart (acc ++ [c]) b = some b := by
  simp [tokenStart]

theorem getD_tokenStart (acc : List Char) (b : Nat) :
    (tokenStart acc b).getD (b + byteLength acc) = b := by
  by_cases hacc : acc = [] <;> simp [tokenStart, hacc]

theorem toList_map_tokenStart (acc : List Char) (b i : Nat) :
    ((tokenStart acc b).map fun b => (⟨b, i⟩ : Span)).toList =
      if acc = [] then [] else [⟨b, i⟩] := by
  by_cases hacc : acc = [] <;> simp [tokenStart, hacc]

/-- The tokens that the pass has left: the one it stands in, of which it has read `acc`, and those
behind it. -/
def tokensLeft (m : Mode) (acc cs : List Char) : List Token :=
  (((acc ++ (pieces m cs).1) :: (pieces m cs).2).filter (· ≠ [])).map String.ofList

/-- **The pass takes a line apart.** It has read `acc` of the token it stands in, which began at
byte `b`, and `cs` is to come. -/
theorem Mode.exists_spacing (m : Mode) (cs acc : List Char) (b : Nat) :
    ∃ s : Spacing, s.text.toList = acc ++ cs ∧ s.tokens = tokensLeft m acc cs ∧
      s.spans b = m.spans (tokenStart acc b) (b + byteLength acc) cs := by
  induction cs generalizing m acc b with
  | nil =>
    refine ⟨Spacing.empty.cons acc, by simp, ?_, ?_⟩
    · by_cases hacc : acc = [] <;> simp [tokensLeft, pieces, hacc]
    · simp [Mode.spans, toList_map_tokenStart]
  | cons c cs ih =>
    cases hcut : (m.read c).2 with
    | none =>
      obtain ⟨s, htext, htokens, hspans⟩ := ih (m.read c).1 (acc ++ [c]) b
      refine ⟨s, by simpa using htext, ?_, ?_⟩
      · simpa [tokensLeft, pieces, hcut] using htokens
      · rw [hspans, Mode.spans, hcut, tokenStart_append_singleton]
        simp [getD_tokenStart, Nat.add_assoc]
    | after =>
      obtain ⟨s, htext, htokens, hspans⟩ := ih (m.read c).1 [] (b + byteLength acc + c.utf8Size)
      refine ⟨s.cons (acc ++ [c]), by simp [htext], ?_, ?_⟩
      · simp [htokens, tokensLeft, pieces, hcut]
      · have hsize := Mode.utf8Size_of_after hcut
        rw [tokenStart_nil, byteLength_nil, Nat.add_zero, hsize] at hspans
        rw [Mode.spans, hcut, Spacing.spans_cons]
        simp [getD_tokenStart, hspans, hsize, ← Nat.add_assoc]
    | drop =>
      obtain ⟨s, htext, htokens, hspans⟩ := ih (m.read c).1 [] (b + byteLength acc + c.utf8Size)
      have hblank : isBlank c = true := (Mode.read_eq_drop_iff.mp hcut).1
      refine ⟨(s.indent c hblank).cons acc, by simp [htext], ?_, ?_⟩
      · by_cases hacc : acc = [] <;> simp [htokens, tokensLeft, pieces, hcut, hacc]
      · rw [tokenStart_nil, byteLength_nil, Nat.add_zero] at hspans
        rw [Mode.spans, hcut, Spacing.spans_cons, Spacing.spans_indent, hspans]
        simp only [toList_map_tokenStart]

/-- Every line is a spacing of its tokens, which stand where the pass finds them. -/
theorem exists_spacing_tokenize (line : String) :
    ∃ s : Spacing, s.text = line ∧ s.tokens = tokenize line ∧ s.spans 0 = tokenSpans line := by
  obtain ⟨s, htext, htokens, hspans⟩ := Mode.plain.exists_spacing line.toList [] 0
  exact ⟨s, String.toList_inj.mp htext, htokens, hspans⟩

/-- **The tokenizer loses nothing but blanks.** A line is its tokens with nothing but blanks around
them. The pass over the line finds each token as the slice between two byte offsets; both lie
between characters, so that every slice it takes is there, and the slices do not overlap and come in
order. -/
theorem tokens_are_slices (line : String) :
    (∃ s : Spacing, s.text = line ∧ s.tokens = tokenize line ∧ s.spans 0 = tokenSpans line) ∧
      (tokenSpans line).map (sliceAt? line) = (tokenize line).map some ∧
      (∀ p ∈ tokenSpans line, p.start < p.stop ∧ (String.Pos.Raw.mk p.start).IsValid line ∧
        (String.Pos.Raw.mk p.stop).IsValid line) ∧
      (tokenSpans line).Pairwise fun p q => p.stop ≤ q.start := by
  obtain ⟨s, rfl, htokens, hspans⟩ := exists_spacing_tokenize line
  have hslices := s.map_sliceAt?_spans
  rw [← htokens, ← hspans]
  refine ⟨⟨s, rfl, rfl, rfl⟩, hslices, fun p hp => ⟨s.start_lt_stop hp, ?_⟩, s.pairwise_spans 0⟩
  have hslice : sliceAt? s.text p ∈ (s.spans 0).map (sliceAt? s.text) := List.mem_map_of_mem hp
  rw [hslices, List.mem_map] at hslice
  obtain ⟨token, -, hslice⟩ := hslice
  exact isValid_of_sliceAt? hslice.symm

example : tokenSpans "é \"日\"x" = [⟨0, 2⟩, ⟨3, 8⟩, ⟨8, 9⟩] := by decide

end Flowscript
