import Flowscript.Proofs.Boundaries

/-!
# Which groups stay whole

A parenthesised group is kept together, blanks included, and its closing parenthesis ends the token.
Groups may be nested, but the pass that cuts a line does not count how deep it stands: it leaves a
group at the first closing parenthesis, whichever group that one belongs to.

## What follows from that

From an opening parenthesis up to the first closing one behind it the text lies in one token, and
that token ends there (`exists_mem_tokenSpans_of_paren`). If this is the parenthesis that closes the
group, the group is whole; if it closes a group inside, then the outer one is cut in two. So a group
stays whole exactly if there is no group in it (`group_kept_whole_iff`), and `f((a) b)` is two
tokens.

The lines here have no quotes. A quoted region inside a group cuts it as well, which is said in
`Flowscript.Proofs.Boundaries`.

## Main definitions

* `Balanced` — every parenthesis has its partner.
* `LiesInToken` — a stretch of a line lies inside one token.

## Main results

* `exists_mem_tokenSpans_of_paren` — the token that holds an opening parenthesis.
* `group_kept_whole_iff` — which groups are kept whole.
-/

namespace Flowscript

/-! ### Nesting -/

/-- How many groups are open behind a text, if `depth` of them are open in front of it. There is no
answer if a parenthesis closes a group that was never opened. -/
def parenDepth (depth : Nat) : List Char → Option Nat
  | [] => some depth
  | c :: cs =>
    if c = '(' then parenDepth (depth + 1) cs
    else if c = ')' then
      match depth with
      | 0 => none
      | outer + 1 => parenDepth outer cs
    else parenDepth depth cs

/-- Every parenthesis of the text has its partner in it. What stands between a parenthesis and its
partner is such a text. -/
def Balanced (cs : List Char) : Prop := parenDepth 0 cs = some 0

instance : DecidablePred Balanced := fun cs =>
  inferInstanceAs (Decidable (parenDepth 0 cs = some 0))

theorem count_of_parenDepth {depth last : Nat} {cs : List Char}
    (h : parenDepth depth cs = some last) : depth + cs.count '(' = last + cs.count ')' := by
  fun_induction parenDepth depth cs with
  | case1 depth => simpa using h
  | case2 depth cs ih =>
    have hrest := ih h
    simp
    omega
  | case3 cs => simp at h
  | case4 cs outer hopen ih =>
    have hrest := ih h
    simp
    omega
  | case5 depth c cs hopen hclose ih =>
    have hrest := ih h
    simpa [hopen, hclose] using hrest

/-- Where there is a closing parenthesis, there is an opening one. -/
theorem Balanced.close_mem_iff {cs : List Char} (h : Balanced cs) : ')' ∈ cs ↔ '(' ∈ cs := by
  have hcount := count_of_parenDepth h
  rw [← List.count_pos_iff, ← List.count_pos_iff]
  omega

/-! ### The token of an opening parenthesis -/

namespace Mode

/-- In a group, the token that began at byte `b` goes on up to the first closing parenthesis. -/
theorem mem_spans_of_close {u : List Char} (hquote : '"' ∉ u) (hclose : ')' ∉ u) (b i : Nat)
    (rest : List Char) :
    ⟨b, i + byteLength u + 1⟩ ∈ Mode.spans ⟨false, true⟩ (some b) i (u ++ ')' :: rest) := by
  induction u generalizing i with
  | nil => simp [Mode.spans, Mode.read]
  | cons c u ih =>
    obtain ⟨hq, hquote⟩ : '"' ≠ c ∧ '"' ∉ u := by simpa using hquote
    obtain ⟨hc, hclose⟩ : ')' ≠ c ∧ ')' ∉ u := by simpa using hclose
    have hread : Mode.read ⟨false, true⟩ c = (⟨false, true⟩, .none) := by
      simp [Mode.read, hq.symm, hc.symm]
    have hlater := ih hquote hclose (i + c.utf8Size)
    rw [List.cons_append, Mode.spans, hread, byteLength_cons, ← Nat.add_assoc]
    exact hlater

/-- The token of an opening parenthesis begins there or before it, wherever the pass stands, and
ends behind the first closing one. -/
theorem exists_mem_spans_of_paren {front u : List Char} (hfront : '"' ∉ front) (hquote : '"' ∉ u)
    (hclose : ')' ∉ u) (rest : List Char) {m : Mode} (hm : ¬m.quoted = true) {start : Option Nat}
    {i : Nat} (hstart : ∀ b ∈ start, b ≤ i) :
    ∃ b ≤ i + byteLength front, ⟨b, i + byteLength (front ++ '(' :: u) + 1⟩ ∈
      m.spans start i (front ++ '(' :: u ++ ')' :: rest) := by
  induction front generalizing m start i with
  | nil =>
    have hread : m.read '(' = (⟨false, true⟩, .none) := by simp [Mode.read, hm]
    refine ⟨start.getD i, ?_, ?_⟩
    · cases start with
      | none => exact Nat.le_refl i
      | some b => exact hstart b rfl
    · have hmem := mem_spans_of_close hquote hclose (start.getD i) (i + '('.utf8Size) rest
      rw [List.nil_append, List.cons_append, Mode.spans, hread, byteLength_cons, ← Nat.add_assoc]
      exact hmem
  | cons c front ih =>
    obtain ⟨hq, hfront⟩ : '"' ≠ c ∧ '"' ∉ front := by simpa using hfront
    have hm' : ¬(m.read c).1.quoted = true := by
      rw [Mode.quoted_read]
      simpa [hq.symm] using hm
    -- only the offset where the token began differs between the three cuts
    have hlater (start' : Option Nat) (hstart' : ∀ b ∈ start', b ≤ i + c.utf8Size) := by
      have hfound := ih hfront hm' hstart'
      rw [Nat.add_assoc, ← byteLength_cons, Nat.add_assoc i, ← byteLength_cons,
        ← List.cons_append] at hfound
      exact hfound
    rw [List.cons_append, List.cons_append, Mode.spans]
    cases (m.read c).2 with
    | none =>
      refine hlater (some (start.getD i)) fun b hb => ?_
      obtain rfl := Option.some.inj hb
      cases start with
      | none => exact Nat.le_add_right i _
      | some b => exact Nat.le_add_right_of_le (hstart b rfl)
    | after =>
      obtain ⟨b, hb, hmem⟩ := hlater none (by simp)
      exact ⟨b, hb, List.mem_cons_of_mem _ hmem⟩
    | drop =>
      obtain ⟨b, hb, hmem⟩ := hlater none (by simp)
      exact ⟨b, hb, List.mem_append_right _ hmem⟩

end Mode

/-- **The token of an opening parenthesis** ends behind the first closing one. -/
theorem exists_mem_tokenSpans_of_paren {line : String} (hquote : '"' ∉ line.toList)
    {front u rest : List Char} (hline : line.toList = front ++ '(' :: u ++ ')' :: rest)
    (hclose : ')' ∉ u) :
    ∃ b ≤ byteLength front, ⟨b, byteLength (front ++ '(' :: u ++ [')'])⟩ ∈ tokenSpans line := by
  rw [hline] at hquote
  simp only [List.mem_append, List.mem_cons, not_or] at hquote
  obtain ⟨⟨hfront, -, hu⟩, -⟩ := hquote
  have hfound : ∃ b ≤ 0 + byteLength front, ⟨b, 0 + byteLength (front ++ '(' :: u) + 1⟩ ∈
      Mode.plain.spans none 0 (front ++ '(' :: u ++ ')' :: rest) :=
    Mode.exists_mem_spans_of_paren hfront hu hclose rest (by decide) (by simp)
  rw [Nat.zero_add, Nat.zero_add, ← hline] at hfound
  rw [byteLength_append _ [')']]
  exact hfound

/-! ### Stretches inside one token -/

/-- The stretch `text` of a line, which stands behind `front`, lies inside one token. -/
def LiesInToken (line : String) (front text : List Char) : Prop :=
  ∃ p ∈ tokenSpans line, ∃ token ∈ tokenize line, sliceAt? line p = some token ∧
    p.start ≤ byteLength front ∧ byteLength (front ++ text) ≤ p.stop

theorem exists_token_of_mem_tokenSpans {line : String} {p : Span} (h : p ∈ tokenSpans line) :
    ∃ token ∈ tokenize line, sliceAt? line p = some token := by
  obtain ⟨s, rfl, htokens, hspans⟩ := exists_spacing_tokenize line
  have hslice : sliceAt? s.text p ∈ (s.spans 0).map (sliceAt? s.text) :=
    List.mem_map_of_mem (hspans ▸ h)
  rw [s.map_sliceAt?_spans, htokens, List.mem_map] at hslice
  obtain ⟨token, htoken, hslice⟩ := hslice
  exact ⟨token, htoken, hslice.symm⟩

/-- Two tokens of a line are the same, or one of them ends before the other begins. -/
theorem eq_or_le_of_mem_tokenSpans {line : String} {p q : Span} (hp : p ∈ tokenSpans line)
    (hq : q ∈ tokenSpans line) : p = q ∨ p.stop ≤ q.start ∨ q.stop ≤ p.start := by
  obtain ⟨s, rfl, -, hspans⟩ := exists_spacing_tokenize line
  rw [← hspans] at hp hq
  obtain ⟨before, after, hsplit⟩ := List.append_of_mem hp
  have hpairwise := s.pairwise_spans 0
  rw [hsplit, List.pairwise_append, List.pairwise_cons] at hpairwise
  obtain ⟨-, ⟨hafter, -⟩, hbefore⟩ := hpairwise
  rw [hsplit, List.mem_append, List.mem_cons] at hq
  rcases hq with hq | rfl | hq
  · exact .inr (.inr (hbefore q hq p List.mem_cons_self))
  · exact .inl rfl
  · exact .inr (.inl (hafter q hq))

/-- **A group is kept whole exactly if there is no group in it.** Take a line without quotes, and in
it a parenthesis and its partner. The text between them, with both parentheses, lies inside one
token if and only if it has no other opening parenthesis. -/
theorem group_kept_whole_iff {line : String} (hquote : '"' ∉ line.toList)
    {front inner back : List Char} (hline : line.toList = front ++ '(' :: inner ++ ')' :: back)
    (hinner : Balanced inner) :
    LiesInToken line front ('(' :: inner ++ [')']) ↔ '(' ∉ inner := by
  rw [← hinner.close_mem_iff]
  constructor
  · rintro ⟨q, hq, -, -, -, hstart, hstop⟩ hmem
    -- the token ends behind the first closing parenthesis, which is not the last one
    obtain ⟨u, v, rfl, hclose⟩ := List.eq_append_cons_of_mem hmem
    have hcut : line.toList = front ++ '(' :: u ++ ')' :: (v ++ ')' :: back) := by
      rw [hline]
      simp
    obtain ⟨b, hb, hp⟩ := exists_mem_tokenSpans_of_paren hquote hcut hclose
    have hbehind : byteLength front < byteLength (front ++ '(' :: u ++ [')']) ∧
        byteLength (front ++ '(' :: u ++ [')']) <
          byteLength (front ++ ('(' :: (u ++ ')' :: v) ++ [')'])) := by
      have hsize : ')'.utf8Size = 1 := rfl
      simp only [byteLength_append, byteLength_cons, byteLength_nil, hsize]
      omega
    rcases eq_or_le_of_mem_tokenSpans hp hq with rfl | hle | hle
    · exact absurd hstop (Nat.not_le.mpr hbehind.2)
    · exact absurd (hle.trans hstart) (Nat.not_le.mpr hbehind.1)
    · have hbefore : q.stop ≤ byteLength front := hle.trans hb
      omega
  · intro hclose
    obtain ⟨b, hb, hp⟩ := exists_mem_tokenSpans_of_paren hquote hline hclose
    obtain ⟨token, htoken, hslice⟩ := exists_token_of_mem_tokenSpans hp
    refine ⟨_, hp, token, htoken, hslice, hb, ?_⟩
    rw [List.append_assoc]

/-- A group with no group in it is whole, blanks and all, and so is the inner one of two. -/
theorem group_kept_whole_iff_nested :
    let line := "g(x y) f((a) b)"
    '"' ∉ line.toList ∧ Balanced "x y".toList ∧ Balanced "a".toList ∧
      LiesInToken line "g".toList "(x y)".toList ∧
      LiesInToken line "g(x y) f(".toList "(a)".toList ∧
      ¬LiesInToken line "g(x y) f".toList "((a) b)".toList := by
  intro line
  have hquote : '"' ∉ line.toList := by decide
  have hfirst : line.toList = "g".toList ++ '(' :: "x y".toList ++ ')' :: " f((a) b)".toList := by
    decide
  have hinner : line.toList = "g(x y) f(".toList ++ '(' :: "a".toList ++ ')' :: " b)".toList := by
    decide
  have houter : line.toList = "g(x y) f".toList ++ '(' :: "(a) b".toList ++ ')' :: [] := by
    decide
  refine ⟨hquote, by decide, by decide, ?_, ?_, ?_⟩
  · exact (group_kept_whole_iff hquote hfirst (by decide)).mpr (by decide)
  · exact (group_kept_whole_iff hquote hinner (by decide)).mpr (by decide)
  · rw [show "((a) b)".toList = '(' :: "(a) b".toList ++ [')'] from rfl,
      group_kept_whole_iff hquote houter (by decide)]
    decide

/-- A group that has a group in it is cut behind the inner one: it lies in no token. -/
theorem group_not_kept_whole :
    '"' ∉ "f((a) b)".toList ∧ Balanced "(a) b".toList ∧ tokenize "f((a) b)" = ["f((a)", "b)"] ∧
      ¬LiesInToken "f((a) b)" "f".toList "((a) b)".toList := by
  refine ⟨by decide, by decide, by decide, ?_⟩
  rintro ⟨p, hp, -, -, -, hstart, hstop⟩
  have hspans : tokenSpans "f((a) b)" = [⟨0, 5⟩, ⟨6, 8⟩] := by decide
  rw [hspans, List.mem_cons, List.mem_singleton] at hp
  rcases hp with rfl | rfl
  · exact absurd hstop (by decide)
  · exact absurd hstart (by decide)

end Flowscript
