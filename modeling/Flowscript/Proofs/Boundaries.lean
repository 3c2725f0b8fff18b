import Flowscript.Proofs.Slices
import Mathlib.Algebra.Ring.Parity
import Mathlib.Data.List.Induction
import Mathlib.Data.List.ReduceOption

/-!
# Where tokens begin and end

A line is cut by a pass that remembers two switches. Where it cuts can be said without the pass: it
depends on the quotes and parentheses in front of a place, and on nothing behind it. This module
says it so, and shows that the tokens of a line are what is left between the cuts.

## Places

A place in a line is given by the text in front of it. It is quoted if that text has an odd number
of quotes. It lies in a group if the text has a parenthesis that opens a group and the group is not
closed since; only a parenthesis outside quotes and outside all groups opens one, so the definition
of `Grouped` refers to itself, for the shorter text in front of that parenthesis.

## Cutting

`marked` puts a mark wherever a line is cut: behind a quote with an even number, behind a
parenthesis that closes a group, and in the place of a blank outside quotes and groups. The pieces
are what stands between the marks.

## Main definitions

* `Quoted`, `Grouped` — what may be asked of a place.
* `cutPieces` — a line, cut at the marks.
* `TokenBoundary` — a token begins or ends at a place.

## Main results

* `Mode.switches_after` — the switches of the pass are the two questions.
* `map_reduceOption_markedFrom` — the pass cuts at the marks.
* `tokenize_cuts_exactly` — tokens are the pieces that are not empty, and where their ends can lie.
-/

namespace Flowscript

/-! ### Places in a line -/

/-- The place behind `front` is quoted: an odd number of quotes stands in front of it. -/
def Quoted (front : List Char) : Prop := Odd (front.count '"')

instance : DecidablePred Quoted := fun front => inferInstanceAs (Decidable (Odd (front.count '"')))

/-- The place behind `front` lies in a group. A group runs from a parenthesis that is outside quotes
and outside of any group up to the first closing one behind it that is outside quotes. -/
def Grouped (front : List Char) : Prop :=
  ∃ (before inside : List Char) (_ : front = before ++ '(' :: inside),
    ¬Quoted before ∧ ¬Grouped before ∧
      ∀ x y, inside = x ++ ')' :: y → Quoted (before ++ '(' :: x)
termination_by front.length
decreasing_by
  subst front
  rw [List.length_append, List.length_cons]
  omega

theorem not_quoted_nil : ¬Quoted [] := by
  simp [Quoted]

theorem quoted_append_singleton (front : List Char) (c : Char) :
    Quoted (front ++ [c]) ↔ (c = '"' ↔ ¬Quoted front) := by
  by_cases hc : c = '"'
  · simp [Quoted, hc, parity_simps]
  · simp [Quoted, hc]

theorem not_grouped_nil : ¬Grouped [] := by
  rw [Grouped]
  rintro ⟨before, inside, hfront, -⟩
  simp at hfront

/-- What one more character does to the place behind it: it opens a group there, or the place lies
in the group of the place before unless the character closes it. -/
theorem grouped_append_singleton (front : List Char) (c : Char) :
    Grouped (front ++ [c]) ↔
      (c = '(' ∧ ¬Quoted front ∧ ¬Grouped front) ∨ (Grouped front ∧ (c = ')' → Quoted front)) := by
  constructor
  · intro h
    rw [Grouped] at h
    obtain ⟨before, inside, hfront, hquoted, hgrouped, hopen⟩ := h
    rcases List.eq_nil_or_concat inside with rfl | ⟨inner, last, rfl⟩
    · obtain ⟨rfl, hc⟩ := List.append_inj' hfront rfl
      obtain ⟨rfl, -⟩ := List.cons.inj hc
      exact .inl ⟨rfl, hquoted, hgrouped⟩
    · rw [List.concat_eq_append, ← List.cons_append, ← List.append_assoc] at hfront
      obtain ⟨rfl, hc⟩ := List.append_inj' hfront rfl
      obtain ⟨rfl, -⟩ := List.cons.inj hc
      refine .inr ⟨?_, fun hclose => hopen inner [] (by rw [hclose, List.concat_eq_append])⟩
      rw [Grouped]
      refine ⟨before, inner, rfl, hquoted, hgrouped, fun x y hinner => ?_⟩
      exact hopen x (y ++ [c]) (by simp [hinner])
  · rintro (⟨rfl, hquoted, hgrouped⟩ | ⟨hgroup, hclose⟩)
    · rw [Grouped]
      exact ⟨front, [], rfl, hquoted, hgrouped, fun x y hnil => by simp at hnil⟩
    · rw [Grouped] at hgroup ⊢
      obtain ⟨before, inside, rfl, hquoted, hgrouped, hopen⟩ := hgroup
      refine ⟨before, inside ++ [c], by simp, hquoted, hgrouped, fun x y hinside => ?_⟩
      -- the closing parenthesis is the new character, or it was there before
      rcases List.eq_nil_or_concat y with rfl | ⟨y, last, rfl⟩
      · obtain ⟨rfl, hc⟩ := List.append_inj' hinside rfl
        exact hclose (List.cons.inj hc).1
      · rw [List.concat_eq_append, ← List.cons_append, ← List.append_assoc] at hinside
        exact hopen x y (List.append_inj' hinside rfl).1

/-! ### The switches of the pass -/

namespace Mode

/-- A quote turns the first switch over, and nothing else does. -/
theorem quoted_read (m : Mode) (c : Char) :
    (m.read c).1.quoted = true ↔ (c = '"' ↔ ¬m.quoted = true) := by
  unfold read
  split_ifs <;> simp_all

/-- A parenthesis outside quotes sets the second switch, and nothing else does. -/
theorem grouped_read (m : Mode) (c : Char) :
    (m.read c).1.grouped = true ↔
      (c = '(' ∧ ¬m.quoted = true ∧ ¬m.grouped = true) ∨
        (m.grouped = true ∧ (c = ')' → m.quoted = true)) := by
  unfold read
  split_ifs <;> simp_all

/-- The mode in which the pass stands behind `front`. -/
def after (front : List Char) : Mode := front.foldl (fun m c => (m.read c).1) .plain

theorem after_append_singleton (front : List Char) (c : Char) :
    after (front ++ [c]) = ((after front).read c).1 := by
  simp [after]

/-- **The switches say where a place lies.** -/
theorem switches_after (front : List Char) :
    ((after front).quoted = true ↔ Quoted front) ∧
      ((after front).grouped = true ↔ Grouped front) := by
  induction front using List.reverseRecOn with
  | nil => exact ⟨iff_of_false (by decide) not_quoted_nil, iff_of_false (by decide) not_grouped_nil⟩
  | append_singleton front c ih =>
    obtain ⟨hquoted, hgrouped⟩ := ih
    rw [after_append_singleton, quoted_append_singleton, grouped_append_singleton, quoted_read,
      grouped_read, hquoted, hgrouped]
    exact ⟨Iff.rfl, Iff.rfl⟩

end Mode

instance : DecidablePred Grouped := fun front =>
  decidable_of_iff ((Mode.after front).grouped = true) (Mode.switches_after front).2

/-! ### Cuts -/

/-- The quote behind `front` has an even number. -/
def ClosesQuote (front : List Char) (c : Char) : Prop := c = '"' ∧ Even (front.count '"' + 1)

/-- The parenthesis behind `front` closes a group. -/
def ClosesGroup (front : List Char) (c : Char) : Prop := c = ')' ∧ ¬Quoted front ∧ Grouped front

/-- The blank behind `front` is neither quoted nor in a group. -/
def Separates (front : List Char) (c : Char) : Prop :=
  isBlank c = true ∧ ¬Quoted front ∧ ¬Grouped front

instance (front : List Char) (c : Char) : Decidable (ClosesQuote front c) :=
  inferInstanceAs (Decidable (_ ∧ _))

instance (front : List Char) (c : Char) : Decidable (ClosesGroup front c) :=
  inferInstanceAs (Decidable (_ ∧ _))

instance (front : List Char) (c : Char) : Decidable (Separates front c) :=
  inferInstanceAs (Decidable (_ ∧ _))

theorem closesQuote_iff {front : List Char} {c : Char} :
    ClosesQuote front c ↔ c = '"' ∧ Quoted front := by
  rw [ClosesQuote, Quoted, Nat.even_add_one, Nat.not_even_iff_odd]

/-- The character behind `front`, and the mark that comes behind it or in its place. -/
def withMark (front : List Char) (c : Char) : List (Option Char) :=
  if Separates front c then [none]
  else if ClosesQuote front c ∨ ClosesGroup front c then [some c, none]
  else [some c]

/-- A line with a mark wherever it is cut. -/
def marked (line : List Char) : List (Option Char) :=
  line.zipIdx.flatMap fun (c, i) => withMark (line.take i) c

/-- A line, cut at the marks. -/
def cutPieces (line : List Char) : List (List Char) :=
  ((marked line).splitOn none).map List.reduceOption

/-- The rest `cs` of a line, with its marks. -/
def markedFrom (front cs : List Char) : List (Option Char) :=
  cs.zipIdx.flatMap fun (c, i) => withMark (front ++ cs.take i) c

theorem markedFrom_cons (front cs : List Char) (c : Char) :
    markedFrom front (c :: cs) = withMark front c ++ markedFrom (front ++ [c]) cs := by
  simp only [markedFrom, List.zipIdx_cons', List.flatMap_cons, List.flatMap_map]
  simp

/-- **The pass cuts at the marks.** -/
theorem map_reduceOption_markedFrom (front cs : List Char) :
    ((markedFrom front cs).splitOn none).map List.reduceOption =
      (pieces (.after front) cs).1 :: (pieces (.after front) cs).2 := by
  induction cs generalizing front with
  | nil => rfl
  | cons c cs ih =>
    have hrest := ih (front ++ [c])
    rw [Mode.after_append_singleton] at hrest
    obtain ⟨hquoted, hgrouped⟩ := Mode.switches_after front
    rw [markedFrom_cons, withMark, pieces]
    by_cases hdrop : Separates front c
    · have hcut : ((Mode.after front).read c).2 = .drop := by
        rwa [Mode.read_eq_drop_iff, hquoted, hgrouped]
      rw [if_pos hdrop, hcut]
      simp [List.splitOn_cons_eq_if_modifyHead, hrest]
    rw [if_neg hdrop]
    by_cases hafter : ClosesQuote front c ∨ ClosesGroup front c
    · have hcut : ((Mode.after front).read c).2 = .after := by
        rwa [Mode.read_eq_after_iff, hquoted, hgrouped, ← closesQuote_iff]
      rw [if_pos hafter, hcut]
      simp [List.splitOn_cons_eq_if_modifyHead, hrest]
    · have hcut : ((Mode.after front).read c).2 = .none := by
        cases hread : ((Mode.after front).read c).2 with
        | none => rfl
        | after =>
          rw [Mode.read_eq_after_iff, hquoted, hgrouped, ← closesQuote_iff] at hread
          exact absurd hread hafter
        | drop =>
          rw [Mode.read_eq_drop_iff, hquoted, hgrouped] at hread
          exact absurd hread hdrop
      obtain ⟨first, more, hsplit⟩ := List.exists_cons_of_ne_nil
        (List.splitOn_ne_nil none (markedFrom (front ++ [c]) cs))
      rw [hsplit, List.map_cons] at hrest
      obtain ⟨hfirst, hmore⟩ := List.cons.inj hrest
      rw [if_neg hafter, hcut]
      simp [List.splitOn_cons_eq_if_modifyHead, hsplit, hfirst, hmore]

/-- The tokens of a line are its pieces, empty ones left out. -/
theorem tokenize_eq_cutPieces (line : String) :
    tokenize line = ((cutPieces line.toList).filter (· ≠ [])).map String.ofList := by
  have hpieces := map_reduceOption_markedFrom [] line.toList
  rw [tokenize, tokenChars, cutPieces]
  rw [show marked line.toList = markedFrom [] line.toList from rfl, hpieces]
  rfl

example : cutPieces "f(a b)c  \"d".toList = ["f(a b)", "c", "", "\"d"].map String.toList := by
  decide

/-! ### Boundaries -/

/-- A token begins or ends at the place behind `front`. -/
def TokenBoundary (line : String) (front : List Char) : Prop :=
  ∃ p ∈ tokenSpans line, byteLength front = p.start ∨ byteLength front = p.stop

/-- A place where a token may begin or end: it is not quoted, and it lies in a group only right
behind a quote that closes. -/
structure MayBound (front : List Char) : Prop where
  /-- The place is not quoted. -/
  not_quoted : ¬Quoted front
  /-- In a group it stands behind a closing quote. -/
  behind_quote : Grouped front → ∃ before, front = before ++ ['"'] ∧ Quoted before

theorem mayBound_nil : MayBound [] := ⟨not_quoted_nil, fun h => absurd h not_grouped_nil⟩

theorem mayBound_of_drop {front : List Char} {c : Char}
    (h : ((Mode.after front).read c).2 = .drop) : MayBound front ∧ MayBound (front ++ [c]) := by
  obtain ⟨hquoted, hgrouped⟩ := Mode.switches_after front
  rw [Mode.read_eq_drop_iff, hquoted, hgrouped] at h
  obtain ⟨hblank, hplain, hfree⟩ := h
  have hc : c ≠ '"' ∧ c ≠ '(' := by
    rw [isBlank] at hblank
    grind
  refine ⟨⟨hplain, fun h => absurd h hfree⟩, ⟨?_, fun h => ?_⟩⟩
  · rw [quoted_append_singleton]
    tauto
  · rw [grouped_append_singleton] at h
    tauto

theorem mayBound_of_after {front : List Char} {c : Char}
    (h : ((Mode.after front).read c).2 = .after) : MayBound (front ++ [c]) := by
  obtain ⟨hquoted, hgrouped⟩ := Mode.switches_after front
  rw [Mode.read_eq_after_iff, hquoted, hgrouped] at h
  rcases h with ⟨rfl, hinside⟩ | ⟨rfl, hplain, hgroup⟩
  · refine ⟨?_, fun _ => ⟨front, rfl, hinside⟩⟩
    rw [quoted_append_singleton]
    tauto
  · refine ⟨?_, fun h => ?_⟩
    · rw [quoted_append_singleton]
      simpa using hplain
    · rw [grouped_append_singleton] at h
      simp_all

/-- The end of the line, or a place where a token may begin or end. -/
def Bounds (line : List Char) (n : Nat) : Prop :=
  ∃ x y, line = x ++ y ∧ byteLength x = n ∧ (y = [] ∨ MayBound x)

/-- **The offsets of the pass.** Behind `front` it stands between tokens, at a place where one may
begin, or in a token that began at such a place. -/
theorem bounds_of_mem_spans (cs front : List Char) (start : Option Nat)
    (hnone : start = none → MayBound front)
    (hsome : ∀ b, start = some b → Bounds (front ++ cs) b) :
    ∀ p ∈ (Mode.after front).spans start (byteLength front) cs,
      Bounds (front ++ cs) p.start ∧ Bounds (front ++ cs) p.stop := by
  induction cs generalizing front start with
  | nil =>
    intro p hp
    simp only [Mode.spans, Option.mem_toList, Option.map_eq_some_iff] at hp
    obtain ⟨b, hb, rfl⟩ := hp
    exact ⟨hsome b hb, front, [], rfl, rfl, .inl rfl⟩
  | cons c cs ih =>
    have hstart : Bounds (front ++ c :: cs) (start.getD (byteLength front)) := by
      cases start with
      | none => exact ⟨front, c :: cs, rfl, rfl, .inr (hnone rfl)⟩
      | some b => exact hsome b rfl
    have hline : front ++ c :: cs = front ++ [c] ++ cs := by simp
    have hoffset : byteLength front + c.utf8Size = byteLength (front ++ [c]) := by simp
    intro p hp
    rw [Mode.spans, hoffset, ← Mode.after_append_singleton] at hp
    rw [hline] at hstart ⊢
    cases hcut : ((Mode.after front).read c).2 with
    | none =>
      rw [hcut] at hp
      refine ih (front ++ [c]) _ (fun h => by simp at h) (fun b hb => ?_) p hp
      rwa [← Option.some.inj hb]
    | after =>
      have hbound := mayBound_of_after hcut
      rw [hcut] at hp
      rcases List.mem_cons.mp hp with rfl | hp
      · refine ⟨hstart, front ++ [c], cs, rfl, ?_, .inr hbound⟩
        rw [← hoffset, Mode.utf8Size_of_after hcut]
      · exact ih (front ++ [c]) none (fun _ => hbound) (fun b hb => by simp at hb) p hp
    | drop =>
      obtain ⟨hbefore, hbehind⟩ := mayBound_of_drop hcut
      rw [hcut] at hp
      rcases List.mem_append.mp hp with hp | hp
      · simp only [Option.mem_toList, Option.map_eq_some_iff] at hp
        obtain ⟨b, rfl, rfl⟩ := hp
        exact ⟨hstart, front, c :: cs, hline.symm, rfl, .inr hbefore⟩
      · exact ih (front ++ [c]) none (fun _ => hbehind) (fun b hb => by simp at hb) p hp

theorem bounds_of_tokenBoundary {line : String} {front : List Char}
    (h : TokenBoundary line front) : Bounds line.toList (byteLength front) := by
  obtain ⟨p, hp, hfront⟩ := h
  have hbounds := bounds_of_mem_spans line.toList [] none (fun _ => mayBound_nil)
    (fun b hb => by simp at hb) p hp
  rcases hfront with hfront | hfront
  · rw [hfront]
    exact hbounds.1
  · rw [hfront]
    exact hbounds.2

theorem eq_nil_of_byteLength_append {x a : List Char} (h : byteLength (x ++ a) = byteLength x) :
    a = [] := by
  cases a with
  | nil => rfl
  | cons c a =>
    have hpos := c.utf8Size_pos
    rw [byteLength_append, byteLength_cons] at h
    omega

/-- Two texts that begin the same line and take the same number of bytes are the same. -/
theorem append_inj_of_byteLength_eq {x y front back : List Char} (h : x ++ y = front ++ back)
    (hlength : byteLength x = byteLength front) : x = front ∧ y = back := by
  rcases List.append_eq_append_iff.mp h with ⟨a, rfl, rfl⟩ | ⟨a, rfl, rfl⟩
  · obtain rfl := eq_nil_of_byteLength_append hlength.symm
    simp
  · obtain rfl := eq_nil_of_byteLength_append hlength
    simp

/-- **Tokens are cut exactly where they should be.** The tokens of a line are the pieces between the
cuts, empty ones left out. Before the end of the line, no token begins or ends at a quoted place,
and in a group one does only right behind a closing quote. -/
theorem tokenize_cuts_exactly (line : String) :
    tokenize line = ((cutPieces line.toList).filter (· ≠ [])).map String.ofList ∧
      ∀ front back, line.toList = front ++ back → back ≠ [] → TokenBoundary line front →
        ¬Quoted front ∧ (Grouped front → ∃ before, front = before ++ ['"'] ∧ Quoted before) := by
  refine ⟨tokenize_eq_cutPieces line, fun front back hline hback h => ?_⟩
  obtain ⟨x, y, hxy, hlength, hbound⟩ := bounds_of_tokenBoundary h
  obtain ⟨rfl, rfl⟩ := append_inj_of_byteLength_eq (hxy.symm.trans hline) hlength
  obtain ⟨hquoted, hgrouped⟩ := hbound.resolve_left hback
  exact ⟨hquoted, hgrouped⟩

/-- A group that a quoted region cuts in two: the token that begins behind the region begins inside
the group. -/
theorem tokenize_cuts_exactly_in_group :
    let line := "call f(\"x ) y\" z)"
    let front := "call f(\"x ) y\"".toList
    tokenize line = ["call", "f(\"x ) y\"", " z)"] ∧ TokenBoundary line front ∧ Grouped front ∧
      ¬Quoted front ∧ ∃ before, front = before ++ ['"'] ∧ Quoted before := by
  intro line front
  have hboundary : TokenBoundary line front := ⟨⟨5, 14⟩, by decide, .inr (by decide)⟩
  have hgrouped : Grouped front := by decide
  obtain ⟨hquoted, hbehind⟩ :=
    (tokenize_cuts_exactly line).2 front " z)".toList (by decide) (by decide) hboundary
  exact ⟨by decide, hboundary, hgrouped, hquoted, hbehind hgrouped⟩

end Flowscript
