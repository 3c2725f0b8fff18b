import Flowscript.Statement
import Mathlib.Data.List.TakeDrop
import Mathlib.Data.List.TakeWhile

/-!
# Reading the heads of blocks

The heads of counting loops and of functions have a syntax of their own inside the argument list.
This module says what is read from which arguments: for each reader, that it succeeds on the
spellings of well-formed heads, gives that head back, and succeeds on nothing else.

## Main definitions

* `Statement.ForHead.tokens` — the spelling of a head.
* `Statement.ForHead.WellFormed` — the heads that are read back from their spelling.

## Main results

* `Statement.splitAt?_eq_some_iff` — where an argument list is cut.
* `Statement.ForHead.ofTokens_eq_ok_iff` — exactly the spellings of well-formed heads are read.
* `Statement.parameterPairs?_eq_some_iff` — exactly the parenthesised lists of pairs are read.
-/

namespace Flowscript

namespace Statement

/-! ### Counting loops -/

/-- An argument list is cut at the first occurrence of the word, which must not be its end. -/
theorem splitAt?_eq_some_iff {word : Token} {tokens before after : List Token} :
    splitAt? word tokens = some (before, after) ↔
      word ∉ before ∧ after ≠ [] ∧ tokens = before ++ word :: after := by
  rw [splitAt?, List.span_eq_takeWhile_dropWhile]
  constructor
  · intro h
    split at h
    · next _ w next rest hcut =>
      obtain ⟨rfl, hdrop⟩ := Prod.mk.inj hcut
      obtain ⟨rfl, rfl⟩ := Prod.mk.inj (Option.some.inj h)
      have hw : w = word := by
        have hhead := List.head?_dropWhile_not (fun t => decide (t ≠ word)) tokens
        rw [hdrop] at hhead
        simpa using hhead
      refine ⟨fun hmem => ?_, List.cons_ne_nil _ _, ?_⟩
      · simpa using List.mem_takeWhile_imp hmem
      · rw [← hw, ← hdrop, hw]
        exact List.takeWhile_append_dropWhile.symm
    · simp at h
  · rintro ⟨hbefore, hafter, rfl⟩
    obtain ⟨next, rest, rfl⟩ := List.exists_cons_of_ne_nil hafter
    have hpos : ∀ t ∈ before, decide (t ≠ word) = true := fun t ht =>
      decide_eq_true (ne_of_mem_of_not_mem ht hbefore)
    rw [List.takeWhile_append_of_pos hpos, List.dropWhile_append_of_pos hpos]
    simp

/-- The reversing word is taken off exactly where it stands first. -/
theorem leadingBackward_eq_iff {args rest : List Token} {backward : Bool} :
    leadingBackward args = (backward, rest) ↔
      args = (if backward then ["backward"] else []) ++ rest ∧
        (backward = false → rest.head? ≠ some "backward") := by
  unfold leadingBackward
  split
  · next tail =>
    cases backward with
    | false =>
      refine ⟨fun h => by simp at h, ?_⟩
      rintro ⟨rfl, hrest⟩
      exact absurd rfl (hrest rfl)
    | true => simp
  · next hne =>
    cases backward with
    | false =>
      have hhead : args.head? ≠ some "backward" := by
        intro h
        obtain ⟨tail, rfl⟩ := List.head?_eq_some_iff.mp h
        exact hne tail rfl
      refine ⟨fun h => ?_, fun h => ?_⟩
      · obtain ⟨-, rfl⟩ := Prod.mk.inj h
        exact ⟨rfl, fun _ => hhead⟩
      · rw [h.1]; rfl
    | true => simpa using hne rest

/-- How the head of a counting loop is spelled behind its keyword. -/
def ForHead.tokens (h : ForHead) : List Token :=
  (if h.backward then ["backward"] else []) ++
    h.counter :: "from" :: (h.start ++ "to" :: (h.stop ++ "step" :: h.step))

/-- The heads that are read back from their spelling. -/
structure ForHead.WellFormed (h : ForHead) : Prop where
  /-- A counter that is spelled like the reversing word needs that word before it. -/
  counter_ne : h.backward = false → h.counter ≠ "backward"
  /-- The start ends at the first `to`. -/
  to_notMem : "to" ∉ h.start
  /-- The stop ends at the first `step`. -/
  step_notMem : "step" ∉ h.stop
  /-- There is a step. -/
  step_ne_nil : h.step ≠ []
  /-- Start, stop and step together have tokens enough; each on its own need not. -/
  leastArguments_le : leastArguments ≤ h.tokens.length

theorem ForHead.WellFormed.of_ofTokens {args : List Token} {h : ForHead}
    (hok : ForHead.ofTokens args = .ok h) : h.WellFormed ∧ args = h.tokens := by
  rw [ForHead.ofTokens] at hok
  split at hok
  · simp at hok
  next hlen =>
  split at hok
  · next backward counter bounds hlead =>
    split at hok
    · simp at hok
    next start rest hto =>
    split at hok
    · simp at hok
    next stop step hstep =>
    obtain rfl := Except.ok.inj hok
    obtain ⟨hstart, -, rfl⟩ := splitAt?_eq_some_iff.mp hto
    obtain ⟨hstop, hne, rfl⟩ := splitAt?_eq_some_iff.mp hstep
    obtain ⟨rfl, hback⟩ := leadingBackward_eq_iff.mp hlead
    exact ⟨⟨by simpa using hback, hstart, hstop, hne, Nat.not_lt.mp hlen⟩, rfl⟩
  · simp at hok

theorem ForHead.WellFormed.leadingBackward_tokens {h : ForHead} (hwf : h.WellFormed) :
    leadingBackward h.tokens =
      (h.backward, h.counter :: "from" :: (h.start ++ "to" :: (h.stop ++ "step" :: h.step))) :=
  leadingBackward_eq_iff.mpr ⟨rfl, fun hb => by simpa using hwf.counter_ne hb⟩

theorem ForHead.WellFormed.ofTokens_tokens {h : ForHead} (hwf : h.WellFormed) :
    ForHead.ofTokens h.tokens = .ok h := by
  have hto : splitAt? "to" (h.start ++ "to" :: (h.stop ++ "step" :: h.step)) =
      some (h.start, h.stop ++ "step" :: h.step) :=
    splitAt?_eq_some_iff.mpr ⟨hwf.to_notMem, by simp, rfl⟩
  have hstep : splitAt? "step" (h.stop ++ "step" :: h.step) = some (h.stop, h.step) :=
    splitAt?_eq_some_iff.mpr ⟨hwf.step_notMem, hwf.step_ne_nil, rfl⟩
  rw [ForHead.ofTokens, if_neg (Nat.not_lt.mpr hwf.leastArguments_le), hwf.leadingBackward_tokens]
  simp only [hto, hstep]

/-- **Counting loops.** A head is read from an argument list exactly if it is well-formed and the
arguments spell it. -/
theorem ForHead.ofTokens_eq_ok_iff {args : List Token} {h : ForHead} :
    ForHead.ofTokens args = .ok h ↔ h.WellFormed ∧ args = h.tokens := by
  refine ⟨ForHead.WellFormed.of_ofTokens, ?_⟩
  rintro ⟨hwf, rfl⟩
  exact hwf.ofTokens_tokens

/-! ### Parameter lists -/

theorem unparenthesized?_eq_some_iff {s inner : String} :
    unparenthesized? s = some inner ↔ s = "(" ++ inner ++ ")" := by
  rw [unparenthesized?, ← String.toList_inj]
  constructor
  · intro h
    split at h
    · next rest hs =>
      split at h
      · next hlast =>
        obtain rfl := Option.some.inj h
        obtain ⟨init, rfl⟩ := List.getLast?_eq_some_iff.mp hlast
        simp [hs]
      · simp at h
    · simp at h
  · intro h
    simp [h]

theorem pairUp?_eq_some_iff {α : Type} {l : List α} {pairs : List (α × α)} :
    pairUp? l = some pairs ↔ l = pairs.flatMap fun p => [p.1, p.2] := by
  fun_induction pairUp? l generalizing pairs with
  | case1 => cases pairs <;> simp
  | case2 a => cases pairs <;> simp
  | case3 a b rest ih =>
    cases pairs with
    | nil => simp
    | cons p pairs =>
      obtain ⟨c, d⟩ := p
      simp only [Option.map_eq_some_iff, ih, List.cons.injEq, Prod.mk.injEq, List.flatMap_cons,
        List.cons_append, List.nil_append]
      constructor
      · rintro ⟨_, h, ⟨rfl, rfl⟩, rfl⟩
        exact ⟨rfl, rfl, h⟩
      · rintro ⟨rfl, rfl, h⟩
        exact ⟨pairs, h, ⟨rfl, rfl⟩, rfl⟩

/-- **Parameter lists.** Pairs are read from an argument exactly if it is a parenthesised text whose
tokens are those pairs, name before type. -/
theorem parameterPairs?_eq_some_iff {list : Token} {pairs : List (Token × Token)} :
    parameterPairs? list = some pairs ↔
      ∃ inner, list = "(" ++ inner ++ ")" ∧
        tokenize inner = pairs.flatMap fun p => [p.1, p.2] := by
  simp [parameterPairs?, Option.bind_eq_some_iff, unparenthesized?_eq_some_iff,
    pairUp?_eq_some_iff]

end Statement

end Flowscript
