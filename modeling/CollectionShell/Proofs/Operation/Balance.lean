import CollectionShell.Operation.Segment
import CollectionShell.Operation.Token
import Mathlib.Tactic.SplitIfs

/-!
# Balanced braces and brackets

`balance` says of marked characters how many more of them open than close, without those of
strings, and may be negative. The depths of a splitter are balances : `Splitter.step_eq` says all
that one character does to it, and only a comma that is a `Splitter.Cut` ends a segment.
-/

namespace CollectionShell.Operation

/-- How many more opening than closing characters of a kind there are, strings left out. -/
def balance (opening close : Char) (ms : List Marked) : Int :=
  ms.count ⟨opening, false⟩ - ms.count ⟨close, false⟩

theorem balance_append (opening close : Char) (xs ys : List Marked) :
    balance opening close (xs ++ ys) = balance opening close xs + balance opening close ys := by
  simp only [balance, List.count_append, Int.natCast_add]
  omega

theorem balance_cons (opening close : Char) (m : Marked) (ms : List Marked) :
    balance opening close (m :: ms) = balance opening close [m] + balance opening close ms :=
  balance_append opening close [m] ms

/-- Characters of other kinds and of strings are of no account. -/
theorem balance_eq_zero {opening close : Char} {ms : List Marked}
    (h : ∀ m ∈ ms, m.quoted = true ∨ m.char ≠ opening ∧ m.char ≠ close) :
    balance opening close ms = 0 := by
  have hcount : ∀ c, c = opening ∨ c = close → ms.count ⟨c, false⟩ = 0 := by
    intro c hc
    refine List.count_eq_zero_of_not_mem fun hm => ?_
    rcases h _ hm with hq | ⟨ho, hk⟩
    · cases hq
    · exact hc.elim ho hk
  rw [balance, hcount _ (.inl rfl), hcount _ (.inr rfl)]
  rfl

namespace Splitter

/-- The character is a comma that ends a segment. -/
def Cut (s : Splitter) (c : Char) : Prop :=
  c = ',' ∧ s.strings.inside = false ∧ s.braces = 0 ∧ s.brackets = 0

instance (s : Splitter) (c : Char) : Decidable (s.Cut c) := inferInstanceAs (Decidable (_ ∧ _))

/-- The splitter behind one more character. -/
theorem step_eq (mode : EscapeMode) (s : Splitter) (c : Char) :
    s.step mode c = {
      strings := s.strings.step mode c
      braces := s.braces + balance '\x7b' '\x7d' [⟨c, s.strings.inside⟩]
      brackets := s.brackets + balance '[' ']' [⟨c, s.strings.inside⟩]
      pending := if s.Cut c then [] else c :: s.pending
      segments := if s.Cut c then Text.trim s.pending.reverse :: s.segments else s.segments } := by
  by_cases hs : s.strings.inside = true
  · simp [step, hs, push, balance, Cut]
  · rw [Bool.not_eq_true] at hs
    rw [step, hs, if_neg (by decide), stepOutside]
    split_ifs <;> simp_all [push, balance, Cut, Int.sub_eq_add_neg]

end Splitter

end CollectionShell.Operation
