import CollectionShell.Proofs.Operation.Imbalance

/-!
# How many parentheses are open

The tokens of a text are found call by call : an opening parenthesis is followed to the one that
closes it, and the search goes on behind that. `depthAt` counts through the whole text instead,
strings left out, and never below zero. Both agree on whether a parenthesis stays open.

A search that has not ended has counted the same (`depthBehind_of_stillOpen`), and so has each of
its parts (`stillOpen_take`), so the count stays positive as long as it goes on
(`depthBehind_take_pos`). What stands in front of a search and what it passes count for nothing,
because a fragment opens no parenthesis and an enclosed text closes those that it opens
(`depthBehind_solid`, `depthBehind_group`). So a text has no tokens exactly if it ends at a positive
depth, and the parenthesis that is never closed is the last one that was opened at depth zero
(`tokenize_eq_error_iff`).
-/

namespace CollectionShell.Operation

open Quotation (Tracker mask endsInside)

/-- How many parentheses are open behind one more character. A closing one that has none to close
counts for nothing. -/
def nextDepth (depth : Nat) (m : Marked) : Nat :=
  if m.quoted then depth
  else if m.char = '(' then depth + 1
  else if m.char = ')' then depth - 1
  else depth

/-- How many parentheses are open behind some characters. -/
def depthBehind (depth : Nat) (ms : List Marked) : Nat := ms.foldl nextDepth depth

/-- How many parentheses of the text are open in front of a place. -/
def depthAt (mode : EscapeMode) (t : Text) (i : Nat) : Nat :=
  depthBehind 0 ((marked mode t).take i)

/-- The place is the last one at which the depth goes from zero to one. -/
structure LastOpening (mode : EscapeMode) (t : Text) (k : Nat) : Prop where
  before : depthAt mode t k = 0
  behind : depthAt mode t (k + 1) = 1
  last : ∀ j, k < j → ¬(depthAt mode t j = 0 ∧ depthAt mode t (j + 1) = 1)

/-- What is said of a text with a parenthesis at a place that is never closed. -/
def unclosedFrom (mode : EscapeMode) (t : Text) (k : Nat) : ParseError :=
  .unbalanced {
    text := t.drop k
    braces := 0
    brackets := 0
    parens := depthAt mode t t.length
    unterminated := endsInside mode t }

variable {mode : EscapeMode} {t x y : Text} {ms : List Marked} {depth k : Nat}

/-! ## The depth behind a search -/

theorem depthBehind_append (depth : Nat) (xs ys : List Marked) :
    depthBehind depth (xs ++ ys) = depthBehind (depthBehind depth xs) ys := List.foldl_append

/-- A search that has not ended has counted the depth. -/
theorem depthBehind_of_stillOpen (h : stillOpen depth ms = some k) : depthBehind depth ms = k := by
  induction ms generalizing depth with
  | nil => exact Option.some.inj h
  | cons m ms ih =>
    rw [stillOpen] at h
    change depthBehind (nextDepth depth m) ms = k
    rw [nextDepth]
    split_ifs at h ⊢
    all_goals exact ih h

/-- The depth is positive as long as a search goes on. -/
theorem depthBehind_take_pos (hd : 1 ≤ depth) (h : stillOpen depth ms = some k) (n : Nat) :
    0 < depthBehind depth (ms.take n) := by
  obtain ⟨d, hopen⟩ := stillOpen_take h n
  rw [depthBehind_of_stillOpen hopen]
  exact stillOpen_pos hd hopen

/-- A fragment opens no parenthesis. -/
theorem depthBehind_solid {f : Text} (hf : Solid mode f) :
    depthBehind 0 (Tracker.start.marks mode f) = 0 := by
  have hstay : ∀ ms : List Marked, (∀ m ∈ ms, m.quoted = true ∨ m.char ≠ '.' ∧ m.char ≠ '(') →
      depthBehind 0 ms = 0 := by
    intro ms hms
    induction ms with
    | nil => rfl
    | cons m ms ih =>
      obtain ⟨hm, hms⟩ := List.forall_mem_cons.1 hms
      have hnext : nextDepth 0 m = 0 := by
        rcases hm with hq | ⟨-, ho⟩
        · rw [nextDepth, if_pos hq]
        · rw [nextDepth, if_neg ho, ite_self, ite_self]
      change depthBehind (nextDepth 0 m) ms = 0
      rw [hnext, ih hms]
  exact hstay _ hf

/-- What parentheses enclose closes what it opens. -/
theorem depthBehind_group {b : Text} (hb : Enclosed mode b) (ms : List Marked) :
    depthBehind 0 (⟨'(', false⟩ :: (Tracker.start.marks mode b ++ ⟨')', false⟩ :: ms)) =
      depthBehind 0 ms := by
  change depthBehind 1 (Tracker.start.marks mode b ++ ⟨')', false⟩ :: ms) = _
  rw [depthBehind_append, depthBehind_of_stillOpen hb.stillOpen_eq]
  rfl

/-- Of a text that has tokens no parenthesis stays open. -/
theorem depthBehind_of_tokenized {ts : List Text} (h : Tokenized mode t ts) :
    depthBehind 0 (Tracker.start.marks mode t) = 0 := by
  induction h with
  | solid hf => exact depthBehind_solid hf
  | point hf ho _ ih =>
    rw [marks_cut ho rfl (by decide), depthBehind_append, depthBehind_solid hf]
    exact ih
  | group hf ho hb _ ih =>
    rw [List.append_assoc, List.cons_append, marks_cut ho rfl (by decide),
      marks_cut hb.outside rfl (by decide), depthBehind_append, depthBehind_solid hf,
      depthBehind_group hb]
    exact ih

/-! ## The last parenthesis opened at depth zero -/

/-- Behind `x` a parenthesis is opened at depth zero, and it stays open through `y`, together with
the `k - 1` that `y` leaves open. -/
structure Unclosed (mode : EscapeMode) (x y : Text) (k : Nat) : Prop where
  /-- The parenthesis stands outside strings. -/
  outside : (Tracker.start.advance mode x).inside = false
  depth_eq : depthBehind 0 (Tracker.start.marks mode x) = 0
  stillOpen_eq : stillOpen 1 (Tracker.start.marks mode y) = some k

theorem depthAt_append (mode : EscapeMode) (x y : Text) :
    depthAt mode (x ++ y) x.length = depthBehind 0 (Tracker.start.marks mode x) := by
  rw [depthAt, Quotation.take_marked_append]

namespace Unclosed

variable (h : Unclosed mode x y k)

include h

/-- The depth at the places behind the parenthesis. -/
theorem depthAt_eq (n : Nat) :
    depthAt mode (x ++ '(' :: y) (x.length + 1 + n) =
      depthBehind 1 ((Tracker.start.marks mode y).take n) := by
  have hlen : (Tracker.start.marks mode x).length = x.length := Tracker.length_marks mode _ x
  rw [depthAt, Quotation.marked_eq_marks, marks_cut h.outside rfl (by decide), Nat.add_assoc,
    ← hlen, List.take_length_add_append, Nat.add_comm 1, List.take_succ_cons, depthBehind_append,
    h.depth_eq]
  rfl

theorem depthAt_length :
    depthAt mode (x ++ '(' :: y) (x ++ '(' :: y).length = k := by
  have hlen : (x ++ '(' :: y).length = x.length + 1 + (Tracker.start.marks mode y).length := by
    rw [Tracker.length_marks, List.length_append, List.length_cons, Nat.add_assoc, Nat.add_comm 1]
  rw [hlen, h.depthAt_eq, List.take_length]
  exact depthBehind_of_stillOpen h.stillOpen_eq

theorem lastOpening : LastOpening mode (x ++ '(' :: y) x.length := by
  refine ⟨by rw [depthAt_append, h.depth_eq], h.depthAt_eq 0, fun j hj ⟨hzero, _⟩ => ?_⟩
  obtain ⟨n, rfl⟩ := Nat.exists_eq_add_of_le hj
  have hpos := depthBehind_take_pos (Nat.le_refl 1) h.stillOpen_eq n
  rw [Nat.succ_eq_add_one, h.depthAt_eq] at hzero
  omega

theorem unclosedFrom_eq :
    unclosedFrom mode (x ++ '(' :: y) x.length = .unbalanced {
      text := '(' :: y
      parens := k
      unterminated := (Tracker.start.advance mode y).inside } := by
  rw [unclosedFrom, h.depthAt_length, List.drop_left, Quotation.endsInside_eq,
    advance_cut h.outside rfl (by decide)]

/-- Looking for what closes the parenthesis fails, and says the same. -/
theorem matchingParen_eq :
    matchingParen (x ++ '(' :: y) (mask mode (x ++ '(' :: y)) x.length =
      .error (unclosedFrom mode (x ++ '(' :: y) x.length) := by
  have hend := getElem?_mask_length mode (x ++ '(' :: y) []
  rw [List.append_nil, advance_cut h.outside rfl (by decide)] at hend
  rw [h.unclosedFrom_eq, matchingParen, drop_markedBy_cut h.outside,
    closing_eq_error.2 h.stillOpen_eq]
  simp only [List.getD_eq_getElem?_getD, hend, List.drop_left, Option.getD_some]

end Unclosed

theorem LastOpening.unique {j : Nat} (hj : LastOpening mode t j) (hk : LastOpening mode t k) :
    j = k := by
  rcases Nat.lt_trichotomy j k with h | h | h
  · exact absurd ⟨hk.before, hk.behind⟩ (hj.last k h)
  · exact h
  · exact absurd ⟨hj.before, hj.behind⟩ (hk.last j h)

/-! ## Texts with and without tokens -/

/-- A text ends at depth zero and has tokens, or it has a parenthesis that is never closed and has
none. -/
theorem tokens_or_unclosed (mode : EscapeMode) (t : Text) :
    depthAt mode t t.length = 0 ∧ (∃ ts, tokenize mode t = .ok ts) ∨
      0 < depthAt mode t t.length ∧ ∃ k, LastOpening mode t k ∧
        tokenize mode t = .error (unclosedFrom mode t k) ∧
        matchingParen t (mask mode t) k = .error (unclosedFrom mode t k) := by
  cases ht : tokenize mode t with
  | ok ts =>
    refine .inl ⟨?_, ts, rfl⟩
    rw [depthAt, Quotation.take_marked_length,
      depthBehind_of_tokenized (tokenized_of_tokenize ht)]
  | error e =>
    obtain ⟨front, rest, ts, k, rfl, hts, hout, hopen, rfl⟩ := exists_of_tokenize_error ht
    have h : Unclosed mode front rest k := ⟨hout, depthBehind_of_tokenized hts, hopen⟩
    refine .inr ⟨?_, front.length, h.lastOpening, ?_, h.matchingParen_eq⟩
    · rw [h.depthAt_length]
      exact stillOpen_pos (Nat.le_refl 1) hopen
    · rw [h.unclosedFrom_eq]

/-- A text has no tokens exactly if its depth is positive at the end, and has tokens otherwise. What
is said of it then is about the text from the last place at which the depth went from zero to one :
how deep the text ends, and whether it ends inside a string. Looking for the parenthesis that closes
the one there fails for that reason. -/
theorem tokenize_eq_error_iff (mode : EscapeMode) (t : Text) :
    (∀ e, tokenize mode t = .error e ↔ 0 < depthAt mode t t.length ∧
      ∃ k, LastOpening mode t k ∧ e = unclosedFrom mode t k) ∧
    ((∃ ts, tokenize mode t = .ok ts) ↔ depthAt mode t t.length = 0) ∧
    ∀ k, LastOpening mode t k → 0 < depthAt mode t t.length →
      matchingParen t (mask mode t) k = .error (unclosedFrom mode t k) := by
  rcases tokens_or_unclosed mode t with ⟨hzero, ts, hts⟩ | ⟨hpos, k, hk, he, hmatch⟩
  · refine ⟨fun e => ⟨fun he => ?_, fun ⟨hpos, _⟩ => ?_⟩, ⟨fun _ => hzero, fun _ => ⟨ts, hts⟩⟩,
      fun _ _ hpos => ?_⟩
    · rw [hts] at he
      cases he
    · omega
    · omega
  · refine ⟨fun e => ⟨fun he' => ⟨hpos, k, hk, ?_⟩, ?_⟩, ⟨fun ⟨ts, hts⟩ => ?_, fun hzero => ?_⟩,
      fun j hj _ => ?_⟩
    · exact Except.error.inj (he'.symm.trans he)
    · rintro ⟨-, j, hj, rfl⟩
      rw [he, hj.unique hk]
    · rw [he] at hts
      cases hts
    · omega
    · rw [hj.unique hk, hmatch]

theorem tokenize_eq_error_iff_nested :
    ∃ k, LastOpening .single "x) . f('(') . g( (\"y)".toList k ∧
      ParseError.unbalanced ⟨"( (\"y)".toList, 0, 0, 2, true⟩ =
        unclosedFrom .single "x) . f('(') . g( (\"y)".toList k ∧
      matchingParen "x) . f('(') . g( (\"y)".toList
          (mask .single "x) . f('(') . g( (\"y)".toList) k =
        .error (unclosedFrom .single "x) . f('(') . g( (\"y)".toList k) := by
  obtain ⟨herror, -, hmatch⟩ := tokenize_eq_error_iff .single "x) . f('(') . g( (\"y)".toList
  obtain ⟨hpos, k, hk, he⟩ := (herror (.unbalanced ⟨"( (\"y)".toList, 0, 0, 2, true⟩)).1 (by cbv)
  exact ⟨k, hk, he, hmatch k hk hpos⟩

end CollectionShell.Operation
