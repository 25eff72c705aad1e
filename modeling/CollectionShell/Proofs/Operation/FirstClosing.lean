import CollectionShell.Proofs.Operation.Balance
import CollectionShell.Proofs.Operation.Parens
import Mathlib

/-!
# The first closing parenthesis

`matchingParen` counts the open parentheses from place to place and stops where none is left. By
place it is this : the closing parenthesis stands at the first place behind `start` that is not
marked, holds one, and has as many opening as closing ones between `start` and itself (`ClosesAt`).
The mask and the place where the search starts are arbitrary; no parenthesis need stand there.

At every place that a search passes, one parenthesis more is open than the balance so far
(`balance_of_stillOpen`), and at least one is. Behind a place that closes, the balance is negative.
So no search passes such a place (`not_closes_of_stillOpen`), and the one where it stops is the
first (`closing_eq_ok_iff_isLeast`).
-/

namespace CollectionShell.Operation

/-- Opening less closing parentheses behind `start` and in front of a place, those that are marked
left out. -/
def parenBalance (mask : List Bool) (t : Text) (start c : Nat) : Int :=
  balance '(' ')' (((markedBy mask t).take c).drop (start + 1))

/-- At a place behind `start` stands a closing parenthesis that is not marked, and as many are
opened as closed in between. -/
structure ClosesAt (mask : List Bool) (t : Text) (start c : Nat) : Prop where
  behind : start < c
  close : t[c]? = some ')'
  unmarked : mask[c]? = some false
  balanced : parenBalance mask t start c = 0

/-- What is said of a text if nothing closes the parenthesis at `start`. -/
def unclosedBehind (mask : List Bool) (t : Text) (start : Nat) (unterminated : Bool) :
    ParseError :=
  .unbalanced {
    text := t.drop start
    braces := 0
    brackets := 0
    parens := 1 + parenBalance mask t start t.length
    unterminated := unterminated }

variable {ms : List Marked} {depth k : Nat}

/-! ## The first place that closes -/

theorem balance_singleton (m : Marked) : balance '(' ')' [m] =
    if m.quoted then 0 else if m.char = '(' then 1 else if m.char = ')' then -1 else 0 := by
  obtain ⟨c, quoted⟩ := m
  dsimp only
  split_ifs with hq ho hc
  · simp [balance, hq]
  · simp [balance, hq, ho]
  · simp [balance, hq, hc]
  · simp [balance, ho, hc]

/-- What stays open is what was open at first and the balance. -/
theorem balance_of_stillOpen (h : stillOpen depth ms = some k) :
    (k : Int) = depth + balance '(' ')' ms := by
  induction ms generalizing depth with
  | nil => simpa [balance] using (Option.some.inj h).symm
  | cons m ms ih =>
    rw [stillOpen] at h
    rw [balance_cons, balance_singleton]
    split_ifs at h ⊢ with hq ho hc hle
    all_goals
      have := ih h
      omega

/-- While the first parenthesis stays open, no more are closed than opened behind it. -/
theorem balance_take_nonneg (h : stillOpen 1 ms = some k) (n : Nat) :
    0 ≤ balance '(' ')' (ms.take n) := by
  obtain ⟨d, hopen⟩ := stillOpen_take h n
  have hpos := stillOpen_pos (Nat.le_refl 1) hopen
  have := balance_of_stillOpen hopen
  omega

/-- At the place stands a closing parenthesis that is not marked, and as many are opened as closed
in front of it. -/
def Closes (ms : List Marked) (k : Nat) : Prop :=
  ms[k]? = some ⟨')', false⟩ ∧ balance '(' ')' (ms.take k) = 0

/-- Behind a place that closes, one more is closed than opened. -/
theorem Closes.balance_behind (h : Closes ms k) : balance '(' ')' (ms.take (k + 1)) = -1 := by
  rw [List.take_add_one, h.1, balance_append, h.2]
  rfl

/-- A search that goes on as far as a place passes none that closes. -/
theorem not_closes_of_stillOpen {d n j : Nat} (h : stillOpen 1 (ms.take n) = some d)
    (hj : j < n) : ¬Closes ms j := by
  intro hc
  have hpos := balance_take_nonneg h (j + 1)
  rw [List.take_take, Nat.min_eq_left hj, hc.balance_behind] at hpos
  omega

/-- A search stops at a place that closes, and goes on as far as that. -/
theorem closes_of_closing (h : closing 1 ms = .ok k) :
    Closes ms k ∧ stillOpen 1 (ms.take k) = some 1 := by
  obtain ⟨xs, ys, rfl, rfl, hopen⟩ := (closing_eq_ok (Nat.le_refl 1)).1 h
  have hbalance := balance_of_stillOpen hopen
  rw [Closes, List.take_left, List.getElem?_append_right (Nat.le_refl _), Nat.sub_self]
  exact ⟨⟨rfl, by omega⟩, hopen⟩

/-- A search that does not stop passes no place that closes, and leaves open one more than the
balance. -/
theorem not_closes_of_closing {d : Nat} (h : closing 1 ms = .error d) :
    (∀ j, ¬Closes ms j) ∧ (d : Int) = 1 + balance '(' ')' ms := by
  rw [closing_eq_error] at h
  refine ⟨fun j hj => ?_, balance_of_stillOpen h⟩
  have hlt : j < ms.length := (List.getElem?_eq_some_iff.1 hj.1).1
  rw [← List.take_length (l := ms)] at h
  exact not_closes_of_stillOpen h hlt hj

/-- A search stops at the first place that closes. -/
theorem closing_eq_ok_iff_isLeast : closing 1 ms = .ok k ↔ IsLeast {j | Closes ms j} k := by
  have hleast : ∀ {k}, closing 1 ms = .ok k → IsLeast {j | Closes ms j} k := by
    intro k h
    obtain ⟨hc, hopen⟩ := closes_of_closing h
    exact ⟨hc, fun j hj => Nat.le_of_not_lt fun hlt => not_closes_of_stillOpen hopen hlt hj⟩
  refine ⟨hleast, fun h => ?_⟩
  cases hc : closing 1 ms with
  | ok j => rw [(hleast hc).unique h]
  | error d => exact absurd h.1 ((not_closes_of_closing hc).1 k)

/-! ## Matching parentheses by place -/

variable {mask : List Bool} {t : Text} {start c : Nat}

theorem getElem?_markedBy : (markedBy mask t)[c]? = some ⟨')', false⟩ ↔
    t[c]? = some ')' ∧ mask[c]? = some false := by
  rw [markedBy, List.getElem?_zipWith_eq_some]
  constructor
  · rintro ⟨x, y, hx, hy, h⟩
    obtain ⟨rfl, rfl⟩ := Marked.mk.inj h
    exact ⟨hx, hy⟩
  · rintro ⟨hx, hy⟩
    exact ⟨_, _, hx, hy, rfl⟩

theorem parenBalance_eq (mask : List Bool) (t : Text) (start n : Nat) :
    parenBalance mask t start (start + 1 + n) =
      balance '(' ')' (((markedBy mask t).drop (start + 1)).take n) := by
  rw [parenBalance, List.drop_take, Nat.add_sub_cancel_left]

/-- The places of a text that close are those of the search behind `start`. -/
theorem closesAt_iff : ClosesAt mask t start (start + 1 + k) ↔
    Closes ((markedBy mask t).drop (start + 1)) k := by
  rw [Closes, List.getElem?_drop, getElem?_markedBy, ← parenBalance_eq]
  constructor
  · rintro ⟨-, hc, hq, hb⟩
    exact ⟨⟨hc, hq⟩, hb⟩
  · rintro ⟨⟨hc, hq⟩, hb⟩
    exact ⟨by omega, hc, hq, hb⟩

/-- The first place of a text that closes is the one where the search behind `start` stops. -/
theorem isLeast_closesAt_iff : IsLeast {c | ClosesAt mask t start c} c ↔
    ∃ k, c = start + 1 + k ∧ closing 1 ((markedBy mask t).drop (start + 1)) = .ok k := by
  simp only [closing_eq_ok_iff_isLeast]
  constructor
  · rintro ⟨hc, hleast⟩
    obtain ⟨k, rfl⟩ := Nat.exists_eq_add_of_le hc.behind
    refine ⟨k, rfl, closesAt_iff.1 hc, fun j hj => ?_⟩
    have := hleast (closesAt_iff.2 hj)
    omega
  · rintro ⟨k, rfl, hk, hleast⟩
    refine ⟨closesAt_iff.2 hk, fun d hd => ?_⟩
    obtain ⟨j, rfl⟩ := Nat.exists_eq_add_of_le hd.behind
    have := hleast (closesAt_iff.1 hd)
    omega

theorem matchingParen_eq_ok_iff :
    matchingParen t mask start = .ok c ↔ IsLeast {c | ClosesAt mask t start c} c := by
  rw [isLeast_closesAt_iff, matchingParen]
  cases closing 1 ((markedBy mask t).drop (start + 1)) with
  | ok k => simp [eq_comm]
  | error d => simp

/-- In front of a place where the search has been, no more are closed than opened. -/
theorem parenBalance_nonneg_of_matchingParen (h : matchingParen t mask start = .ok c) {d : Nat}
    (hd : d ≤ c) : 0 ≤ parenBalance mask t start d := by
  obtain ⟨k, rfl, hk⟩ := isLeast_closesAt_iff.1 (matchingParen_eq_ok_iff.1 h)
  rcases Nat.lt_or_ge start d with hlt | hle
  · obtain ⟨n, rfl⟩ : ∃ n, d = start + 1 + n := Nat.exists_eq_add_of_le hlt
    have hpos := balance_take_nonneg (closes_of_closing hk).2 n
    rwa [List.take_take, Nat.min_eq_left (by omega), ← parenBalance_eq] at hpos
  · rw [parenBalance, List.drop_eq_nil_of_le (by rw [List.length_take]; omega)]
    rfl

/-- The balance of all that is searched. -/
theorem parenBalance_length (mask : List Bool) (t : Text) (start : Nat) :
    parenBalance mask t start t.length = balance '(' ')' ((markedBy mask t).drop (start + 1)) := by
  rw [parenBalance, List.take_of_length_le]
  rw [markedBy, List.length_zipWith]
  exact Nat.min_le_left _ _

/-- If no place closes, the search does not stop, and it leaves open at least the parenthesis that
it was for. -/
theorem exists_closing_eq_error (h : ∀ c, ¬ClosesAt mask t start c) :
    ∃ d, closing 1 ((markedBy mask t).drop (start + 1)) = .error d ∧ 1 ≤ d ∧
      (d : Int) = 1 + parenBalance mask t start t.length := by
  cases hd : closing 1 ((markedBy mask t).drop (start + 1)) with
  | ok k => exact absurd (closesAt_iff.2 (closes_of_closing hd).1) (h _)
  | error d =>
    refine ⟨d, rfl, stillOpen_pos (Nat.le_refl 1) (closing_eq_error.1 hd), ?_⟩
    rw [parenBalance_length]
    exact (not_closes_of_closing hd).2

/-- A search that fails leaves no place that closes. -/
theorem not_closesAt_of_matchingParen {e : ParseError}
    (h : matchingParen t mask start = .error e) : ¬ClosesAt mask t start c := by
  intro hc
  obtain ⟨k, rfl⟩ := Nat.exists_eq_add_of_le hc.behind
  rw [matchingParen] at h
  cases hd : closing 1 ((markedBy mask t).drop (start + 1)) with
  | ok j => simp [hd] at h
  | error d => exact (not_closes_of_closing hd).1 k (closesAt_iff.1 hc)

theorem matchingParen_eq_error (hmask : mask.length = t.length + 1)
    (h : ∀ c, ¬ClosesAt mask t start c) : ∃ inside, mask.getLast? = some inside ∧
      matchingParen t mask start = .error (unclosedBehind mask t start inside) := by
  obtain ⟨d, hd, -, hparens⟩ := exists_closing_eq_error h
  have hlast : mask.getLast? = mask[t.length]? := by
    rw [List.getLast?_eq_getElem?, hmask, Nat.add_sub_cancel]
  have hinside : mask[t.length]? = some mask[t.length] := List.getElem?_eq_getElem (by omega)
  refine ⟨mask[t.length], by rw [hlast, hinside], ?_⟩
  rw [matchingParen, hd, unclosedBehind, ← hparens, List.getD_eq_getElem?_getD, hinside]
  rfl

/-- The matching parenthesis stands at the first place that closes, and in front of no place up to
there are more closed than opened behind `start`. If no place closes, the error is about the text
from `start` on. It has one more parenthesis open than the balance of what is searched, so at least
one, and it says whether the mask has the end of the text inside a string. -/
theorem matchingParen_first (hmask : mask.length = t.length + 1) (start : Nat) :
    (∀ c, matchingParen t mask start = .ok c ↔ IsLeast {c | ClosesAt mask t start c} c) ∧
    (∀ c, matchingParen t mask start = .ok c → ∀ d ≤ c, 0 ≤ parenBalance mask t start d) ∧
    (∀ e, matchingParen t mask start = .error e ↔ (∀ c, ¬ClosesAt mask t start c) ∧
      ∃ inside, mask.getLast? = some inside ∧ e = unclosedBehind mask t start inside) ∧
    ((∀ c, ¬ClosesAt mask t start c) → 1 ≤ 1 + parenBalance mask t start t.length) := by
  refine ⟨fun c => matchingParen_eq_ok_iff, fun c h d hd =>
    parenBalance_nonneg_of_matchingParen h hd, fun e => ⟨fun he => ?_, ?_⟩, fun h => ?_⟩
  · have hnone : ∀ c, ¬ClosesAt mask t start c := fun c => not_closesAt_of_matchingParen he
    obtain ⟨inside, hinside, he'⟩ := matchingParen_eq_error hmask hnone
    exact ⟨hnone, inside, hinside, Except.error.inj (he.symm.trans he')⟩
  · rintro ⟨hnone, inside, hinside, rfl⟩
    obtain ⟨inside', hinside', he⟩ := matchingParen_eq_error hmask hnone
    obtain rfl := Option.some.inj (hinside.symm.trans hinside')
    exact he
  · obtain ⟨d, -, hpos, hd⟩ := exists_closing_eq_error h
    omega

/-- Between a letter and the parenthesis that is found, one is opened and closed and one is marked.
Behind the end of a text nothing is found. -/
theorem matchingParen_first_marked :
    matchingParen "a(')')b)".toList
        [false, false, false, true, true, false, false, false, false] 0 = .ok 7 ∧
      IsLeast {c | ClosesAt [false, false, false, true, true, false, false, false, false]
        "a(')')b)".toList 0 c} 7 ∧
      matchingParen "a)".toList [false, false, true] 5 =
        .error (unclosedBehind [false, false, true] "a)".toList 5 true) ∧
      ∀ c, ¬ClosesAt [false, false, true] "a)".toList 5 c := by
  have hok : matchingParen "a(')')b)".toList
      [false, false, false, true, true, false, false, false, false] 0 = .ok 7 := by cbv
  have herror : matchingParen "a)".toList [false, false, true] 5 =
      .error (unclosedBehind [false, false, true] "a)".toList 5 true) := by cbv
  exact ⟨hok, ((matchingParen_first (by decide) 0).1 7).1 hok, herror,
    (((matchingParen_first (by decide) 5).2.2.1 _).1 herror).1⟩

end CollectionShell.Operation
