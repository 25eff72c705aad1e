import CollectionShell.Proofs.Outcome
import CollectionShell.Proofs.Quotation.Marks
import CollectionShell.Proofs.Text.Basic
import Mathlib.Tactic.SplitIfs

/-!
# Open and closed parentheses

`stillOpen` counts the parentheses that stay open behind some characters, unless the first of
them is closed on the way. The place that `closing` finds is the one behind which it is
(`closing_eq_ok`), and no place is found if it never is (`closing_eq_error`). A scan that
stands inside parentheses keeps every character until then (`Scan.run_inside`), so both
stop at the same character.

`Enclosed` says of a text that a closing parenthesis right behind it closes the one right in
front of it, and `matchingParen_eq_ok` that this is what a matching parenthesis is.
-/

namespace CollectionShell.Operation

open Quotation (Tracker)

/-! ## Ordinary texts -/

/-- The characters with a meaning in the structure of an operation : quote marks, the backslash,
parentheses, braces, brackets and the comma. The point is not among them. -/
def specials : List Char :=
  ['\x27', '\x22', '\\', '(', ')', '\x7b', '\x7d', '[', ']', ',']

/-- The character is a special one. -/
def isSpecial (c : Char) : Bool := specials.contains c

theorem ne_of_not_special {c d : Char} (hc : isSpecial c = false) (hd : isSpecial d = true) :
    c ≠ d := by
  rintro rfl
  rw [hc] at hd
  cases hd

/-- The text has no special characters. -/
def Ordinary (t : Text) : Prop := ∀ c ∈ t, isSpecial c = false

theorem ordinary_append {x y : Text} : Ordinary (x ++ y) ↔ Ordinary x ∧ Ordinary y :=
  List.forall_mem_append

theorem ordinary_cons {c : Char} {t : Text} :
    Ordinary (c :: t) ↔ isSpecial c = false ∧ Ordinary t :=
  List.forall_mem_cons

/-- Characters of a class without special ones make an ordinary text. -/
theorem ordinary_of_forall {p : Char → Bool} {t : Text} (hp : specials.any p = false)
    (ht : ∀ c ∈ t, p c = true) : Ordinary t := by
  intro c hc
  by_contra hs
  rw [Bool.not_eq_false, isSpecial, List.contains_iff_mem] at hs
  exact List.any_eq_false.1 hp c hs (ht c hc)

theorem ordinary_singleton {c : Char} : Ordinary [c] ↔ isSpecial c = false :=
  List.forall_mem_singleton

theorem ordinary_of_blank {t : Text} (h : Text.Blank t) : Ordinary t :=
  ordinary_of_forall (by decide) h

theorem idle_of_ordinary {t : Text} (h : Ordinary t) :
    ∀ c ∈ t, QuoteMark.ofChar? c = none ∧ c ≠ '\\' := by
  intro c hc
  have hne : ∀ d, isSpecial d = true → c ≠ d := fun d => ne_of_not_special (h c hc)
  rw [QuoteMark.ofChar?, if_neg (hne _ (by decide)), if_neg (hne _ (by decide))]
  exact ⟨rfl, hne _ (by decide)⟩

theorem advance_ordinary {mode : EscapeMode} {t : Text} (h : Ordinary t) :
    Tracker.start.advance mode t = Tracker.start :=
  Tracker.advance_start (idle_of_ordinary h)

theorem marks_ordinary {mode : EscapeMode} {t : Text} (h : Ordinary t) :
    Tracker.start.marks mode t = t.map fun c => ⟨c, false⟩ :=
  Tracker.marks_start (idle_of_ordinary h)

/-! ## Parentheses that stay open -/

/-- How many of `depth` open parentheses and of those that the characters open stay open, if
the first of them does. -/
def stillOpen : Nat → List Marked → Option Nat
  | depth, [] => some depth
  | depth, m :: rest =>
    if m.quoted then stillOpen depth rest
    else if m.char = '(' then stillOpen (depth + 1) rest
    else if m.char = ')' then if depth ≤ 1 then none else stillOpen (depth - 1) rest
    else stillOpen depth rest

theorem stillOpen_pos {depth k : Nat} {ms : List Marked} (hd : 1 ≤ depth)
    (h : stillOpen depth ms = some k) : 1 ≤ k := by
  induction ms generalizing depth with
  | nil =>
    obtain rfl := Option.some.inj h
    exact hd
  | cons m ms ih =>
    rw [stillOpen] at h
    split_ifs at h with hq ho hc hd'
    · exact ih hd h
    · exact ih (by omega) h
    · exact ih (by omega) h
    · exact ih hd h

/-- Characters that are no parentheses outside strings change nothing. -/
theorem stillOpen_of_forall {ms : List Marked} (depth : Nat)
    (h : ∀ m ∈ ms, m.quoted = true ∨ m.char ≠ '(' ∧ m.char ≠ ')') :
    stillOpen depth ms = some depth := by
  induction ms with
  | nil => rfl
  | cons m ms ih =>
    have hms := ih fun m' hm' => h m' (List.mem_cons_of_mem m hm')
    rcases h m List.mem_cons_self with hq | ⟨ho, hc⟩
    · rw [stillOpen, if_pos hq, hms]
    · rw [stillOpen, if_neg ho, if_neg hc, hms, ite_self]

/-- Older parentheses that stay open are counted too. -/
theorem stillOpen_add {depth k : Nat} {ms : List Marked} (n : Nat) (hd : 1 ≤ depth)
    (h : stillOpen depth ms = some k) : stillOpen (depth + n) ms = some (k + n) := by
  induction ms generalizing depth with
  | nil =>
    obtain rfl := Option.some.inj h
    rfl
  | cons m ms ih =>
    rw [stillOpen] at h ⊢
    split_ifs at h ⊢ with hq ho hc hle
    · exact ih hd h
    · rw [Nat.add_right_comm]
      exact ih (by omega) h
    · omega
    · rw [Nat.sub_add_comm hd]
      exact ih (by omega) h
    · exact ih hd h

/-- A search may be stopped and gone on with, if it has not ended. -/
theorem stillOpen_append (depth : Nat) (xs ys : List Marked) :
    stillOpen depth (xs ++ ys) = (stillOpen depth xs).bind fun d => stillOpen d ys := by
  induction xs generalizing depth with
  | nil => rfl
  | cons m xs ih =>
    rw [List.cons_append, stillOpen, stillOpen]
    split_ifs
    · exact ih depth
    · exact ih (depth + 1)
    · rfl
    · exact ih (depth - 1)
    · exact ih depth

/-- A search that has not ended at the end has not ended on the way. -/
theorem stillOpen_take {depth k : Nat} {ms : List Marked} (h : stillOpen depth ms = some k)
    (n : Nat) : ∃ d, stillOpen depth (ms.take n) = some d := by
  rw [← List.take_append_drop n ms, stillOpen_append, Option.bind_eq_some_iff] at h
  obtain ⟨d, hopen, -⟩ := h
  exact ⟨d, hopen⟩

/-- No closing place is found exactly if the first parenthesis stays open. -/
theorem closing_eq_error {depth k : Nat} {ms : List Marked} :
    closing depth ms = .error k ↔ stillOpen depth ms = some k := by
  induction ms generalizing depth with
  | nil => simp [closing, stillOpen]
  | cons m ms ih =>
    rw [closing, stillOpen]
    split_ifs
    · exact map_eq_error.trans ih
    · exact map_eq_error.trans ih
    · simp
    · exact map_eq_error.trans ih
    · exact map_eq_error.trans ih

/-- Behind the characters before a closing parenthesis outside strings, the first of `depth`
open parentheses is the only one that is open. -/
theorem closing_of_stillOpen {depth : Nat} {xs ys : List Marked}
    (h : stillOpen depth xs = some 1) :
    closing depth (xs ++ ⟨')', false⟩ :: ys) = .ok xs.length := by
  induction xs generalizing depth with
  | nil =>
    obtain rfl := Option.some.inj h
    rfl
  | cons m xs ih =>
    rw [stillOpen] at h
    rw [List.cons_append, closing]
    split_ifs at h ⊢
    all_goals
      rw [ih h]
      rfl

theorem exists_of_closing {depth k : Nat} {ms : List Marked} (hd : 1 ≤ depth)
    (h : closing depth ms = .ok k) :
    ∃ xs ys, ms = xs ++ ⟨')', false⟩ :: ys ∧ xs.length = k ∧ stillOpen depth xs = some 1 := by
  induction ms generalizing depth k with
  | nil => simp [closing] at h
  | cons m ms ih =>
    -- in every branch but one the search goes on behind `m`, at some depth `d`
    have go : ∀ d, 1 ≤ d → (closing d ms).map (· + 1) = .ok k →
        (∀ xs, stillOpen depth (m :: xs) = stillOpen d xs) →
        ∃ xs ys, m :: ms = xs ++ ⟨')', false⟩ :: ys ∧ xs.length = k ∧
          stillOpen depth xs = some 1 := by
      intro d hd' hk hopen
      cases hc : closing d ms with
      | error e => simp [hc, Except.map] at hk
      | ok j =>
        obtain ⟨xs, ys, rfl, rfl, hxs⟩ := ih hd' hc
        rw [hc] at hk
        exact ⟨m :: xs, ys, rfl, Except.ok.inj hk, by rw [hopen, hxs]⟩
    rw [closing] at h
    split_ifs at h with hq ho hc hle
    · exact go depth hd h fun xs => by rw [stillOpen, if_pos hq]
    · exact go (depth + 1) (by omega) h fun xs => by rw [stillOpen, if_neg hq, if_pos ho]
    · obtain rfl := Except.ok.inj h
      obtain rfl : depth = 1 := by omega
      have hm : m = ⟨')', false⟩ := by
        cases m
        simp_all
      exact ⟨[], ms, by rw [hm]; rfl, rfl, rfl⟩
    · exact go (depth - 1) (by omega) h fun xs => by
        rw [stillOpen, if_neg hq, if_neg ho, if_pos hc, if_neg hle]
    · exact go depth hd h fun xs => by rw [stillOpen, if_neg hq, if_neg ho, if_neg hc]

/-- The closing place is the one behind characters that leave only the first parenthesis
open. -/
theorem closing_eq_ok {depth k : Nat} {ms : List Marked} (hd : 1 ≤ depth) :
    closing depth ms = .ok k ↔
      ∃ xs ys, ms = xs ++ ⟨')', false⟩ :: ys ∧ xs.length = k ∧ stillOpen depth xs = some 1 := by
  refine ⟨exists_of_closing hd, ?_⟩
  rintro ⟨xs, ys, rfl, rfl, h⟩
  exact closing_of_stillOpen h

/-- A scan inside parentheses keeps every character while the first of them stays open. -/
theorem Scan.run_inside (tokens : List Text) (pending : Text) {depth k : Nat}
    {ms : List Marked} (hd : 1 ≤ depth) (h : stillOpen depth ms = some k) :
    Scan.run ⟨tokens, pending, depth⟩ ms =
      ⟨tokens, (ms.map Marked.char).reverse ++ pending, k⟩ := by
  induction ms generalizing depth pending with
  | nil =>
    obtain rfl := Option.some.inj h
    rfl
  | cons m ms ih =>
    have hstep : ∀ d, 1 ≤ d → Scan.step ⟨tokens, pending, depth⟩ m =
        ⟨tokens, m.char :: pending, d⟩ → stillOpen d ms = some k →
        Scan.run ⟨tokens, pending, depth⟩ (m :: ms) =
          ⟨tokens, ((m :: ms).map Marked.char).reverse ++ pending, k⟩ := by
      intro d hd' hs hk
      change Scan.run (Scan.step ⟨tokens, pending, depth⟩ m) ms = _
      rw [hs, ih _ hd' hk]
      simp
    have hne : ¬depth = 0 := by omega
    rw [stillOpen] at h
    split_ifs at h with hq ho hc hle
    · exact hstep depth hd (by simp [Scan.step, hne, Scan.stepInside, Scan.push, hq]) h
    · refine hstep (depth + 1) (by omega) ?_ h
      simp [Scan.step, hne, Scan.stepInside, Scan.push, hq, ho]
    · refine hstep (depth - 1) (by omega) ?_ h
      simp [Scan.step, hne, Scan.stepInside, Scan.push, hq, hc, hle]
    · exact hstep depth hd (by simp [Scan.step, hne, Scan.stepInside, Scan.push, hq, ho, hc]) h

/-! ## Matching parentheses of a text -/

/-- A closing parenthesis right behind the text closes the one right in front of it. -/
structure Enclosed (mode : EscapeMode) (t : Text) : Prop where
  /-- The opening parenthesis, and no other, is open behind the text. -/
  stillOpen_eq : stillOpen 1 (Tracker.start.marks mode t) = some 1
  /-- The text ends outside strings. -/
  outside : (Tracker.start.advance mode t).inside = false

/-- The marks of a text that is cut at a character which tells the tracker nothing. -/
theorem marks_cut {mode : EscapeMode} {x y : Text} {c : Char}
    (hx : (Tracker.start.advance mode x).inside = false) (hq : QuoteMark.ofChar? c = none)
    (hb : c ≠ '\\') : Tracker.start.marks mode (x ++ c :: y) =
      Tracker.start.marks mode x ++ ⟨c, false⟩ :: Tracker.start.marks mode y := by
  rw [Tracker.marks_append, Tracker.marks_cons, hx, Tracker.step_eq_start hx hq hb]

theorem advance_cut {mode : EscapeMode} {x y : Text} {c : Char}
    (hx : (Tracker.start.advance mode x).inside = false) (hq : QuoteMark.ofChar? c = none)
    (hb : c ≠ '\\') :
    Tracker.start.advance mode (x ++ c :: y) = Tracker.start.advance mode y := by
  rw [Tracker.advance_append, Tracker.advance_cons, Tracker.step_eq_start hx hq hb]

/-- The marks behind an opening parenthesis outside strings, as a search for its match sees them. -/
theorem drop_markedBy_cut {mode : EscapeMode} {x y : Text}
    (hx : (Tracker.start.advance mode x).inside = false) :
    (markedBy (Quotation.mask mode (x ++ '(' :: y)) (x ++ '(' :: y)).drop (x.length + 1) =
      Tracker.start.marks mode y := by
  change (marked mode (x ++ '(' :: y)).drop (x.length + 1) = _
  rw [Quotation.marked_eq_marks, marks_cut hx rfl (by decide), List.append_cons]
  exact List.drop_left' (by simp)

/-- The parenthesis that matches an opening one outside strings is the closing one behind the
text that the two enclose. -/
theorem matchingParen_eq_ok {mode : EscapeMode} {x y : Text} {k : Nat}
    (hx : (Tracker.start.advance mode x).inside = false) :
    matchingParen (x ++ '(' :: y) (Quotation.mask mode (x ++ '(' :: y)) x.length = .ok k ↔
      ∃ b r, y = b ++ ')' :: r ∧ k = x.length + 1 + b.length ∧ Enclosed mode b := by
  have hok : matchingParen (x ++ '(' :: y) (Quotation.mask mode (x ++ '(' :: y)) x.length = .ok k ↔
      ∃ j, closing 1 (Tracker.start.marks mode y) = .ok j ∧ k = x.length + 1 + j := by
    rw [matchingParen, drop_markedBy_cut hx]
    cases closing 1 (Tracker.start.marks mode y) with
    | error d => simp
    | ok j => simp [eq_comm]
  rw [hok]
  constructor
  · rintro ⟨j, hj, rfl⟩
    obtain ⟨xs, ys, hy, rfl, hxs⟩ := (closing_eq_ok (Nat.le_refl 1)).1 hj
    obtain ⟨b, r, rfl, rfl, hb⟩ := Tracker.exists_of_marks_eq hy
    exact ⟨b, r, rfl, by rw [Tracker.length_marks], hxs, hb.symm⟩
  · rintro ⟨b, r, rfl, rfl, hb⟩
    refine ⟨b.length, ?_, rfl⟩
    rw [marks_cut hb.outside rfl (by decide), closing_of_stillOpen hb.stillOpen_eq,
      Tracker.length_marks]

end CollectionShell.Operation
