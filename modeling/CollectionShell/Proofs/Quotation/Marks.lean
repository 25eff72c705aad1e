import CollectionShell.Operation.Token
import CollectionShell.Quotation.Tracker
import Mathlib.Data.List.Induction

/-!
# Marks without looking back

The mask of a text looks back through the whole text at every quote mark. A `Tracker` does
not : what it remembers behind a text is what the backslashes at the end of the text mean for
the next character (`Tracker.escaped_step`), so the mask is the list of the tracker's states
(`mask_eq_scanl`) and the marked characters of a text are found by one pass (`marked_eq_marks`).

A pass may stop and go on (`Tracker.marks_append`). `Within` says of a piece of a text that a
string is open all the way through it, and such pieces compose (`Within.append`).
-/

namespace CollectionShell.Quotation

open Operation (Marked marked markedBy)

namespace Tracker

/-- The characters of a text, marked by the states that a tracker goes through. -/
def marks (mode : EscapeMode) (s : Tracker) : Text → List Marked
  | [] => []
  | c :: t => ⟨c, s.inside⟩ :: marks mode (s.step mode c) t

@[simp] theorem advance_nil (mode : EscapeMode) (s : Tracker) : s.advance mode [] = s := rfl

@[simp] theorem advance_cons (mode : EscapeMode) (s : Tracker) (c : Char) (t : Text) :
    s.advance mode (c :: t) = (s.step mode c).advance mode t := rfl

@[simp] theorem marks_nil (mode : EscapeMode) (s : Tracker) : s.marks mode [] = [] := rfl

@[simp] theorem marks_cons (mode : EscapeMode) (s : Tracker) (c : Char) (t : Text) :
    s.marks mode (c :: t) = ⟨c, s.inside⟩ :: (s.step mode c).marks mode t := rfl

@[simp] theorem length_marks (mode : EscapeMode) (s : Tracker) (t : Text) :
    (s.marks mode t).length = t.length := by
  induction t generalizing s with
  | nil => rfl
  | cons c t ih => simp [ih]

theorem map_char_marks (mode : EscapeMode) (s : Tracker) (t : Text) :
    (s.marks mode t).map Marked.char = t := by
  induction t generalizing s with
  | nil => rfl
  | cons c t ih => simp [ih]

/-- Marking may stop and go on from the state that was reached. -/
theorem marks_append (mode : EscapeMode) (s : Tracker) (x y : Text) :
    s.marks mode (x ++ y) = s.marks mode x ++ (s.advance mode x).marks mode y := by
  induction x generalizing s with
  | nil => rfl
  | cons c x ih => simp [ih]

/-- A marked character splits the text that it stands in. -/
theorem exists_of_marks_eq {mode : EscapeMode} {s : Tracker} {t : Text} {xs ys : List Marked}
    {m : Marked} (h : s.marks mode t = xs ++ m :: ys) :
    ∃ x y, t = x ++ m.char :: y ∧ xs = s.marks mode x ∧ m.quoted = (s.advance mode x).inside := by
  induction xs generalizing s t with
  | nil =>
    cases t with
    | nil => simp at h
    | cons c t =>
      obtain ⟨rfl, -⟩ := List.cons.inj h
      exact ⟨[], t, rfl, rfl, rfl⟩
  | cons m' xs ih =>
    cases t with
    | nil => simp at h
    | cons c t =>
      obtain ⟨rfl, ht⟩ := List.cons.inj h
      obtain ⟨x, y, rfl, rfl, hm⟩ := ih ht
      exact ⟨c :: x, y, rfl, rfl, hm⟩

theorem inside_eq_false {s : Tracker} : s.inside = false ↔ s.opened = none := by
  rw [inside, Option.isSome_eq_false_iff, Option.isNone_iff_eq_none]

/-- Outside strings, a character that is neither a quote mark nor a backslash leaves nothing to
remember. -/
theorem step_eq_start {mode : EscapeMode} {s : Tracker} {c : Char} (hs : s.inside = false)
    (hq : QuoteMark.ofChar? c = none) (hb : c ≠ '\\') : s.step mode c = start := by
  rw [inside_eq_false] at hs
  cases mode <;> simp [step, QuoteMark.next, hq, hb, hs, start]

/-- A text of such characters is read as if nothing were in front of what follows. -/
theorem advance_start {mode : EscapeMode} {t : Text}
    (h : ∀ c ∈ t, QuoteMark.ofChar? c = none ∧ c ≠ '\\') : start.advance mode t = start := by
  induction t with
  | nil => rfl
  | cons c t ih =>
    obtain ⟨hq, hb⟩ := h c List.mem_cons_self
    rw [advance_cons, step_eq_start rfl hq hb]
    exact ih fun d hd => h d (List.mem_cons_of_mem c hd)

/-- In such a text no place lies inside a string. -/
theorem marks_start {mode : EscapeMode} {t : Text}
    (h : ∀ c ∈ t, QuoteMark.ofChar? c = none ∧ c ≠ '\\') :
    start.marks mode t = t.map fun c => ⟨c, false⟩ := by
  induction t with
  | nil => rfl
  | cons c t ih =>
    obtain ⟨hq, hb⟩ := h c List.mem_cons_self
    rw [marks_cons, step_eq_start rfl hq hb, ih fun d hd => h d (List.mem_cons_of_mem c hd)]
    rfl

/-- Behind one more character a tracker knows what looking back would say. -/
theorem escaped_step (mode : EscapeMode) (opened : Option QuoteMark) (before : Text) (c : Char) :
    (step mode ⟨opened, mode.escapes before⟩ c).escaped = mode.escapes (c :: before) := by
  cases mode with
  | single => by_cases h : c = '\\' <;> simp [step, EscapeMode.escapes, h]
  | parity =>
    by_cases h : c = '\\'
    · have hrun := Nat.mod_two_eq_zero_or_one (before.takeWhile (· == '\\')).length
      rcases hrun with hrun | hrun <;> simp [step, EscapeMode.escapes, h, hrun, Nat.add_mod]
    · simp [step, EscapeMode.escapes, h]

end Tracker

open Tracker (start inside step)

theorem maskFrom_eq_scanl (mode : EscapeMode) (before : Text) (opened : Option QuoteMark)
    (t : Text) : maskFrom mode before opened t =
      (List.scanl (step mode) ⟨opened, mode.escapes before⟩ t).map inside := by
  induction t generalizing before opened with
  | nil => rfl
  | cons c t ih =>
    have hstep : step mode ⟨opened, mode.escapes before⟩ c =
        ⟨QuoteMark.next opened c (mode.escapes before), mode.escapes (c :: before)⟩ := by
      rw [← Tracker.escaped_step mode opened before c]
      rfl
    rw [maskFrom, ih, List.scanl_cons, List.map_cons, hstep]
    rfl

theorem escapes_nil (mode : EscapeMode) : mode.escapes [] = false := by cases mode <;> rfl

/-- A tracker knows what looking back would say. -/
theorem escaped_advance {mode : EscapeMode} (t : Text) :
    (start.advance mode t).escaped = mode.escapes t.reverse := by
  induction t using List.reverseRecOn with
  | nil => exact (escapes_nil mode).symm
  | append_singleton t c ih =>
    rw [Tracker.advance_append, List.reverse_append, List.reverse_singleton, List.singleton_append,
      ← Tracker.escaped_step mode (start.advance mode t).opened, ← ih]
    rfl

/-- The mask lists the states of a tracker. -/
theorem mask_eq_scanl (mode : EscapeMode) (t : Text) :
    mask mode t = (List.scanl (step mode) start t).map inside := by
  rw [mask, maskFrom_eq_scanl, escapes_nil]
  rfl

/-- An entry of the mask is the state of a tracker behind the text in front of it. -/
theorem getElem?_mask (mode : EscapeMode) {t : Text} {i : Nat} (hi : i ≤ t.length) :
    (mask mode t)[i]? = some (start.advance mode (t.take i)).inside := by
  rw [mask_eq_scanl, List.getElem?_map, List.getElem?_scanl, if_pos hi]
  rfl

theorem markedBy_scanl (mode : EscapeMode) (s : Tracker) (t : Text) :
    markedBy ((List.scanl (step mode) s t).map inside) t = s.marks mode t := by
  induction t generalizing s with
  | nil => rfl
  | cons c t ih =>
    rw [List.scanl_cons, List.map_cons, markedBy, List.zipWith_cons_cons, Tracker.marks_cons,
      ← ih]
    rfl

/-- The marked characters of a text are found by one pass. -/
theorem marked_eq_marks (mode : EscapeMode) (t : Text) : marked mode t = start.marks mode t := by
  rw [marked, mask_eq_scanl, markedBy_scanl]

/-- The marks of the first part of a text do not depend on the second. -/
theorem take_marked_append (mode : EscapeMode) (x y : Text) :
    (marked mode (x ++ y)).take x.length = start.marks mode x := by
  rw [marked_eq_marks, Tracker.marks_append, List.take_left' (Tracker.length_marks mode start x)]

theorem take_marked_length (mode : EscapeMode) (t : Text) :
    (marked mode t).take t.length = start.marks mode t := by
  simpa using take_marked_append mode t []

/-- A text ends inside a string if a tracker does behind it. -/
theorem endsInside_eq (mode : EscapeMode) (t : Text) :
    endsInside mode t = (start.advance mode t).inside := by
  have h : ∀ s : Tracker, ((List.scanl (step mode) s t).map inside).getLastD false =
      (s.advance mode t).inside := by
    intro s
    rw [List.getLastD_eq_getLast?, List.getLast?_map, List.getLast?_scanl]
    rfl
  rw [endsInside, mask_eq_scanl, h]

/-! ## Texts inside a string -/

/-- Read from state `s`, the text has a string open at every place, and leads to `s'`. -/
structure Within (mode : EscapeMode) (s : Tracker) (t : Text) (s' : Tracker) : Prop where
  /-- Every place lies inside a string. -/
  quoted : ∀ m ∈ s.marks mode t, m.quoted = true
  /-- The state behind the text. -/
  advance_eq : s.advance mode t = s'

/-- The state inside a string that a quotation mark opened, with nothing escaped. -/
def insideString : Tracker := ⟨some .quotation, false⟩

namespace Within

variable {mode : EscapeMode} {s s' s'' : Tracker} {x y t : Text} {c : Char} {e : Bool}

theorem nil : Within mode s [] s := ⟨by simp, rfl⟩

theorem cons (hs : s.inside = true) (h : Within mode (s.step mode c) y s') :
    Within mode s (c :: y) s' :=
  ⟨List.forall_mem_cons.2 ⟨hs, h.quoted⟩, h.advance_eq⟩

theorem append (hx : Within mode s x s') (hy : Within mode s' y s'') :
    Within mode s (x ++ y) s'' := by
  refine ⟨fun m hm => ?_, ?_⟩
  · rw [Tracker.marks_append, hx.advance_eq, List.mem_append] at hm
    exact hm.elim (hx.quoted m) (hy.quoted m)
  · rw [Tracker.advance_append, hx.advance_eq, hy.advance_eq]

/-- A character that is neither the closing mark nor a backslash keeps the string open,
escaped or not. -/
theorem keep (hq : c ≠ '\x22') (hb : c ≠ '\\') (h : Within mode insideString t s) :
    Within mode ⟨some .quotation, e⟩ (c :: t) s := by
  refine .cons rfl ?_
  have hstep : Tracker.step mode ⟨some .quotation, e⟩ c = insideString := by
    have hnext : QuoteMark.next (some .quotation) c e = some .quotation := by
      by_cases ha : c = '\x27' <;> cases e <;>
        simp [QuoteMark.next, QuoteMark.ofChar?, QuoteMark.toggle, hq, ha]
    cases mode <;> simp [Tracker.step, insideString, hnext, hb]
  rw [hstep]
  exact h

/-- A backslash together with the character that it escapes keeps it open. -/
theorem escape (h : Within .parity insideString t s) :
    Within .parity insideString ('\\' :: c :: t) s := by
  refine .cons rfl (.cons rfl ?_)
  have hstep : (insideString.step .parity '\\').step .parity c = insideString := by
    have hfirst : insideString.step .parity '\\' = ⟨some .quotation, true⟩ := rfl
    have hnext : QuoteMark.next (some .quotation) c true = some .quotation := by
      unfold QuoteMark.next
      split
      · next h => cases h
      · rfl
    rw [hfirst]
    simp [Tracker.step, hnext, insideString]
  rw [hstep]
  exact h

end Within

end CollectionShell.Quotation
