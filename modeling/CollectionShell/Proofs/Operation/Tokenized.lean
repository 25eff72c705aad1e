import CollectionShell.Proofs.Operation.Parens
import CollectionShell.Proofs.Outcome
import CollectionShell.Proofs.Text.Basic

/-!
# What the tokens of a text are

`Tokenized` relates a text to its tokens by the places where it is cut : a text without a cut
is a fragment, and one with a cut is a fragment, then a point or a parenthesis with what it
encloses, then a text of its own. A fragment and what a cut leaves behind are read from
outside strings, so nothing in front of them matters. `tokenize_eq_ok` says that `tokenize`
computes this relation.
-/

namespace CollectionShell.Operation

open Quotation (Tracker)

/-- The text has no point and no opening parenthesis outside strings. -/
def Solid (mode : EscapeMode) (t : Text) : Prop :=
  ∀ m ∈ Tracker.start.marks mode t, m.quoted = true ∨ m.char ≠ '.' ∧ m.char ≠ '('

/-- The tokens of a text without a cut : the trimmed text, unless it is blank. -/
def fragment (t : Text) : List Text := if Text.trim t = [] then [] else [Text.trim t]

/-- The text is cut into the tokens. -/
inductive Tokenized (mode : EscapeMode) : Text → List Text → Prop
  /-- There is no cut. -/
  | solid {f : Text} : Solid mode f → Tokenized mode f (fragment f)
  /-- The first cut is at a point. -/
  | point {f r : Text} {ts : List Text} : Solid mode f →
      (Tracker.start.advance mode f).inside = false → Tokenized mode r ts →
      Tokenized mode (f ++ '.' :: r) (fragment f ++ ['.'] :: ts)
  /-- The first cut is at a parenthesis. -/
  | group {f b r : Text} {ts : List Text} : Solid mode f →
      (Tracker.start.advance mode f).inside = false → Enclosed mode b → Tokenized mode r ts →
      Tokenized mode (f ++ '(' :: b ++ ')' :: r) (fragment f ++ ['('] :: b :: [')'] :: ts)

/-! ## Scans that have tokens already -/

namespace Scan

/-- The scan with older tokens. -/
def behind (s : Scan) (older : List Text) : Scan := { s with tokens := s.tokens ++ older }

theorem flushed_behind (s : Scan) (older : List Text) :
    (s.behind older).flushed = s.flushed ++ older := by
  by_cases h : Text.trim s.pending.reverse = [] <;> simp [flushed, behind, h]

theorem step_behind (s : Scan) (older : List Text) (m : Marked) :
    (s.behind older).step m = (s.step m).behind older := by
  have hd : (s.behind older).depth = s.depth := rfl
  by_cases h : s.depth = 0
  · rw [step, step, hd, if_pos h, if_pos h, stepOutside, stepOutside, flushed_behind]
    split_ifs <;> rfl
  · rw [step, step, hd, if_neg h, if_neg h, stepInside, stepInside, hd]
    split_ifs <;> rfl

/-- Older tokens stay where they are. -/
theorem run_behind (s : Scan) (older : List Text) (ms : List Marked) :
    (s.behind older).run ms = (s.run ms).behind older := by
  induction ms generalizing s with
  | nil => rfl
  | cons m ms ih =>
    change ((s.behind older).step m).run ms = ((s.step m).run ms).behind older
    rw [step_behind, ih]

theorem finish_behind (s : Scan) (older : List Text) (unterminated : Bool) :
    (s.behind older).finish unterminated =
      (s.finish unterminated).map (older.reverse ++ ·) := by
  have hd : (s.behind older).depth = s.depth := rfl
  rw [finish, finish, hd, flushed_behind, List.reverse_append]
  split_ifs <;> rfl

theorem flushed_eq (older : List Text) (pending : Text) (depth : Nat) :
    flushed ⟨older, pending, depth⟩ = fragment pending.reverse ++ older := by
  rw [flushed, fragment]
  split_ifs <;> rfl

/-- A scan outside parentheses keeps the characters of a text without a cut. -/
theorem run_solid (tokens : List Text) (pending : Text) {ms : List Marked}
    (h : ∀ m ∈ ms, m.quoted = true ∨ m.char ≠ '.' ∧ m.char ≠ '(') :
    run ⟨tokens, pending, 0⟩ ms = ⟨tokens, (ms.map Marked.char).reverse ++ pending, 0⟩ := by
  induction ms generalizing pending with
  | nil => rfl
  | cons m ms ih =>
    have hstep : step ⟨tokens, pending, 0⟩ m = ⟨tokens, m.char :: pending, 0⟩ := by
      rcases h m List.mem_cons_self with hq | ⟨hp, ho⟩
      · simp [step, stepOutside, push, hq]
      · simp [step, stepOutside, push, hp, ho]
    change run (step ⟨tokens, pending, 0⟩ m) ms = _
    rw [hstep, ih _ fun m' hm' => h m' (List.mem_cons_of_mem m hm')]
    simp

end Scan

/-! ## Tokens of texts with a cut -/

variable {mode : EscapeMode} {f b r : Text}

theorem tokenize_eq (mode : EscapeMode) (t : Text) :
    tokenize mode t = (Scan.start.run (Tracker.start.marks mode t)).finish
      (Tracker.start.advance mode t).inside := by
  rw [tokenize, Quotation.marked_eq_marks, Quotation.endsInside_eq]

theorem run_solid_start (hf : Solid mode f) :
    Scan.start.run (Tracker.start.marks mode f) = ⟨[], f.reverse, 0⟩ := by
  have h := Scan.run_solid [] [] hf
  rw [Tracker.map_char_marks, List.append_nil] at h
  exact h

theorem tokenize_solid (hf : Solid mode f) : tokenize mode f = .ok (fragment f) := by
  rw [tokenize_eq, run_solid_start hf, Scan.finish, if_pos rfl, Scan.flushed_eq,
    List.reverse_reverse, List.append_nil]
  rw [fragment]
  split_ifs <;> rfl

theorem tokenize_point (hf : Solid mode f) (ho : (Tracker.start.advance mode f).inside = false) :
    tokenize mode (f ++ '.' :: r) =
      (tokenize mode r).map fun ts => fragment f ++ ['.'] :: ts := by
  have hrev : ∀ ts, (['.'] :: fragment f).reverse ++ ts = fragment f ++ ['.'] :: ts := by
    intro ts
    rw [fragment]
    split_ifs <;> rfl
  have hcut : Scan.step ⟨[], f.reverse, 0⟩ ⟨'.', false⟩ =
      Scan.start.behind (['.'] :: fragment f) := by
    simp [Scan.step, Scan.stepOutside, Scan.flushed_eq, Scan.behind, Scan.start]
  rw [tokenize_eq, tokenize_eq, marks_cut ho rfl (by decide), advance_cut ho rfl (by decide),
    Scan.run_append, run_solid_start hf]
  change ((Scan.step ⟨[], f.reverse, 0⟩ ⟨'.', false⟩).run _).finish _ = _
  rw [hcut, Scan.run_behind, Scan.finish_behind]
  simp only [hrev]

/-- The scan behind a text without a cut and an opening parenthesis. -/
theorem run_open (hf : Solid mode f) (ho : (Tracker.start.advance mode f).inside = false) :
    Scan.start.run (Tracker.start.marks mode (f ++ '(' :: r)) =
      Scan.run ⟨['('] :: fragment f, [], 1⟩ (Tracker.start.marks mode r) := by
  have hcut : Scan.step ⟨[], f.reverse, 0⟩ ⟨'(', false⟩ = ⟨['('] :: fragment f, [], 1⟩ := by
    simp [Scan.step, Scan.stepOutside, Scan.flushed_eq]
  rw [marks_cut ho rfl (by decide), Scan.run_append, run_solid_start hf]
  change (Scan.step ⟨[], f.reverse, 0⟩ ⟨'(', false⟩).run _ = _
  rw [hcut]

theorem tokenize_group (hf : Solid mode f) (ho : (Tracker.start.advance mode f).inside = false)
    (hb : Enclosed mode b) : tokenize mode (f ++ '(' :: b ++ ')' :: r) =
      (tokenize mode r).map fun ts => fragment f ++ ['('] :: b :: [')'] :: ts := by
  have hrev : ∀ ts, ([')'] :: b :: ['('] :: fragment f).reverse ++ ts =
      fragment f ++ ['('] :: b :: [')'] :: ts := by
    intro ts
    rw [fragment]
    split_ifs <;> rfl
  have hclose : Scan.step ⟨['('] :: fragment f, b.reverse, 1⟩ ⟨')', false⟩ =
      Scan.start.behind ([')'] :: b :: ['('] :: fragment f) := by
    simp [Scan.step, Scan.stepInside, Scan.behind, Scan.start]
  have hin := Scan.run_inside (['('] :: fragment f) [] (Nat.le_refl 1)
    hb.stillOpen_eq
  rw [Tracker.map_char_marks, List.append_nil] at hin
  rw [List.append_assoc, List.cons_append, tokenize_eq, tokenize_eq, run_open hf ho,
    advance_cut ho rfl (by decide), marks_cut hb.outside rfl (by decide),
    advance_cut hb.outside rfl (by decide), Scan.run_append, hin]
  change ((Scan.step ⟨['('] :: fragment f, b.reverse, 1⟩ ⟨')', false⟩).run _).finish _ = _
  rw [hclose, Scan.run_behind, Scan.finish_behind]
  simp only [hrev]

/-- An opening parenthesis that is never closed is an error about the text from there on. -/
theorem tokenize_unclosed {k : Nat} (hf : Solid mode f)
    (ho : (Tracker.start.advance mode f).inside = false)
    (hr : stillOpen 1 (Tracker.start.marks mode r) = some k) :
    tokenize mode (f ++ '(' :: r) = .error (.unbalanced {
      text := '(' :: r, parens := k, unterminated := (Tracker.start.advance mode r).inside }) := by
  have hk := stillOpen_pos (Nat.le_refl 1) hr
  have hin := Scan.run_inside (['('] :: fragment f) [] (Nat.le_refl 1) hr
  rw [Tracker.map_char_marks, List.append_nil] at hin
  rw [tokenize_eq, run_open hf ho, advance_cut ho rfl (by decide), hin, Scan.finish,
    if_neg (show ¬k = 0 by omega), List.reverse_reverse]

/-! ## Finding the first cut -/

/-- Where a text is cut first, if it is. -/
inductive FirstCut (mode : EscapeMode) : Text → Prop
  /-- Nowhere. -/
  | solid {f : Text} : Solid mode f → FirstCut mode f
  /-- At a point. -/
  | point {f r : Text} : Solid mode f → (Tracker.start.advance mode f).inside = false →
      FirstCut mode (f ++ '.' :: r)
  /-- At a parenthesis that is closed. -/
  | group {f b r : Text} : Solid mode f → (Tracker.start.advance mode f).inside = false →
      Enclosed mode b → FirstCut mode (f ++ '(' :: b ++ ')' :: r)
  /-- At a parenthesis that is not closed. -/
  | unclosed {f r : Text} {k : Nat} : Solid mode f →
      (Tracker.start.advance mode f).inside = false →
      stillOpen 1 (Tracker.start.marks mode r) = some k → FirstCut mode (f ++ '(' :: r)

theorem exists_solid_prefix (ms : List Marked) :
    (∀ m ∈ ms, m.quoted = true ∨ m.char ≠ '.' ∧ m.char ≠ '(') ∨
      ∃ xs m ys, ms = xs ++ m :: ys ∧ m.quoted = false ∧ (m.char = '.' ∨ m.char = '(') ∧
        ∀ m ∈ xs, m.quoted = true ∨ m.char ≠ '.' ∧ m.char ≠ '(' := by
  induction ms with
  | nil => exact .inl (by simp)
  | cons m ms ih =>
    by_cases hm : m.quoted = true ∨ m.char ≠ '.' ∧ m.char ≠ '('
    · rcases ih with h | ⟨xs, m', ys, rfl, hq, hc, h⟩
      · exact .inl (List.forall_mem_cons.2 ⟨hm, h⟩)
      · exact .inr ⟨m :: xs, m', ys, rfl, hq, hc, List.forall_mem_cons.2 ⟨hm, h⟩⟩
    · refine .inr ⟨[], m, ms, rfl, ?_, ?_, by simp⟩
      · simpa using fun hq => hm (.inl hq)
      · by_contra hc
        exact hm (.inr (not_or.1 hc))

theorem firstCut (mode : EscapeMode) (t : Text) : FirstCut mode t := by
  rcases exists_solid_prefix (Tracker.start.marks mode t) with h | ⟨xs, m, ys, h, hq, hc, hxs⟩
  · exact .solid h
  obtain ⟨f, r, rfl, rfl, hf⟩ := Tracker.exists_of_marks_eq h
  have ho : (Tracker.start.advance mode f).inside = false := hf ▸ hq
  rcases hc with hc | hc <;> rw [hc]
  · exact .point hxs ho
  · cases hr : closing 1 (Tracker.start.marks mode r) with
    | error k => exact .unclosed hxs ho (closing_eq_error.1 hr)
    | ok k =>
      obtain ⟨xs', ys', hmarks, -, hopen⟩ := (closing_eq_ok (Nat.le_refl 1)).1 hr
      obtain ⟨b, r', rfl, rfl, hb⟩ := Tracker.exists_of_marks_eq hmarks
      have := FirstCut.group (r := r') hxs ho ⟨hopen, hb.symm⟩
      rwa [List.append_assoc] at this

theorem tokenize_of_tokenized {t : Text} {ts : List Text} (h : Tokenized mode t ts) :
    tokenize mode t = .ok ts := by
  induction h with
  | solid hf => exact tokenize_solid hf
  | point hf ho _ ih =>
    rw [tokenize_point hf ho, ih]
    rfl
  | group hf ho hb _ ih =>
    rw [tokenize_group hf ho hb, ih]
    rfl

/-- Induction along the cuts of a text : from what a cut leaves behind to the text. -/
theorem cut_induction (mode : EscapeMode) {motive : Text → Prop}
    (solid : ∀ f, Solid mode f → motive f)
    (point : ∀ f r, Solid mode f → (Tracker.start.advance mode f).inside = false → motive r →
      motive (f ++ '.' :: r))
    (group : ∀ f b r, Solid mode f → (Tracker.start.advance mode f).inside = false →
      Enclosed mode b → motive r → motive (f ++ '(' :: b ++ ')' :: r))
    (unclosed : ∀ f r k, Solid mode f → (Tracker.start.advance mode f).inside = false →
      stillOpen 1 (Tracker.start.marks mode r) = some k → motive (f ++ '(' :: r))
    (t : Text) : motive t := by
  -- what a cut leaves behind is shorter
  induction hn : t.length using Nat.strong_induction_on generalizing t with
  | h n ih =>
    subst hn
    cases firstCut mode t with
    | solid hf => exact solid t hf
    | @point f r hf ho => exact point f r hf ho (ih r.length (by simp; omega) r rfl)
    | @group f b r hf ho hb => exact group f b r hf ho hb (ih r.length (by simp; omega) r rfl)
    | @unclosed f r k hf ho hr => exact unclosed f r k hf ho hr

theorem tokenized_of_tokenize {t : Text} {ts : List Text} (h : tokenize mode t = .ok ts) :
    Tokenized mode t ts := by
  induction t using cut_induction mode generalizing ts with
  | solid f hf =>
    obtain rfl := Except.ok.inj ((tokenize_solid hf).symm.trans h)
    exact .solid hf
  | point f r hf ho ih =>
    rw [tokenize_point hf ho] at h
    obtain ⟨ts', hr, rfl⟩ := map_eq_ok.1 h
    exact .point hf ho (ih hr)
  | group f b r hf ho hb ih =>
    rw [tokenize_group hf ho hb] at h
    obtain ⟨ts', hr, rfl⟩ := map_eq_ok.1 h
    exact .group hf ho hb (ih hr)
  | unclosed f r k hf ho hr =>
    rw [tokenize_unclosed hf ho hr] at h
    cases h

/-- A text without tokens has a parenthesis outside strings that is never closed. What stands in
front of it has tokens, and what is said of the text is about the text from there on. -/
theorem exists_of_tokenize_error {t : Text} {e : ParseError} (h : tokenize mode t = .error e) :
    ∃ front rest ts k, t = front ++ '(' :: rest ∧ Tokenized mode front ts ∧
      (Tracker.start.advance mode front).inside = false ∧
      stillOpen 1 (Tracker.start.marks mode rest) = some k ∧
      e = .unbalanced {
        text := '(' :: rest
        parens := k
        unterminated := (Tracker.start.advance mode rest).inside } := by
  induction t using cut_induction mode with
  | solid f hf =>
    rw [tokenize_solid hf] at h
    cases h
  | point f r hf ho ih =>
    rw [tokenize_point hf ho, map_eq_error] at h
    obtain ⟨front, rest, ts, k, rfl, hts, hout, hopen, he⟩ := ih h
    refine ⟨f ++ '.' :: front, rest, _, k, by simp, .point hf ho hts, ?_, hopen, he⟩
    rw [advance_cut ho rfl (by decide), hout]
  | group f b r hf ho hb ih =>
    rw [tokenize_group hf ho hb, map_eq_error] at h
    obtain ⟨front, rest, ts, k, rfl, hts, hout, hopen, he⟩ := ih h
    refine ⟨f ++ '(' :: b ++ ')' :: front, rest, _, k, by simp, .group hf ho hb hts, ?_, hopen, he⟩
    rw [List.append_assoc, List.cons_append, advance_cut ho rfl (by decide),
      advance_cut hb.outside rfl (by decide), hout]
  | unclosed f r k hf ho hr =>
    rw [tokenize_unclosed hf ho hr] at h
    exact ⟨f, r, _, k, rfl, .solid hf, ho, hr, (Except.error.inj h).symm⟩

/-- A text has the tokens that it is cut into. -/
theorem tokenize_eq_ok {t : Text} {ts : List Text} :
    tokenize mode t = .ok ts ↔ Tokenized mode t ts :=
  ⟨tokenized_of_tokenize, tokenize_of_tokenized⟩

end CollectionShell.Operation
