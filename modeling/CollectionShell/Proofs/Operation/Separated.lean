import CollectionShell.Proofs.Operation.Balance
import CollectionShell.Proofs.Operation.Parens
import Mathlib.Tactic.NthRewrite

/-!
# Segments and commas

`Separated` says of a text that it is some segments in order with commas between them, blanks
around them and at most one comma behind the last. Whatever a mode takes for a string, the
segments that a text is cut into are separated in it (`separated_of_split`), because the cut
drops nothing but commas and blanks.

The converse needs segments that the cut leaves whole. A text is `Neutral` if, read from
outside strings at no negative depth, it ends where it began, with no parenthesis outside its
strings and no comma to cut at. Separated neutral segments are what the cut finds
(`split_of_separated`), and they stand between parentheses that match (`Neutral.enclosed`).
-/

namespace CollectionShell.Operation

open Quotation (Tracker Within)
open Text (Blank)

/-- The text is the segments in order, with a comma behind each but the last, which may have
one too, and with blanks around segments and commas. No segment has blanks at its ends. -/
inductive Separated : Text → List Text → Prop
  /-- No segments, or none behind the last comma. -/
  | blank {b : Text} : Blank b → Separated b []
  /-- The last segment without a comma behind it. -/
  | last {p t s : Text} : Blank p → Blank s → Text.trim t = t → Separated (p ++ t ++ s) [t]
  /-- A segment and a comma. -/
  | comma {p t s rest : Text} {ts : List Text} : Blank p → Blank s → Text.trim t = t →
      Separated rest ts → Separated (p ++ t ++ s ++ ',' :: rest) (t :: ts)

theorem Separated.trim_eq {b : Text} {ts : List Text} (h : Separated b ts) :
    ∀ t ∈ ts, Text.trim t = t := by
  induction h with
  | blank => exact nofun
  | last _ _ ht => exact List.forall_mem_cons.2 ⟨ht, nofun⟩
  | comma _ _ ht _ ih => exact List.forall_mem_cons.2 ⟨ht, ih⟩

/-- More blanks may stand in front. -/
theorem Separated.pad {p b : Text} {ts : List Text} (hp : Blank p) (h : Separated b ts) :
    Separated (p ++ b) ts := by
  cases h with
  | blank hb => exact .blank (Text.blank_append.2 ⟨hp, hb⟩)
  | @last q t s hq hs ht =>
    have := Separated.last (Text.blank_append.2 ⟨hp, hq⟩) hs ht
    rwa [List.append_assoc, List.append_assoc, ← List.append_assoc q] at this
  | @comma q t s rest ts hq hs ht hrest =>
    have := Separated.comma (Text.blank_append.2 ⟨hp, hq⟩) hs ht hrest
    simpa using this

namespace Splitter

variable {mode : EscapeMode}

theorem strings_step (s : Splitter) (c : Char) :
    (s.step mode c).strings = s.strings.step mode c := rfl

/-- Older segments stay, and the new ones are separated in what is pending and the text. -/
theorem separated_of_finish (t : Text) :
    ∀ (s : Splitter) (b : Text) (segments : List Text),
      (s.run mode t).finish b = .ok segments →
      ∃ new, segments = s.segments.reverse ++ new ∧ Separated (s.pending.reverse ++ t) new := by
  induction t with
  | nil =>
    intro s b segments h
    change s.finish b = .ok segments at h
    obtain ⟨p, e, hp, he, htrim⟩ := Text.exists_blank_append_trim s.pending.reverse
    rw [List.append_nil]
    rw [finish] at h
    split_ifs at h with hd
    obtain rfl := Except.ok.inj h
    by_cases ht : Text.trim s.pending.reverse = []
    · exact ⟨[], by simp [ht], .blank (Text.trim_eq_nil.1 ht)⟩
    · refine ⟨[Text.trim s.pending.reverse], by simp [ht], ?_⟩
      nth_rewrite 1 [htrim]
      exact .last hp he (Text.trim_trim _)
  | cons c t ih =>
    intro s b segments h
    obtain ⟨new, hsegs, hnew⟩ := ih (s.step mode c) b segments h
    by_cases hcut : s.Cut c
    · obtain rfl := hcut.1
      obtain ⟨p, e, hpb, heb, htrim⟩ := Text.exists_blank_append_trim s.pending.reverse
      simp only [step_eq, hcut, if_true] at hsegs hnew
      refine ⟨Text.trim s.pending.reverse :: new, by simpa using hsegs, ?_⟩
      nth_rewrite 1 [htrim]
      exact .comma hpb heb (Text.trim_trim _) hnew
    · simp only [step_eq, hcut, if_false] at hsegs hnew
      exact ⟨new, hsegs, by simpa using hnew⟩

end Splitter

/-- The segments of a text are separated in it. -/
theorem separated_of_split {mode : EscapeMode} {blob : Text} {segments : List Text}
    (h : splitArguments mode blob = .ok segments) : Separated blob segments := by
  obtain ⟨new, rfl, hnew⟩ := Splitter.separated_of_finish blob Splitter.start blob segments h
  exact hnew

/-! ## Neutral texts -/

namespace Splitter

/-- The text is pending. -/
def keep (s : Splitter) (t : Text) : Splitter := { s with pending := t.reverse ++ s.pending }

theorem keep_keep (s : Splitter) (x y : Text) : (s.keep x).keep y = s.keep (x ++ y) := by
  simp [keep]

variable {mode : EscapeMode}

theorem strings_run (mode : EscapeMode) (s : Splitter) (t : Text) :
    (s.run mode t).strings = s.strings.advance mode t := by
  induction t generalizing s with
  | nil => rfl
  | cons c t ih => exact ih (s.step mode c)

/-- Outside strings the tracker learns nothing from a character that is neither a quote mark nor
a backslash. -/
theorem step_outside {s : Splitter} {c : Char} (hs : s.strings = Tracker.start)
    (hq : QuoteMark.ofChar? c = none) (hb : c ≠ '\\') :
    s.step mode c = { s.stepOutside c with strings := Tracker.start } := by
  rw [step, hs, if_neg (by decide), Tracker.step_eq_start rfl hq hb]

theorem step_ordinary {s : Splitter} {c : Char} (hs : s.strings = Tracker.start)
    (hc : isSpecial c = false) : s.step mode c = s.keep [c] := by
  have hne : ∀ d, isSpecial d = true → c ≠ d := fun d => ne_of_not_special hc
  have hidle := idle_of_ordinary (t := [c]) (by simpa [Ordinary] using hc) c (by simp)
  rw [step_outside hs hidle.1 hidle.2, stepOutside, if_neg (hne _ (by decide)),
    if_neg (hne _ (by decide)), if_neg (hne _ (by decide)), if_neg (hne _ (by decide)),
    if_neg fun h => hne ',' (by decide) h.1, ← hs]
  rfl

/-- The depths are changed. -/
def deepen (s : Splitter) (braces brackets : Int) : Splitter :=
  { s with braces := s.braces + braces, brackets := s.brackets + brackets }

/-- Outside strings a comma cuts if no brace or bracket is open, and is kept otherwise. -/
theorem step_comma {s : Splitter} (hs : s.strings = Tracker.start) :
    s.step mode ',' =
      if s.braces = 0 ∧ s.brackets = 0 then
        { s with pending := [], segments := Text.trim s.pending.reverse :: s.segments }
      else s.keep [','] := by
  rw [step_outside hs rfl (by decide), ← hs]
  simp only [stepOutside, Char.reduceEq, if_false, true_and]
  split_ifs <;> rfl

/-- Outside strings, braces and brackets, with a pending text and the segments in front of it,
the last one first. -/
def outer (pending : Text) (older : List Text) : Splitter :=
  ⟨Tracker.start, 0, 0, pending.reverse, older⟩

/-- Behind a cut nothing is pending, and the splitter starts afresh. -/
theorem step_cut {s : Splitter} {c : Char} (h : s.Cut c) :
    s.step mode c = outer [] (Text.trim s.pending.reverse :: s.segments) := by
  obtain ⟨rfl, ho, hb, hk⟩ := id h
  rw [step_eq, if_pos h, if_pos h, Tracker.step_eq_start ho rfl (by decide), ho, hb, hk]
  rfl

theorem step_outer_comma (x : Text) (older : List Text) :
    (outer x older).step mode ',' = outer [] (Text.trim x :: older) := by
  rw [step_cut ⟨rfl, rfl, rfl, rfl⟩]
  simp [outer]

theorem finish_outer (x : Text) (older : List Text) (b : Text) :
    (outer x older).finish b =
      .ok (if Text.trim x = [] then older.reverse else (Text.trim x :: older).reverse) := by
  simp [finish, outer, Tracker.start, Tracker.inside]

/-- Inside a string every character is kept. -/
theorem run_within {s : Splitter} {t : Text} {b : Tracker} (h : Within mode s.strings t b) :
    s.run mode t = { s.keep t with strings := b } := by
  induction t generalizing s with
  | nil =>
    obtain rfl := h.advance_eq
    rfl
  | cons c t ih =>
    have hin : s.strings.inside = true := h.quoted _ List.mem_cons_self
    have hstep : s.step mode c = { s.push c with strings := s.strings.step mode c } := by
      rw [step, if_pos hin]
    have hrest : Within mode (s.step mode c).strings t b :=
      ⟨fun m hm => h.quoted m (List.mem_cons_of_mem _ hm), h.advance_eq⟩
    change (s.step mode c).run mode t = _
    rw [ih hrest, hstep]
    simp [keep, push]

end Splitter

/-- Read from outside strings at no negative depth, where braces and brackets together are at
least `n` deep, the text ends at the same depth outside strings, is not cut, and has no
parentheses outside its strings. -/
structure Neutral (mode : EscapeMode) (n : Int) (t : Text) : Prop where
  /-- Parentheses are quoted. -/
  parenless : ∀ m ∈ Tracker.start.marks mode t, m.quoted = true ∨ m.char ≠ '(' ∧ m.char ≠ ')'
  /-- Every character is kept. -/
  run_eq : ∀ s : Splitter, s.strings = Tracker.start → 0 ≤ s.braces → 0 ≤ s.brackets →
    n ≤ s.braces + s.brackets → s.run mode t = s.keep t

namespace Neutral

variable {mode : EscapeMode} {n k : Int} {x y t : Text}

theorem mono (h : Neutral mode n t) (hk : n ≤ k) : Neutral mode k t :=
  ⟨h.parenless, fun s hs hb hc hn => h.run_eq s hs hb hc (by omega)⟩

theorem deeper (h : Neutral mode 0 t) : Neutral mode 1 t := h.mono (by decide)

theorem advance_eq (h : Neutral mode n t) :
    Tracker.start.advance mode t = Tracker.start := by
  have hdeep := h.run_eq ⟨Tracker.start, max n 0, 0, [], []⟩ rfl (by dsimp only; omega)
    (by dsimp only; omega) (by dsimp only; omega)
  have := Splitter.strings_run mode ⟨Tracker.start, max n 0, 0, [], []⟩ t
  rw [hdeep] at this
  exact this.symm

theorem append (hx : Neutral mode n x) (hy : Neutral mode n y) : Neutral mode n (x ++ y) := by
  refine ⟨fun m hm => ?_, fun s hs hb hc hn => ?_⟩
  · rw [Tracker.marks_append, hx.advance_eq, List.mem_append] at hm
    exact hm.elim (hx.parenless m) (hy.parenless m)
  · rw [Splitter.run_append, hx.run_eq s hs hb hc hn, hy.run_eq (s.keep x) hs hb hc hn,
      Splitter.keep_keep]

theorem ordinary (h : Ordinary t) : Neutral mode n t := by
  refine ⟨fun m hm => ?_, fun s hs _ _ _ => ?_⟩
  · rw [marks_ordinary h, List.mem_map] at hm
    obtain ⟨c, hc, rfl⟩ := hm
    exact .inr ⟨ne_of_not_special (h c hc) (by decide), ne_of_not_special (h c hc) (by decide)⟩
  · induction t generalizing s with
    | nil => rfl
    | cons c t ih =>
      obtain ⟨hc, ht⟩ := ordinary_cons.1 h
      change (s.step mode c).run mode t = _
      rw [Splitter.step_ordinary hs hc, ih ht (s.keep [c]) hs ‹_› ‹_› ‹_›, Splitter.keep_keep]
      rfl

theorem blank (h : Blank t) : Neutral mode n t := ordinary (ordinary_of_blank h)

/-- Inside braces or brackets a comma does not cut. -/
theorem comma (hn : 1 ≤ n) : Neutral mode n [','] := by
  refine ⟨fun m hm => ?_, fun s hs _ _ hd => ?_⟩
  · obtain rfl := List.mem_singleton.1 hm
    exact .inr (by decide)
  · have hcut : ¬(s.braces = 0 ∧ s.brackets = 0) := by omega
    change s.step mode ',' = _
    rw [Splitter.step_comma hs, if_neg hcut]

/-- A text between two characters of which the first makes it deeper and the second undoes
that. -/
theorem between {opening close : Char} {braces brackets : Int} (h : Neutral mode 1 t)
    (hb : 0 ≤ braces) (hk : 0 ≤ brackets) (hd : 1 ≤ braces + brackets)
    (ho : opening ≠ '(' ∧ opening ≠ ')') (hc : close ≠ '(' ∧ close ≠ ')')
    (hopen : ∀ s : Splitter, s.strings = Tracker.start →
      s.step mode opening = (s.deepen braces brackets).keep [opening])
    (hclose : ∀ s : Splitter, s.strings = Tracker.start →
      s.step mode close = (s.deepen (-braces) (-brackets)).keep [close]) :
    Neutral mode 0 (opening :: t ++ [close]) := by
  have hstart : Tracker.start.step mode opening = Tracker.start := by
    have := congrArg Splitter.strings (hopen Splitter.start rfl)
    exact this
  refine ⟨fun m hm => ?_, fun s hs hb' hk' _ => ?_⟩
  · rw [List.cons_append, Tracker.marks_cons, hstart, Tracker.marks_append, h.advance_eq] at hm
    rcases List.mem_cons.1 hm with rfl | hm
    · exact .inr ho
    · rcases List.mem_append.1 hm with hm | hm
      · exact h.parenless m hm
      · obtain rfl := List.mem_singleton.1 hm
        exact .inr hc
  · have hin := h.run_eq ((s.deepen braces brackets).keep [opening]) hs
      (Int.add_nonneg hb' hb) (Int.add_nonneg hk' hk)
      (by dsimp only [Splitter.keep, Splitter.deepen]; omega)
    change (s.step mode opening).run mode (t ++ [close]) = _
    rw [hopen s hs, Splitter.run_append, hin]
    change Splitter.step mode _ close = _
    rw [hclose (((s.deepen braces brackets).keep [opening]).keep t) hs]
    have hb0 : s.braces + braces + -braces = s.braces := by omega
    have hk0 : s.brackets + brackets + -brackets = s.brackets := by omega
    simp [Splitter.keep, Splitter.deepen, hb0, hk0]

theorem bracketed (h : Neutral mode 1 t) : Neutral mode 0 ('[' :: t ++ [']']) := by
  refine between h (Int.le_refl 0) (Int.le_add_one (Int.le_refl 0)) (by decide) (by decide)
    (by decide) (fun s hs => ?_) fun s hs => ?_
  · rw [Splitter.step_outside hs rfl (by decide), ← hs]
    simp [Splitter.stepOutside, Splitter.keep, Splitter.deepen, Splitter.push]
  · rw [Splitter.step_outside hs rfl (by decide), ← hs]
    simp [Splitter.stepOutside, Splitter.keep, Splitter.deepen, Splitter.push, Int.sub_eq_add_neg]

theorem braced (h : Neutral mode 1 t) : Neutral mode 0 ('\x7b' :: t ++ ['\x7d']) := by
  refine between h (Int.le_add_one (Int.le_refl 0)) (Int.le_refl 0) (by decide) (by decide)
    (by decide) (fun s hs => ?_) fun s hs => ?_
  · rw [Splitter.step_outside hs rfl (by decide), ← hs]
    simp [Splitter.stepOutside, Splitter.keep, Splitter.deepen, Splitter.push]
  · rw [Splitter.step_outside hs rfl (by decide), ← hs]
    simp [Splitter.stepOutside, Splitter.keep, Splitter.deepen, Splitter.push, Int.sub_eq_add_neg]

/-- A string literal whose string is open all the way to the closing mark, which is not
escaped. -/
theorem literal (h : Within mode ⟨some .quotation, false⟩ t ⟨some .quotation, false⟩) :
    Neutral mode 0 ('\x22' :: t ++ ['\x22']) := by
  have hopen : Tracker.start.step mode '\x22' = ⟨some .quotation, false⟩ := by
    cases mode <;> rfl
  have hclose : (⟨some .quotation, false⟩ : Tracker).step mode '\x22' = Tracker.start := by
    cases mode <;> rfl
  have hrest : Within mode (Tracker.start.step mode '\x22') (t ++ ['\x22']) Tracker.start := by
    rw [hopen]
    refine h.append (.cons rfl ?_)
    rw [hclose]
    exact .nil
  refine ⟨fun m hm => ?_, fun s hs _ _ _ => ?_⟩
  · rcases List.mem_cons.1 hm with rfl | hm
    · exact .inr (by decide)
    · exact .inl (hrest.quoted m hm)
  · have hfirst : s.step mode '\x22' =
        { s.push '\x22' with strings := Tracker.start.step mode '\x22' } := by
      rw [Splitter.step, hs, if_neg (by decide)]
      rfl
    have hin := Splitter.run_within (s := s.step mode '\x22') (t := t ++ ['\x22'])
      (b := Tracker.start) (by rw [Splitter.strings_step, hs]; exact hrest)
    change (s.step mode '\x22').run mode (t ++ ['\x22']) = _
    rw [hin, hfirst, ← hs]
    simp [Splitter.keep, Splitter.push]

/-- A neutral text between parentheses has them match. -/
theorem enclosed (h : Neutral mode n t) : Enclosed mode t :=
  ⟨stillOpen_of_forall 1 h.parenless, by rw [h.advance_eq]; rfl⟩

end Neutral

/-- The segment is what the cut leaves whole : a neutral text that is not empty and has no blanks
to trim. -/
structure Whole (mode : EscapeMode) (t : Text) : Prop where
  neutral : Neutral mode 0 t
  trim_eq : Text.trim t = t
  ne_nil : t ≠ []

section

variable {mode : EscapeMode} {blob : Text} {ts : List Text}

theorem Whole.padded {p t s : Text} (h : Whole mode t) (hp : Blank p) (hs : Blank s) :
    Neutral mode 0 (p ++ t ++ s) ∧ Text.trim (p ++ t ++ s) = t := by
  refine ⟨((Neutral.blank hp).append h.neutral).append (.blank hs), ?_⟩
  rw [Text.trim_append_blank hp hs, h.trim_eq]

/-- Separated segments are neutral where commas do not cut. -/
theorem Neutral.separated (h : Separated blob ts) (hts : ∀ t ∈ ts, Whole mode t) :
    Neutral mode 1 blob := by
  induction h with
  | blank hb => exact .blank hb
  | last hp hs _ => exact ((hts _ List.mem_cons_self).padded hp hs).1.deeper
  | comma hp hs _ _ ih =>
    have hpad := ((hts _ List.mem_cons_self).padded hp hs).1.deeper
    have hrest := ih fun t ht => hts t (List.mem_cons_of_mem _ ht)
    exact hpad.append ((Neutral.comma (Int.le_refl 1)).append hrest)

theorem Neutral.run_outer {x : Text} (h : Neutral mode 0 x) (older : List Text) :
    (Splitter.outer [] older).run mode x = Splitter.outer x older := by
  rw [h.run_eq (Splitter.outer [] older) rfl (Int.le_refl 0) (Int.le_refl 0) (Int.le_refl 0)]
  simp [Splitter.keep, Splitter.outer]

theorem finish_separated (h : Separated blob ts) (hts : ∀ t ∈ ts, Whole mode t)
    (older : List Text) (b : Text) :
    ((Splitter.outer [] older).run mode blob).finish b = .ok (older.reverse ++ ts) := by
  induction h generalizing older with
  | blank hb =>
    rw [(Neutral.blank hb).run_outer, Splitter.finish_outer, if_pos (Text.trim_eq_nil.2 hb),
      List.append_nil]
  | last hp hs _ =>
    obtain ⟨hpad, htrim⟩ := (hts _ List.mem_cons_self).padded hp hs
    rw [hpad.run_outer, Splitter.finish_outer, htrim, if_neg (hts _ List.mem_cons_self).ne_nil,
      List.reverse_cons]
  | @comma p t s rest ts hp hs _ _ ih =>
    obtain ⟨hpad, htrim⟩ := (hts _ List.mem_cons_self).padded hp hs
    have hrest := ih (fun t ht => hts t (List.mem_cons_of_mem _ ht)) (t :: older)
    rw [Splitter.run_append, hpad.run_outer]
    change (((Splitter.outer (p ++ t ++ s) older).step mode ',').run mode rest).finish b = _
    rw [Splitter.step_outer_comma, htrim, hrest]
    simp

/-- Separated segments that are whole are what the cut finds. -/
theorem split_of_separated (h : Separated blob ts) (hts : ∀ t ∈ ts, Whole mode t) :
    splitArguments mode blob = .ok ts :=
  finish_separated h hts [] blob

end

end CollectionShell.Operation
