import CollectionShell.Proofs.Operation.Acceptance

/-!
# Shell quotes around an operation

A shell word loses one pair of quotes and the blanks outside them, but keeps the blanks inside
them, which a word without quotes loses. Nothing comes of the difference : the tokens of a text
are those of the text with blanks in front (`tokenize_blank_append`) or behind it
(`tokenize_append_blank`), and only an error about a parenthesis that is never closed shows the
blanks behind. So an operation is parsed alike with and without quotes around it
(`parse_quoted`).
-/

namespace CollectionShell.Operation

open Quotation (Tracker)
open Text (Blank)

variable {mode : EscapeMode} {p r t : Text}

/-! ## Blanks in front of an operation -/

theorem fragment_blank_append (hp : Blank p) (f : Text) : fragment (p ++ f) = fragment f := by
  have htrim := Text.trim_append_blank hp Text.blank_nil f
  rw [List.append_nil] at htrim
  rw [fragment, fragment, htrim]

/-- Behind blanks a text is read as if they were not there. -/
theorem advance_blank_append (hp : Blank p) (f : Text) :
    Tracker.start.advance mode (p ++ f) = Tracker.start.advance mode f := by
  rw [Tracker.advance_append, advance_ordinary (ordinary_of_blank hp)]

theorem solid_blank_append {f : Text} (hp : Blank p) (hf : Solid mode f) :
    Solid mode (p ++ f) := by
  intro m hm
  rw [Tracker.marks_append, advance_ordinary (ordinary_of_blank hp), List.mem_append] at hm
  exact hm.elim (solid_blank hp m) (hf m)

/-- Blanks in front of a text are of no account for its tokens. -/
theorem tokenize_blank_append (hp : Blank p) (t : Text) :
    tokenize mode (p ++ t) = tokenize mode t := by
  have hout : ∀ {f : Text}, (Tracker.start.advance mode f).inside = false →
      (Tracker.start.advance mode (p ++ f)).inside = false := by
    intro f hf
    rwa [advance_blank_append hp]
  cases firstCut mode t with
  | solid hf =>
    rw [tokenize_solid (solid_blank_append hp hf), tokenize_solid hf, fragment_blank_append hp]
  | point hf ho =>
    rw [← List.append_assoc, tokenize_point (solid_blank_append hp hf) (hout ho),
      tokenize_point hf ho, fragment_blank_append hp]
  | @group f b r hf ho hb =>
    have hassoc : p ++ (f ++ '(' :: b ++ ')' :: r) = p ++ f ++ '(' :: b ++ ')' :: r := by simp
    rw [hassoc, tokenize_group (solid_blank_append hp hf) (hout ho) hb, tokenize_group hf ho hb,
      fragment_blank_append hp]
  | unclosed hf ho hr =>
    rw [← List.append_assoc, tokenize_unclosed (solid_blank_append hp hf) (hout ho) hr,
      tokenize_unclosed hf ho hr]

/-! ## Blanks behind an operation -/

theorem ne_of_blank {c d : Char} (hc : Text.isBlank c = true) (hd : Text.isBlank d = false) :
    c ≠ d := by
  rintro rfl
  rw [hc] at hd
  cases hd

/-- Blanks neither open nor close a string. -/
theorem inside_advance_blank (s : Tracker) (hr : Blank r) :
    (s.advance mode r).inside = s.inside := by
  induction r generalizing s with
  | nil => rfl
  | cons c r ih =>
    rw [Tracker.advance_cons, ih _ fun d hd => hr d (List.mem_cons_of_mem c hd)]
    have hc := idle_of_ordinary (ordinary_of_blank hr) c List.mem_cons_self
    simp [Tracker.step, Tracker.inside, QuoteMark.next, hc.1]

namespace Scan

/-- The scan with more pending text. -/
def keep (s : Scan) (r : Text) : Scan := { s with pending := r.reverse ++ s.pending }

/-- Blanks are kept, be they quoted or not, inside and outside parentheses. -/
theorem step_blank {m : Marked} (s : Scan) (hm : Text.isBlank m.char = true) :
    s.step m = s.push m.char := by
  have hp := ne_of_blank hm (d := '.') (by decide)
  have ho := ne_of_blank hm (d := '(') (by decide)
  have hc := ne_of_blank hm (d := ')') (by decide)
  unfold step
  split_ifs with hd
  · unfold stepOutside
    rw [if_neg hp, if_neg ho, ite_self]
  · unfold stepInside
    rw [if_neg ho, if_neg hc, ite_self]

theorem run_blank (s : Scan) (tracker : Tracker) (hr : Blank r) :
    s.run (tracker.marks mode r) = s.keep r := by
  induction r generalizing s tracker with
  | nil => rfl
  | cons c r ih =>
    have hstep : s.step ⟨c, tracker.inside⟩ = s.push c := step_blank s (hr c List.mem_cons_self)
    rw [Tracker.marks_cons]
    change (s.step ⟨c, tracker.inside⟩).run _ = _
    rw [hstep, ih _ _ fun d hd => hr d (List.mem_cons_of_mem c hd)]
    simp [keep, push]

/-- Pending blanks are no part of a token. -/
theorem flushed_keep (s : Scan) (hr : Blank r) : (s.keep r).flushed = s.flushed := by
  have htrim := Text.trim_append_blank Text.blank_nil hr s.pending.reverse
  rw [List.nil_append] at htrim
  simp [flushed, keep, htrim]

end Scan

/-- Blanks behind a text are of no account for its tokens. If it has none, the blanks stand behind
the text that the error shows. -/
theorem tokenize_append_blank (hr : Blank r) (t : Text) :
    tokenize mode (t ++ r) = tokenize mode t ∨
      ∃ i : Imbalance, 1 ≤ i.parens ∧ tokenize mode t = .error (.unbalanced i) ∧
        tokenize mode (t ++ r) = .error (.unbalanced { i with text := i.text ++ r }) := by
  rw [tokenize_eq, tokenize_eq, Tracker.marks_append, Scan.run_append, Tracker.advance_append,
    inside_advance_blank _ hr, Scan.run_blank _ _ hr]
  generalize Scan.start.run (Tracker.start.marks mode t) = s
  have hdepth : (s.keep r).depth = s.depth := rfl
  rw [Scan.finish, Scan.finish, hdepth, Scan.flushed_keep s hr]
  split_ifs with hd
  · exact .inl rfl
  · refine .inr ⟨_, ?_, rfl, ?_⟩
    · dsimp only
      omega
    · simp [Scan.keep]

/-! ## Quotes -/

/-- The text stands between two shell quotes of one kind. -/
def ShellQuoted (t : Text) : Prop :=
  ∃ (q : Char) (inner : Text), isShellQuote q = true ∧ t = q :: inner ++ [q]

theorem not_blank_of_shellQuote {q : Char} (hq : isShellQuote q = true) :
    Text.isBlank q = false := by
  simp only [isShellQuote, Bool.or_eq_true, beq_iff_eq] at hq
  rcases hq with (rfl | rfl) | rfl <;> decide

theorem unquoted_quoted {q : Char} (hq : isShellQuote q = true) (t : Text) :
    unquoted (q :: t ++ [q]) = t := by
  cases t with
  | nil => simp [unquoted, hq]
  | cons c t =>
    have hlast : (c :: t ++ [q]).getLast? = some q := List.getLast?_concat ..
    change (if isShellQuote q = true ∧ (c :: t ++ [q]).getLast? = some q then
      (c :: t ++ [q]).dropLast else q :: c :: t ++ [q]) = c :: t
    rw [if_pos ⟨hq, hlast⟩, List.dropLast_concat]

theorem unquoted_eq_self (h : ¬ShellQuoted t) : unquoted t = t := by
  unfold unquoted
  split
  · next q c rest =>
    refine if_neg fun ⟨hq, hlast⟩ => h ⟨q, (c :: rest).dropLast, hq, ?_⟩
    rw [List.cons_append, List.dropLast_append_getLast? q hlast]
  · rfl

/-- A word in quotes loses them and the blanks around them. -/
theorem clean_quoted {q : Char} {s : Text} (hq : isShellQuote q = true) (hp : Blank p)
    (hs : Blank s) (t : Text) : clean (p ++ q :: t ++ q :: s) = t := by
  have hword : p ++ q :: t ++ q :: s = p ++ (q :: t ++ [q]) ++ s := by simp
  have hb := not_blank_of_shellQuote hq
  rw [clean, hword, Text.trim_append_blank hp hs, Text.trim_between hb hb, unquoted_quoted hq]

/-- An operation that is not quoted itself is parsed alike with shell quotes around it and without
them. Only what is said of a parenthesis that is never closed may show the blanks `r` behind the
operation. -/
theorem parse_quoted (mode : EscapeMode) {p s t : Text} {q : Char} (hq : isShellQuote q = true)
    (hp : Blank p) (hs : Blank s) (ht : ¬ShellQuoted (Text.trim t)) :
    parse mode (p ++ q :: t ++ q :: s) = parse mode t ∨
      ∃ (l r : Text) (i : Imbalance), Blank l ∧ Blank r ∧ t = l ++ Text.trim t ++ r ∧
        1 ≤ i.parens ∧ parse mode t = .error (.unbalanced i) ∧
        parse mode (p ++ q :: t ++ q :: s) =
          .error (.unbalanced { i with text := i.text ++ r }) := by
  obtain ⟨l, r, hl, hr, heq⟩ := Text.exists_blank_append_trim t
  have hclean : clean t = Text.trim t := unquoted_eq_self ht
  have htokens : tokenize mode t = tokenize mode (Text.trim t ++ r) := by
    conv_lhs => rw [heq, List.append_assoc]
    exact tokenize_blank_append hl _
  rw [parse_eq, parse_eq, clean_quoted hq hp hs, hclean, htokens]
  rcases tokenize_append_blank hr (Text.trim t) with h | ⟨i, hi, h, h'⟩
  · exact .inl (by rw [h])
  · refine .inr ⟨l, r, i, hl, hr, heq, hi, ?_, ?_⟩
    · rw [h]
      rfl
    · rw [h']
      rfl

theorem parse_quoted_unclosed :
    ∃ (l r : Text) (i : Imbalance), Blank l ∧ Blank r ∧
      " us.find((\"x\t ".toList = l ++ Text.trim " us.find((\"x\t ".toList ++ r ∧
      1 ≤ i.parens ∧ parse .single " us.find((\"x\t ".toList = .error (.unbalanced i) ∧
      parse .single "\n\x60 us.find((\"x\t \x60 ".toList =
        .error (.unbalanced { i with text := i.text ++ r }) := by
  have hbare : ¬ShellQuoted (Text.trim " us.find((\"x\t ".toList) := by
    rintro ⟨q, inner, hq, h⟩
    have hu : some 'u' = some q := congrArg List.head? h
    obtain rfl := Option.some.inj hu
    cases hq
  have hquoted : parse .single "\n\x60 us.find((\"x\t \x60 ".toList =
      .error (.unbalanced ⟨"((\"x\t ".toList, 0, 0, 2, true⟩) := by cbv
  have hplain : parse .single " us.find((\"x\t ".toList =
      .error (.unbalanced ⟨"((\"x".toList, 0, 0, 2, true⟩) := by cbv
  have h := parse_quoted .single (p := ['\n']) (q := '\x60') (s := [' '])
    (t := " us.find((\"x\t ".toList) (by decide) (by simp [Blank, Text.isBlank])
    (by simp [Blank, Text.isBlank]) hbare
  refine h.resolve_left fun hsame => ?_
  have := hquoted.symm.trans (hsame.trans hplain)
  simp at this

end CollectionShell.Operation
