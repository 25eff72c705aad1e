import CollectionShell.Proofs.Operation.Commas
import CollectionShell.Proofs.Operation.LaidOut

/-!
# Where the two escape modes agree

The modes differ on a character behind an even number of backslashes other than none : one of them
takes it for escaped, the other does not (`escapes_single_eq_iff`). Only for quote marks does that
matter. So in a text without such quote marks (`NoEvenRun`) both modes find the same mask
(`mask_single_eq`), and tokens and segments are found by the mask (`tokenize_congr`,
`splitArguments_congr`).

The arguments of a call are read for strings on their own. They stand behind a parenthesis, which is
no backslash, so the backslashes in front of a mark are as many in the arguments as in the whole
text (`NoEvenRun.behind`), and both modes make the same of the text (`parse_single_eq`).
-/

namespace CollectionShell.Operation

open Quotation (mask maskFrom endsInside)

/-- How many backslashes stand at the end of a text. -/
def backslashes (t : Text) : Nat := (t.reverse.takeWhile (· == '\\')).length

/-- No quote mark of the text stands behind an even number of backslashes, other than none. -/
def NoEvenRun (t : Text) : Prop :=
  ∀ i : Fin t.length, (QuoteMark.ofChar? t[i]).isSome →
    ¬(backslashes (t.take i) ≠ 0 ∧ backslashes (t.take i) % 2 = 0)

instance (t : Text) : Decidable (NoEvenRun t) :=
  inferInstanceAs (Decidable (∀ i : Fin t.length, (QuoteMark.ofChar? t[i]).isSome → ¬_))

variable {t x y : Text}

theorem noEvenRun_iff : NoEvenRun t ↔ ∀ x c y, t = x ++ c :: y → (QuoteMark.ofChar? c).isSome →
    ¬(backslashes x ≠ 0 ∧ backslashes x % 2 = 0) := by
  constructor
  · rintro h x c y rfl hc
    have := h ⟨x.length, by simp⟩
    simp only [Fin.getElem_fin, List.getElem_append_right (Nat.le_refl _), Nat.sub_self,
      List.getElem_cons_zero, List.take_left'] at this
    exact this hc
  · intro h i hi
    exact h (t.take i) t[i] (t.drop (i + 1)) (by simp) hi

/-! ## Masks -/

/-- The modes disagree on what stands behind an even number of backslashes, other than none. -/
theorem escapes_single_eq_iff (x : Text) :
    EscapeMode.single.escapes x.reverse = EscapeMode.parity.escapes x.reverse ↔
      ¬(backslashes x ≠ 0 ∧ backslashes x % 2 = 0) := by
  rw [backslashes, EscapeMode.escapes, EscapeMode.escapes]
  cases x.reverse with
  | nil => simp
  | cons c before =>
    by_cases hc : c = '\\'
    · subst hc
      simp
    · simp [hc]

/-- The mask of the rest of a text is the same in both modes if the text has no quote mark behind an
even run of backslashes. -/
theorem maskFrom_single_eq (h : NoEvenRun (x ++ y)) (opened : Option QuoteMark) :
    maskFrom .single x.reverse opened y = maskFrom .parity x.reverse opened y := by
  induction y generalizing x opened with
  | nil => rfl
  | cons c y ih =>
    have hnext : QuoteMark.next opened c (EscapeMode.single.escapes x.reverse) =
        QuoteMark.next opened c (EscapeMode.parity.escapes x.reverse) := by
      cases hc : QuoteMark.ofChar? c with
      | none => simp [QuoteMark.next, hc]
      | some m => rw [(escapes_single_eq_iff x).2 (noEvenRun_iff.1 h x c y rfl (by rw [hc]; rfl))]
    have hrest := ih (x := x ++ [c]) (by simpa using h)
      (QuoteMark.next opened c (EscapeMode.parity.escapes x.reverse))
    rw [List.reverse_append, List.reverse_singleton, List.singleton_append] at hrest
    rw [maskFrom, maskFrom, hnext, hrest]

theorem mask_single_eq (h : NoEvenRun t) : mask .single t = mask .parity t :=
  maskFrom_single_eq (x := []) h none

/-! ## Tokens and segments -/

section

variable {mode mode' : EscapeMode}

theorem marked_congr (h : mask mode t = mask mode' t) : marked mode t = marked mode' t := by
  rw [marked, marked, h]

theorem endsInside_congr (h : mask mode t = mask mode' t) :
    endsInside mode t = endsInside mode' t := by
  rw [endsInside, endsInside, h]

/-- Tokens depend on the mode by the mask only. -/
theorem tokenize_congr (h : mask mode t = mask mode' t) : tokenize mode t = tokenize mode' t := by
  rw [tokenize, tokenize, marked_congr h, endsInside_congr h]

theorem braceBalance_congr (h : mask mode t = mask mode' t) (i : Nat) :
    braceBalance mode t i = braceBalance mode' t i := by
  rw [braceBalance, braceBalance, marked_congr h]

theorem bracketBalance_congr (h : mask mode t = mask mode' t) (i : Nat) :
    bracketBalance mode t i = bracketBalance mode' t i := by
  rw [bracketBalance, bracketBalance, marked_congr h]

theorem CutAt.congr (h : mask mode t = mask mode' t) {i : Nat} (hi : CutAt mode t i) :
    CutAt mode' t i :=
  ⟨hi.comma, h ▸ hi.unquoted, braceBalance_congr h i ▸ hi.braces,
    bracketBalance_congr h i ▸ hi.brackets⟩

theorem pieces_congr (h : mask mode t = mask mode' t) : pieces mode t = pieces mode' t := by
  have hcut : ∀ i, CutAt mode t i ↔ CutAt mode' t i := fun i => ⟨.congr h, .congr h.symm⟩
  simp only [pieces, withCuts, hcut]

/-- So do segments. -/
theorem splitArguments_congr (h : mask mode t = mask mode' t) :
    splitArguments mode t = splitArguments mode' t := by
  have hbalanced : Balanced mode t ↔ Balanced mode' t := by
    rw [balanced_iff, balanced_iff, braceBalance_congr h, bracketBalance_congr h,
      endsInside_congr h]
  by_cases ht : Balanced mode t
  · rw [splitArguments_of_balanced ht, splitArguments_of_balanced (hbalanced.1 ht),
      pieces_congr h]
  · rw [splitArguments_of_not_balanced ht,
      splitArguments_of_not_balanced fun ht' => ht (hbalanced.2 ht'), unevenness, unevenness,
      braceBalance_congr h, bracketBalance_congr h, endsInside_congr h]

end

/-! ## The arguments of a call -/

/-- Backslashes are counted back to the last other character. -/
theorem backslashes_append_cons {c : Char} (hc : c ≠ '\\') (x y : Text) :
    backslashes (x ++ c :: y) = backslashes y := by
  rw [backslashes, backslashes, List.reverse_append, List.reverse_cons, List.append_assoc,
    List.takeWhile_append]
  split_ifs with h
  · simp [hc, h]
  · rfl

/-- What stands behind a parenthesis has no quote mark behind an even run of backslashes either. -/
theorem NoEvenRun.behind {p b s : Text} (h : NoEvenRun (p ++ '(' :: (b ++ s))) : NoEvenRun b := by
  rw [noEvenRun_iff] at h ⊢
  rintro x c y rfl hc
  have := h (p ++ '(' :: x) c (y ++ s) (by simp) hc
  rwa [backslashes_append_cons (by decide)] at this

/-- Neither have the arguments of a call. -/
theorem NoEvenRun.blob {mode : EscapeMode} {ts : List Text} {l : Layout} (h : NoEvenRun t)
    (ht : tokenize mode t = .ok ts) (hl : layout ts = .ok l) : NoEvenRun l.blob := by
  have hcut := tokenize_eq_ok.1 ht
  rw [layout_eq_ok.1 hl] at hcut
  obtain ⟨front, behind, rfl, -⟩ := exists_front hcut
  exact h.behind

/-- Both modes make the same call of tokens whose arguments have the same mask. -/
theorem callOfTokens_congr {mode mode' : EscapeMode} {ts : List Text}
    (h : ∀ l, layout ts = .ok l → mask mode l.blob = mask mode' l.blob) :
    callOfTokens mode ts = callOfTokens mode' ts := by
  rw [callOfTokens, callOfTokens]
  cases hl : layout ts with
  | error e => rfl
  | ok l =>
    change splitArguments mode l.blob >>= _ = splitArguments mode' l.blob >>= _
    rw [splitArguments_congr (h l hl)]

/-- If no quote mark of a word without its shell quotes stands behind an even number of backslashes
other than none, both modes find the same mask in it, the same tokens or the same reason why there
are none, the same segments of its arguments, and the same call or the same reason why it is
none. -/
theorem parse_single_eq (raw : Text) (h : NoEvenRun (clean raw)) :
    mask .single (clean raw) = mask .parity (clean raw) ∧
      tokenize .single (clean raw) = tokenize .parity (clean raw) ∧
      (∀ ts l, tokenize .single (clean raw) = .ok ts → layout ts = .ok l →
        splitArguments .single l.blob = splitArguments .parity l.blob) ∧
      parse .single raw = parse .parity raw := by
  have hmask := mask_single_eq h
  have htokens := tokenize_congr hmask
  have hblob : ∀ ts l, tokenize .single (clean raw) = .ok ts → layout ts = .ok l →
      mask .single l.blob = mask .parity l.blob :=
    fun ts l ht hl => mask_single_eq (h.blob ht hl)
  refine ⟨hmask, htokens, fun ts l ht hl => splitArguments_congr (hblob ts l ht hl), ?_⟩
  rw [parse_eq, parse_eq, ← htokens]
  cases ht : tokenize .single (clean raw) with
  | error e => rfl
  | ok ts => exact callOfTokens_congr fun l hl => hblob ts l ht hl

/-- A quote mark behind three backslashes is escaped in both modes. -/
theorem parse_single_eq_odd :
    NoEvenRun (clean "'us.find(\x7b\"a\":\"\\\\\\\")\"\x7d)'".toList) ∧
      parse .single "'us.find(\x7b\"a\":\"\\\\\\\")\"\x7d)'".toList =
        parse .parity "'us.find(\x7b\"a\":\"\\\\\\\")\"\x7d)'".toList :=
  ⟨by decide, (parse_single_eq _ (by decide)).2.2.2⟩

end CollectionShell.Operation
