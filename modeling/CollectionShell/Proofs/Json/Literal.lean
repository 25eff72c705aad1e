import CollectionShell.Json.Number
import CollectionShell.Json.StringLiteral
import CollectionShell.Proofs.Outcome
import Mathlib.Data.List.TakeWhile
import Mathlib.Tactic.SplitIfs

/-!
# Literals of JSON

The grammar of number and string literals, as relations between a text and what it is the
literal of, and the two readers as decision procedures for it : `NumberLiteral.scan?` finds
a literal (`exists_of_scan?`) and finds the whole of one that cannot go on
(`scan?_append`), and `scanUnits` finds what stands in front of the first closing mark
(`scanUnits_eq_ok`).
-/

namespace CollectionShell.Json

/-! ## Digits -/

/-- One or more digits. -/
def Digits (t : Text) : Prop := t ≠ [] ∧ ∀ c ∈ t, c.isDigit = true

/-- The text does not begin with a digit. -/
def NoDigit (r : Text) : Prop := ∀ c, r.head? = some c → c.isDigit = false

/-- A number right in front of the text does not go on in it. -/
def EndsNumber (r : Text) : Prop :=
  ∀ c, r.head? = some c → c.isDigit = false ∧ c ≠ '.' ∧ c ≠ 'e' ∧ c ≠ 'E'

theorem EndsNumber.noDigit {r : Text} (h : EndsNumber r) : NoDigit r := fun c hc => (h c hc).1

theorem endsNumber_nil : EndsNumber [] := nofun

theorem endsNumber_cons {c : Char} {r : Text}
    (h : c.isDigit = false ∧ c ≠ '.' ∧ c ≠ 'e' ∧ c ≠ 'E') : EndsNumber (c :: r) := by
  intro d hd
  obtain rfl := Option.some.inj hd
  exact h

namespace NumberLiteral

theorem digits_append {ds r : Text} (hds : ∀ c ∈ ds, c.isDigit = true) (hr : NoDigit r) :
    digits (ds ++ r) = (ds, r) := by
  have hstop : r.takeWhile Char.isDigit = [] ∧ r.dropWhile Char.isDigit = r := by
    cases r with
    | nil => exact ⟨rfl, rfl⟩
    | cons c r => simp [hr c rfl]
  rw [digits, List.takeWhile_append_of_pos hds, List.dropWhile_append_of_pos hds, hstop.1, hstop.2,
    List.append_nil]

theorem digits_fst_append_snd (t : Text) : t = (digits t).1 ++ (digits t).2 :=
  List.takeWhile_append_dropWhile.symm

theorem isDigit_of_mem_digits {t : Text} : ∀ c ∈ (digits t).1, c.isDigit = true :=
  fun _ hc => List.mem_takeWhile_imp hc

/-! ## Numbers -/

/-- The text of the digits in front of the point : a zero, or digits that start with no zero. -/
inductive WholeText : Text → Prop
  | zero : WholeText ['0']
  | digits {c : Char} {ds : Text} : Digits (c :: ds) → c ≠ '0' → WholeText (c :: ds)

/-- The text of a fraction. -/
inductive FractionText : Option Text → Text → Prop
  | none : FractionText none []
  | some {ds : Text} : Digits ds → FractionText (some ds) ('.' :: ds)

/-- The text of an exponent. -/
inductive ExponentText : Option (Bool × Text) → Text → Prop
  | none : ExponentText none []
  | bare {e : Char} {ds : Text} : e = 'e' ∨ e = 'E' → Digits ds →
      ExponentText (some (false, ds)) (e :: ds)
  | plus {e : Char} {ds : Text} : e = 'e' ∨ e = 'E' → Digits ds →
      ExponentText (some (false, ds)) (e :: '+' :: ds)
  | minus {e : Char} {ds : Text} : e = 'e' ∨ e = 'E' → Digits ds →
      ExponentText (some (true, ds)) (e :: '-' :: ds)

/-- The sign in front of a number. -/
def signText (negative : Bool) : Text := if negative then ['-'] else []

/-- The text of a number literal. -/
inductive LiteralText : NumberLiteral → Text → Prop
  | mk {negative : Bool} {w f x : Text} {fraction : Option Text} {exponent : Option (Bool × Text)} :
      WholeText w → FractionText fraction f → ExponentText exponent x →
      LiteralText ⟨negative, w, fraction, exponent⟩ (signText negative ++ w ++ f ++ x)

theorem WholeText.exists_digit {w : Text} (h : WholeText w) :
    ∃ c ds, w = c :: ds ∧ Digits w := by
  cases h with
  | zero => exact ⟨'0', [], rfl, by simp, List.forall_mem_singleton.2 rfl⟩
  | @digits c ds hd _ => exact ⟨c, ds, rfl, hd⟩

theorem digit_ne {c d : Char} (hc : c.isDigit = true) (hd : d.isDigit = false) : c ≠ d := by
  rintro rfl
  rw [hc] at hd
  cases hd

theorem exists_of_scanWhole? {t w r : Text} (h : scanWhole? t = some (w, r)) :
    WholeText w ∧ t = w ++ r := by
  cases t with
  | nil => cases h
  | cons c t =>
    rw [scanWhole?] at h
    split_ifs at h with h0 hd
    · obtain ⟨rfl, rfl⟩ := Prod.mk.inj (Option.some.inj h)
      exact ⟨h0 ▸ .zero, rfl⟩
    · obtain ⟨rfl, rfl⟩ := Prod.mk.inj (Option.some.inj h)
      refine ⟨.digits ⟨by simp, List.forall_mem_cons.2 ⟨hd, isDigit_of_mem_digits⟩⟩ h0, ?_⟩
      rw [List.cons_append, ← digits_fst_append_snd]

theorem scanWhole?_append {w r : Text} (hw : WholeText w) (hr : NoDigit r) :
    scanWhole? (w ++ r) = some (w, r) := by
  cases hw with
  | zero => rfl
  | @digits c ds hd h0 =>
    obtain ⟨hc, hds⟩ := List.forall_mem_cons.1 hd.2
    rw [List.cons_append, scanWhole?, if_neg h0, if_pos hc, digits_append hds hr]

theorem exists_of_scanFraction (t : Text) :
    ∃ f, FractionText (scanFraction t).1 f ∧ t = f ++ (scanFraction t).2 := by
  cases t with
  | nil => exact ⟨[], .none, rfl⟩
  | cons c t =>
    rw [scanFraction]
    split_ifs with h
    · refine ⟨'.' :: (digits t).1, .some ⟨h.2, isDigit_of_mem_digits⟩, ?_⟩
      rw [h.1, List.cons_append, ← digits_fst_append_snd]
    · exact ⟨[], .none, rfl⟩

theorem scanFraction_append {fraction : Option Text} {f r : Text} (hf : FractionText fraction f)
    (hr : NoDigit r) (hp : r.head? ≠ some '.') : scanFraction (f ++ r) = (fraction, r) := by
  cases hf with
  | none =>
    cases r with
    | nil => rfl
    | cons c r =>
      have hc : c ≠ '.' := fun h => hp (by rw [h]; rfl)
      rw [List.nil_append, scanFraction, if_neg fun h => hc h.1]
  | @some ds hds =>
    rw [List.cons_append, scanFraction, digits_append hds.2 hr, if_pos ⟨rfl, hds.1⟩]

theorem scanSign_append {t : Text} (ht : ∀ c, t.head? = some c → c ≠ '-' ∧ c ≠ '+') :
    scanSign t = (false, t) := by
  cases t with
  | nil => rfl
  | cons c t =>
    obtain ⟨hm, hp⟩ := ht c rfl
    rw [scanSign, if_neg hm, if_neg hp]

theorem exists_of_scanExponent (t : Text) :
    ∃ x, ExponentText (scanExponent t).1 x ∧ t = x ++ (scanExponent t).2 := by
  cases t with
  | nil => exact ⟨[], .none, rfl⟩
  | cons e t =>
    rw [scanExponent]
    split_ifs with h
    · obtain ⟨he, hne⟩ := h
      have hds : Digits (digits (scanSign t).2).1 := ⟨hne, isDigit_of_mem_digits⟩
      have happ := digits_fst_append_snd (scanSign t).2
      cases t with
      | nil => exact absurd rfl hne
      | cons c t =>
        by_cases hm : c = '-'
        · have hs : scanSign (c :: t) = (true, t) := by rw [scanSign, if_pos hm]
          rw [hs] at hds happ ⊢
          exact ⟨_, .minus he hds, by rw [hm, List.cons_append, List.cons_append, ← happ]⟩
        by_cases hp : c = '+'
        · have hs : scanSign (c :: t) = (false, t) := by rw [scanSign, if_neg hm, if_pos hp]
          rw [hs] at hds happ ⊢
          exact ⟨_, .plus he hds, by rw [hp, List.cons_append, List.cons_append, ← happ]⟩
        · have hs : scanSign (c :: t) = (false, c :: t) := by
            rw [scanSign, if_neg hm, if_neg hp]
          rw [hs] at hds happ ⊢
          exact ⟨_, .bare he hds, by rw [List.cons_append, ← happ]⟩
    · exact ⟨[], .none, rfl⟩

theorem scanExponent_append {exponent : Option (Bool × Text)} {x r : Text}
    (hx : ExponentText exponent x) (hr : EndsNumber r) :
    scanExponent (x ++ r) = (exponent, r) := by
  have hread : ∀ {e : Char} {t ds : Text} {negative : Bool}, e = 'e' ∨ e = 'E' → Digits ds →
      scanSign t = (negative, ds ++ r) →
      scanExponent (e :: t) = (some (negative, ds), r) := by
    intro e t ds negative he hds hs
    rw [scanExponent, hs]
    dsimp only
    rw [digits_append hds.2 hr.noDigit, if_pos ⟨he, hds.1⟩]
  cases hx with
  | none =>
    cases r with
    | nil => rfl
    | cons c r =>
      obtain ⟨-, -, he, hE⟩ := hr c rfl
      rw [List.nil_append, scanExponent, if_neg fun h => h.1.elim he hE]
  | @bare e ds he hds =>
    refine hread he hds (scanSign_append fun c hc => ?_)
    have hd : c.isDigit = true := by
      obtain ⟨d, ds', rfl⟩ := List.exists_cons_of_ne_nil hds.1
      obtain rfl := Option.some.inj hc
      exact hds.2 d List.mem_cons_self
    exact ⟨digit_ne hd (by decide), digit_ne hd (by decide)⟩
  | plus he hds => exact hread he hds rfl
  | minus he hds => exact hread he hds rfl

theorem scanMinus_eq (t : Text) : t = signText (scanMinus t).1 ++ (scanMinus t).2 := by
  cases t with
  | nil => rfl
  | cons c t =>
    rw [scanMinus]
    split_ifs with h
    · rw [h]
      rfl
    · rfl

theorem scanMinus_append {negative : Bool} {c : Char} {t : Text} (hc : c ≠ '-') :
    scanMinus (signText negative ++ c :: t) = (negative, c :: t) := by
  cases negative with
  | false => exact if_neg hc
  | true => rfl

theorem scan?_eq (t : Text) :
    scan? t = (scanWhole? (scanMinus t).2).map fun w =>
      (⟨(scanMinus t).1, w.1, (scanFraction w.2).1, (scanExponent (scanFraction w.2).2).1⟩,
        (scanExponent (scanFraction w.2).2).2) := by
  unfold scan?
  obtain ⟨negative, u⟩ := scanMinus t
  cases hw : scanWhole? u with
  | none => simp [hw]
  | some w => simp [hw]

/-- What is taken off the front of a text is a literal. -/
theorem exists_of_scan? {t r : Text} {l : NumberLiteral} (h : scan? t = some (l, r)) :
    ∃ u, LiteralText l u ∧ t = u ++ r := by
  rw [scan?_eq] at h
  obtain ⟨⟨w, t'⟩, hw, hl⟩ := Option.map_eq_some_iff.1 h
  obtain ⟨rfl, rfl⟩ := Prod.mk.inj hl
  obtain ⟨hwhole, hwt⟩ := exists_of_scanWhole? hw
  obtain ⟨f, hf, hft⟩ := exists_of_scanFraction t'
  obtain ⟨x, hx, hxt⟩ := exists_of_scanExponent (scanFraction t').2
  refine ⟨_, .mk hwhole hf hx, ?_⟩
  rw [List.append_assoc, ← hxt, List.append_assoc, ← hft, List.append_assoc, ← hwt]
  exact scanMinus_eq t

/-- A literal is taken as a whole if it does not go on behind its end. -/
theorem scan?_append {u r : Text} {l : NumberLiteral} (h : LiteralText l u) (hr : EndsNumber r) :
    scan? (u ++ r) = some (l, r) := by
  obtain @⟨negative, w, f, x, fraction, exponent, hw, hf, hx⟩ := h
  obtain ⟨c, ds, rfl, hd⟩ := hw.exists_digit
  have hxr : NoDigit (x ++ r) ∧ (x ++ r).head? ≠ some '.' := by
    cases hx with
    | none => exact ⟨hr.noDigit, fun h => (hr _ h).2.1 rfl⟩
    | bare he | plus he | minus he =>
      refine ⟨fun d hd => ?_, fun hd => ?_⟩ <;>
        obtain rfl := Option.some.inj hd <;> rcases he with he | he <;> simp_all
  have hfxr : NoDigit (f ++ (x ++ r)) := by
    cases hf with
    | none => exact hxr.1
    | some => exact fun d hd => by obtain rfl := Option.some.inj hd; rfl
  have hc : c ≠ '-' := digit_ne (hd.2 c List.mem_cons_self) (by decide)
  have hsplit : signText negative ++ c :: ds ++ f ++ x ++ r =
      signText negative ++ c :: (ds ++ (f ++ (x ++ r))) := by simp
  have hwhole := scanWhole?_append hw hfxr
  rw [List.cons_append] at hwhole
  rw [hsplit, scan?_eq, scanMinus_append hc, hwhole]
  simp only [Option.map_some, scanFraction_append hf hxr.1 hxr.2, scanExponent_append hx hr]

end NumberLiteral

/-! ## Strings -/

/-- The text between the marks of a string literal, and the code units that it denotes. -/
inductive UnitsText : Text → List CodePoint → Prop
  | nil : UnitsText [] []
  /-- A character that stands for itself. -/
  | plain {c : Char} {t : Text} {ps : List CodePoint} : c ≠ '\x22' → c ≠ '\\' → 0x20 ≤ c.toNat →
      UnitsText t ps → UnitsText (c :: t) (CodePoint.ofChar c :: ps)
  /-- An escape by a letter or mark. -/
  | escape {e : Char} {t : Text} {p : CodePoint} {ps : List CodePoint} : escapeOf? e = some p →
      UnitsText t ps → UnitsText ('\\' :: e :: t) (p :: ps)
  /-- An escape by number. -/
  | unit {h₁ h₂ h₃ h₄ : Char} {t : Text} {p : CodePoint} {ps : List CodePoint} :
      codeUnit? h₁ h₂ h₃ h₄ = some p → UnitsText t ps →
      UnitsText ('\\' :: 'u' :: h₁ :: h₂ :: h₃ :: h₄ :: t) (p :: ps)

/-- The text of a string literal, its marks included. -/
inductive StringText : Text → List CodePoint → Prop
  | mk {b : Text} {ps : List CodePoint} : UnitsText b ps →
      StringText ('\x22' :: b ++ ['\x22']) (CodePoint.joinPairs ps)

theorem scanUnits_append {start : Nat} {b r : Text} {ps : List CodePoint} (h : UnitsText b ps) :
    scanUnits start (b ++ '\x22' :: r) = .ok (ps, r) := by
  induction h with
  | nil =>
    rw [List.nil_append, scanUnits.eq_def]
    exact if_pos rfl
  | plain hq hb hc _ ih =>
    rw [List.cons_append, scanUnits.eq_def]
    simp only [if_neg hq, if_neg hb, if_neg (Nat.not_lt.2 hc), ih]
    rfl
  | @escape e t p ps he _ ih =>
    have hu : e ≠ 'u' := by
      rintro rfl
      cases he
    rw [List.cons_append, List.cons_append, scanUnits.eq_def]
    simp only [Char.reduceEq, if_false, if_true, hu, he, ih]
    rfl
  | @unit h₁ h₂ h₃ h₄ t p ps hp _ ih =>
    obtain ⟨x, tail, hx⟩ : ∃ x tail, t ++ '\x22' :: r = x :: tail :=
      List.exists_cons_of_ne_nil (by simp)
    rw [hx] at ih
    simp only [List.cons_append]
    rw [scanUnits.eq_def, hx]
    simp only [Char.reduceEq, if_false, if_true, hp, ih]
    rfl

theorem exists_of_scanUnits {start : Nat} {t r : Text} {ps : List CodePoint}
    (h : scanUnits start t = .ok (ps, r)) : ∃ b, UnitsText b ps ∧ t = b ++ '\x22' :: r := by
  fun_induction scanUnits start t generalizing ps with
  | case1 | case3 | case5 | case6 | case8 | case9 => cases h
  | case2 rest =>
    obtain ⟨rfl, rfl⟩ := Prod.mk.inj (Except.ok.inj h)
    exact ⟨[], .nil, rfl⟩
  | case4 h₁ h₂ h₃ h₄ x tail p hp _ ih =>
    obtain ⟨⟨qs, r'⟩, hq, heq⟩ := map_eq_ok.1 h
    obtain ⟨rfl, rfl⟩ := Prod.mk.inj heq
    obtain ⟨b, hb, ht⟩ := ih hq
    exact ⟨_, .unit hp hb, by rw [ht]; rfl⟩
  | case7 e more _ p hp _ ih =>
    obtain ⟨⟨qs, r'⟩, hq, heq⟩ := map_eq_ok.1 h
    obtain ⟨rfl, rfl⟩ := Prod.mk.inj heq
    obtain ⟨b, hb, ht⟩ := ih hq
    exact ⟨_, .escape hp hb, by rw [ht]; rfl⟩
  | case10 c rest hc hb hn ih =>
    obtain ⟨⟨qs, r'⟩, hq, heq⟩ := map_eq_ok.1 h
    obtain ⟨rfl, rfl⟩ := Prod.mk.inj heq
    obtain ⟨b, hb', ht⟩ := ih hq
    exact ⟨_, .plain hc hb (Nat.not_lt.1 hn) hb', by rw [ht]; rfl⟩

/-- The code units up to the first closing mark are those that the text in front of it
denotes. -/
theorem scanUnits_eq_ok {start : Nat} {t r : Text} {ps : List CodePoint} :
    scanUnits start t = .ok (ps, r) ↔ ∃ b, UnitsText b ps ∧ t = b ++ '\x22' :: r := by
  refine ⟨exists_of_scanUnits, ?_⟩
  rintro ⟨b, hb, rfl⟩
  exact scanUnits_append hb

/-- A string is read exactly behind the opening mark of a literal. -/
theorem scanString_eq_ok {t r : Text} {ps : List CodePoint} :
    scanString t = .ok (ps, r) ↔ ∃ u, StringText u ps ∧ '\x22' :: t = u ++ r := by
  rw [scanString, map_eq_ok]
  constructor
  · rintro ⟨⟨qs, r'⟩, hq, heq⟩
    obtain ⟨rfl, rfl⟩ := Prod.mk.inj heq
    obtain ⟨b, hb, rfl⟩ := scanUnits_eq_ok.1 hq
    exact ⟨_, .mk hb, by simp⟩
  · rintro ⟨u, hu, ht⟩
    obtain @⟨b, qs, hb⟩ := hu
    have ht' : t = b ++ '\x22' :: r := by simpa using ht
    exact ⟨(qs, r), scanUnits_eq_ok.2 ⟨b, hb, ht'⟩, rfl⟩

end CollectionShell.Json
