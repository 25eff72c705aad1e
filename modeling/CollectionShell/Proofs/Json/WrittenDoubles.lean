import CollectionShell.Double.Layout
import CollectionShell.Proofs.Double.Shortest
import CollectionShell.Proofs.Json.Magnitude
import CollectionShell.Proofs.Json.Rendering
import CollectionShell.Proofs.Json.Tree

/-!
# Written doubles are literals

A positive decimal is written as a number literal with a fraction or an exponent that denotes it,
be it written positionally or with an exponent (`floatText_write`). A finite double is written as
its shortest decimal, so what is read is the double again (`scalarText_write`).
-/

namespace CollectionShell.Json

open NumberLiteral

/-! ## Digits -/

/-- Digits that do not start with a zero. -/
def Significant (ds : Text) : Prop := Digits ds ∧ ds.head? ≠ some '0'

theorem natOf_zeros (k : Nat) : natOf (List.replicate k '0') = 0 := by
  rw [natOf, Nat.ofDigitChars_replicate_zero, Nat.mul_zero]

theorem digits_zero : Digits ['0'] := ⟨by simp, List.forall_mem_singleton.2 rfl⟩

theorem isDigit_of_mem_zeros {k : Nat} : ∀ c ∈ List.replicate k '0', c.isDigit = true := by
  intro c hc
  rw [List.eq_of_mem_replicate hc]
  rfl

theorem digits_zeros_append {ds : Text} (k : Nat) (h : Digits ds) :
    Digits (List.replicate k '0' ++ ds) :=
  ⟨by simp [h.1], List.forall_mem_append.2 ⟨isDigit_of_mem_zeros, h.2⟩⟩

theorem digits_ofNat (n : Nat) : Digits (Text.ofNat n) :=
  ⟨Nat.toDigits_ne_nil, fun _ hc => Nat.isDigit_of_mem_toDigits (by decide) (by decide) hc⟩

theorem natOf_ofNat (n : Nat) : natOf (Text.ofNat n) = n := Nat.ofDigitChars_ten_toDigits

/-- The digits of a number are the significant ones and zeros behind them. -/
theorem exists_ofNat_eq (n : Nat) :
    ∃ k, Text.ofNat n = Decimal.significant n ++ List.replicate k '0' := by
  have hzeros : ∀ c ∈ (Text.ofNat n).reverse.takeWhile (· == '0'), c = '0' :=
    fun c hc => by simpa using List.mem_takeWhile_imp hc
  refine ⟨((Text.ofNat n).reverse.takeWhile (· == '0')).length, ?_⟩
  rw [Decimal.significant, ← List.reverse_replicate, ← List.eq_replicate_of_mem hzeros,
    ← List.reverse_append, List.takeWhile_append_dropWhile, List.reverse_reverse]

theorem significant_significant {n : Nat} (hn : 0 < n) : Significant (Decimal.significant n) := by
  obtain ⟨k, hk⟩ := exists_ofNat_eq n
  obtain ⟨c, ds, hds, hc⟩ := exists_ofNat hn.ne'
  have hdigits := (digits_ofNat n).2
  rw [hk, List.forall_mem_append] at hdigits
  rw [hk] at hds
  cases hs : Decimal.significant n with
  | nil =>
    -- the first digit would be one of the zeros
    rw [hs, List.nil_append] at hds
    have := List.eq_of_mem_replicate (hds ▸ List.mem_cons_self : c ∈ List.replicate k '0')
    exact absurd this hc
  | cons d cs =>
    rw [hs] at hds hdigits
    refine ⟨⟨by simp, hdigits.1⟩, fun h => hc ?_⟩
    rw [← (List.cons.inj hds).1]
    exact Option.some.inj h

namespace Significant

variable {ds : Text}

theorem wholeText (h : Significant ds) : WholeText ds := by
  obtain ⟨c, cs, rfl⟩ := List.exists_cons_of_ne_nil h.1.1
  exact .digits h.1 fun hc => h.2 (congrArg some hc)

theorem append (h : Significant ds) {es : Text} (he : ∀ c ∈ es, c.isDigit = true) :
    Significant (ds ++ es) := by
  refine ⟨⟨by simp [h.1.1], List.forall_mem_append.2 ⟨h.1.2, he⟩⟩, ?_⟩
  rw [List.head?_append_of_ne_nil _ h.1.1]
  exact h.2

theorem take (h : Significant ds) {k : Nat} (hk : 0 < k) : Significant (ds.take k) := by
  obtain ⟨k, rfl⟩ := Nat.exists_eq_add_of_le' hk
  obtain ⟨c, cs, rfl⟩ := List.exists_cons_of_ne_nil h.1.1
  exact ⟨⟨by simp, fun d hd => h.1.2 d (List.mem_of_mem_take hd)⟩, h.2⟩

theorem digits_drop (h : Significant ds) {k : Nat} (hk : k < ds.length) : Digits (ds.drop k) :=
  ⟨by simpa using hk, fun d hd => h.1.2 d (List.mem_of_mem_drop hd)⟩

end Significant

/-! ## Decimals -/

/-- The text is a number literal without a sign that is no integer and denotes `x`. -/
inductive FloatText : Text → ℚ → Prop
  | mk {w f e : Text} {fraction : Option Text} {exponent : Option (Bool × Text)} :
      WholeText w → FractionText fraction f → ExponentText exponent e →
      ¬(NumberLiteral.mk false w fraction exponent).IsInteger →
      FloatText (w ++ f ++ e) (NumberLiteral.mk false w fraction exponent).magnitude

/-- A literal may have a sign. -/
theorem FloatText.exists_literalText {t : Text} {x : ℚ} (h : FloatText t x) (negative : Bool) :
    ∃ l, LiteralText l (signText negative ++ t) ∧ l.negative = negative ∧ ¬l.IsInteger ∧
      l.magnitude = x := by
  obtain @⟨w, f, e, fraction, exponent, hw, hf, he, hi⟩ := h
  have htext : LiteralText ⟨negative, w, fraction, exponent⟩ _ := .mk hw hf he
  rw [List.append_assoc, List.append_assoc, ← List.append_assoc w] at htext
  exact ⟨_, htext, rfl, hi, rfl⟩

/-- Digits around a point. -/
theorem floatText_point {w ds : Text} (hw : WholeText w) (hd : Digits ds) :
    FloatText (w ++ '.' :: ds) (natOf (w ++ ds) * 10 ^ (-ds.length : Int)) := by
  have h := FloatText.mk hw (.some hd) .none fun hi => Option.some_ne_none _ hi.1
  rw [magnitude_eq, List.append_nil] at h
  simpa [decimals, power] using h

/-- Digits with an exponent, and perhaps with a point among them. -/
theorem floatText_exponent {w f e : Text} {fraction : Option Text} {negative : Bool} {ds : Text}
    (hw : WholeText w) (hf : FractionText fraction f) (he : ExponentText (some (negative, ds)) e) :
    FloatText (w ++ f ++ e) (natOf (w ++ fraction.getD []) *
      10 ^ ((if negative then -(natOf ds : Int) else natOf ds) - (fraction.getD []).length)) := by
  have h := FloatText.mk hw hf he fun hi => Option.some_ne_none _ hi.2
  rw [magnitude_eq] at h
  cases negative <;> simpa [decimals, power, natOf_eq] using h

theorem floatText_positional {ds : Text} (h : Significant ds) (lead : Int) :
    FloatText (Decimal.positional ds lead) (natOf ds * 10 ^ (lead + 1 - ds.length)) := by
  rw [Decimal.positional]
  dsimp only
  split_ifs with hlead hlen
  · have hfloat := floatText_point .zero (digits_zeros_append (-lead - 1).toNat h.1)
    have hnat : natOf (['0'] ++ (List.replicate (-lead - 1).toNat '0' ++ ds)) = natOf ds := by
      have hzero : natOf ['0'] = 0 := natOf_zeros 1
      rw [natOf_append, natOf_append, natOf_zeros, hzero]
      simp
    have hexp : lead + 1 - ds.length =
        (-(List.replicate (-lead - 1).toNat '0' ++ ds).length : Int) := by
      rw [List.length_append, List.length_replicate]
      omega
    rw [hnat, ← hexp] at hfloat
    exact hfloat
  · have hw : Significant (ds ++ List.replicate (lead.toNat + 1 - ds.length) '0') :=
      h.append isDigit_of_mem_zeros
    have hfloat := floatText_point hw.wholeText digits_zero
    have hnat : natOf (ds ++ List.replicate (lead.toNat + 1 - ds.length) '0' ++ ['0']) =
        natOf ds * 10 ^ (lead.toNat + 1 - ds.length + 1) := by
      rw [List.append_assoc, ← List.replicate_succ', natOf_append, natOf_zeros,
        List.length_replicate, Nat.add_zero]
    have hexp : lead + 1 - ds.length =
        ((lead.toNat + 1 - ds.length + 1 : Nat) : Int) + (-['0'].length : Int) := by
      rw [List.length_singleton]
      omega
    rw [hnat, Nat.cast_mul, mul_assoc, Nat.cast_pow, Nat.cast_ofNat, ← zpow_natCast,
      ← zpow_add₀ (by norm_num), ← hexp] at hfloat
    exact hfloat
  · have hfloat := floatText_point (h.take (Nat.succ_pos lead.toNat)).wholeText
      (h.digits_drop (not_le.1 hlen))
    have hexp : lead + 1 - ds.length = (-(ds.drop (lead.toNat + 1)).length : Int) := by
      rw [List.length_drop]
      omega
    rw [Nat.succ_eq_add_one, List.take_append_drop, ← hexp] at hfloat
    exact hfloat

theorem floatText_scientific {ds : Text} (h : Significant ds) (width : Nat) (lead : Int) :
    FloatText (Decimal.scientific width ds lead) (natOf ds * 10 ^ (lead + 1 - ds.length)) := by
  have hlen : 0 < ds.length := List.length_pos_iff.2 h.1.1
  obtain ⟨fraction, hf, hds⟩ : ∃ fraction,
      FractionText fraction (if ds.length ≤ 1 then [] else '.' :: ds.drop 1) ∧
        fraction.getD [] = ds.drop 1 := by
    split_ifs with hone
    · exact ⟨none, .none, (List.drop_eq_nil_of_le hone).symm⟩
    · exact ⟨some (ds.drop 1), .some (h.digits_drop (not_le.1 hone)), rfl⟩
  obtain ⟨k, hk⟩ : ∃ k, k = width - (Text.ofNat lead.natAbs).length := ⟨_, rfl⟩
  have he : ExponentText
      (some (decide (lead < 0), List.replicate k '0' ++ Text.ofNat lead.natAbs))
      ('e' :: (if lead < 0 then '-' else '+') ::
        (List.replicate k '0' ++ Text.ofNat lead.natAbs)) := by
    have hdigits := digits_zeros_append k (digits_ofNat lead.natAbs)
    by_cases hneg : lead < 0
    · rw [if_pos hneg, decide_eq_true hneg]
      exact .minus (.inl rfl) hdigits
    · rw [if_neg hneg, decide_eq_false hneg]
      exact .plus (.inl rfl) hdigits
  have hfloat := floatText_exponent (h.take Nat.one_pos).wholeText hf he
  have hnat : natOf (List.replicate k '0' ++ Text.ofNat lead.natAbs) = lead.natAbs := by
    rw [natOf_append, natOf_zeros, natOf_ofNat, Nat.zero_mul, Nat.zero_add]
  have hexp : (if decide (lead < 0) = true then -(lead.natAbs : Int) else lead.natAbs) -
      (ds.drop 1).length = lead + 1 - ds.length := by
    rw [List.length_drop]
    simp only [decide_eq_true_eq]
    split_ifs <;> omega
  rw [hds, List.take_append_drop, hnat, hexp] at hfloat
  rw [Decimal.scientific, ← hk]
  simpa using hfloat

/-- A positive decimal is written as a literal that denotes it. -/
theorem floatText_write (layout : Decimal.Layout) {d : Decimal} (hd : 0 < d.n) :
    FloatText (d.write layout) (d.n * 10 ^ d.e) := by
  have hs := significant_significant hd
  obtain ⟨k, hk⟩ := exists_ofNat_eq d.n
  have hlen : (Text.ofNat d.n).length = (Decimal.significant d.n).length + k := by
    rw [hk, List.length_append, List.length_replicate]
  have hn : natOf (Decimal.significant d.n) * 10 ^ k = d.n := by
    have := natOf_ofNat d.n
    rwa [hk, natOf_append, natOf_zeros, List.length_replicate, Nat.add_zero] at this
  have hnumber : (d.n : ℚ) * 10 ^ d.e = natOf (Decimal.significant d.n) *
      10 ^ (d.e + (Text.ofNat d.n).length - 1 + 1 - (Decimal.significant d.n).length : Int) := by
    have hexp : d.e + (Text.ofNat d.n).length - 1 + 1 - (Decimal.significant d.n).length =
        (k : Int) + d.e := by
      rw [hlen]
      omega
    rw [hexp, zpow_add₀ (by norm_num), zpow_natCast, ← mul_assoc]
    exact_mod_cast congrArg (fun n : Nat => (n : ℚ) * 10 ^ d.e) hn.symm
  rw [Decimal.write, hnumber]
  split_ifs
  · exact floatText_positional hs _
  · exact floatText_scientific hs _ _

/-! ## Doubles -/

/-- The double of a number with one sign has the number of that with the other. -/
theorem rounds_of_rounds {negative negative' : Bool} {x : ℚ} {m : Nat} {q : Int}
    {h : Double.Canonical m q} (hr : Double.Rounds negative x (.finite negative m q h)) :
    Double.Rounds negative' x (.finite negative' m q h) := by
  cases hr with
  | finite _ hx hn => exact .finite h hx hn

/-- Behind its sign a finite double is written as a literal of a number that is rounded to it. -/
theorem exists_write_eq (layout : Decimal.Layout) (negative : Bool) {m : Nat} {q : Int}
    (h : Double.Canonical m q) :
    ∃ t x, (Double.finite negative m q h).write layout = signText negative ++ t ∧
      FloatText t x ∧ Double.Rounds negative x (.finite negative m q h) := by
  rcases Nat.eq_zero_or_pos m with rfl | hm
  · obtain rfl : q = -1074 := h.2.2.2.resolve_left (by decide)
    have hfloat := floatText_point .zero digits_zero
    have hzero : natOf (['0'] ++ ['0']) = 0 := natOf_zeros 2
    rw [hzero, Nat.cast_zero, zero_mul] at hfloat
    exact ⟨_, _, rfl, hfloat, Double.rounds_zero le_rfl (by positivity)⟩
  · have hread := Double.ofDecimal_shortest h hm
    obtain ⟨d, hd⟩ : ∃ d, d = Double.shortest (.finite false m q h) m q := ⟨_, rfl⟩
    rw [← hd] at hread
    have hrounds := Double.rounds_ofDecimal false d.n d.e
    rw [hread] at hrounds
    have hpos : 0 < d.n := by
      refine Nat.pos_of_ne_zero fun hn => ?_
      rw [hn, Double.ofDecimal, if_pos rfl, Double.zero, Double.finite.injEq] at hread
      exact hm.ne hread.2.1
    refine ⟨_, _, ?_, floatText_write layout hpos, rounds_of_rounds hrounds⟩
    rw [hd, Double.write]
    simp only [if_neg hm.ne']
    rfl

/-- A finite double is written as a literal that is read as the double. -/
theorem scalarText_write (layout : Decimal.Layout) {x : Double} (hx : x.isFinite = true) :
    ScalarText (x.write layout) (.float x) := by
  cases x with
  | infinite negative => cases hx
  | finite negative m q h =>
    obtain ⟨t, x, htext, hfloat, hrounds⟩ := exists_write_eq layout negative h
    obtain ⟨l, hl, hsign, hi, hmag⟩ := hfloat.exists_literalText negative
    have hdouble : l.toDouble = .finite negative m q h := by
      have := l.rounds_toDouble
      rw [hsign, hmag] at this
      exact this.unique hrounds
    rw [htext]
    refine .number hl (value_eq_ok.2 ⟨Tree.integersWithin_number.2 fun h => absurd h hi, ?_⟩)
    rw [Tree.denoted, if_neg hi, hdouble]

end CollectionShell.Json
