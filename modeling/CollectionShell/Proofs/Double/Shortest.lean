import CollectionShell.Double.Shortest
import CollectionShell.Proofs.Double.Rounding

/-!
# The shortest decimal reads back

`Double.shortest` finds a decimal that reads back as the double (`ofDecimal_shortest`). Another
double is away from `x` by `x / 2 ^ 53` at least (`le_abs_sub_worth`), so what is nearer to `x`
than `x / 2 ^ 54` is rounded to it (`rounds_of_near`). A multiple of the unit of the seventeenth
digit is that near, for `2 ^ 53` is less than `10 ^ 16`.
-/

namespace CollectionShell.Double

/-! ## Neighbouring doubles -/

section

variable {m : Nat} {q : Int}

/-- Doubles keep their distance. -/
theorem le_abs_sub_worth {m' : Nat} {q' : Int} (h : Canonical m q) (h' : Canonical m' q')
    (hne : worth m' q' ≠ worth m q) :
    worth m q / 2 ^ 53 ≤ |worth m' q' - worth m q| := by
  have hpos : (0 : ℚ) < 2 ^ q := by positivity
  rcases lt_or_ge q' q with hlt | hge
  · -- a smaller exponent has half the unit at most, and `m` all of its bits
    have hfull : (2 : ℚ) ^ 52 ≤ m := by
      exact_mod_cast h.2.2.2.resolve_right (by have := h'.2.1; omega)
    have hhalf : worth m' q' ≤ (2 ^ 53 - 1) * (2 ^ q / 2) := by
      have hm' : (m' : ℚ) + 1 ≤ 2 ^ 53 := by exact_mod_cast h'.1
      have hpow : (2 : ℚ) ^ q' ≤ 2 ^ q / 2 := by
        rw [div_eq_mul_inv, ← zpow_sub_one₀ (two_ne_zero (α := ℚ))]
        exact zpow_le_zpow_right₀ one_le_two (by omega)
      exact mul_le_mul (by linarith) hpow (by positivity) (by norm_num)
    have hworth : 2 ^ 52 * 2 ^ q ≤ worth m q := mul_le_mul_of_nonneg_right hfull hpos.le
    exact le_trans (by linarith) (neg_le_abs _)
  · rw [worth_eq_mul_pow hge] at hne ⊢
    have hone := one_le_abs_sub fun heq => hne (congrArg (worth · q) heq)
    have hm : (m : ℚ) ≤ 2 ^ 53 := by exact_mod_cast h.1.le
    calc worth m q / 2 ^ 53 ≤ 1 * 2 ^ q := by
          rw [div_le_iff₀ (by positivity), worth, one_mul, mul_comm]
          exact mul_le_mul_of_nonneg_left hm hpos.le
      _ ≤ |((m' * 2 ^ (q' - q).toNat : Nat) : ℚ) - m| * 2 ^ q :=
        mul_le_mul_of_nonneg_right hone hpos.le
      _ = |worth (m' * 2 ^ (q' - q).toNat) q - worth m q| := by
        rw [worth, worth, ← sub_mul, abs_mul, abs_of_pos hpos]

/-- A number that is near a double is rounded to it. -/
theorem rounds_of_near {y : ℚ} (h : Canonical m q) (hy : |y - worth m q| < worth m q / 2 ^ 54) :
    Rounds false y (.finite false m q h) := by
  have hfar : ∀ {m' : Nat} {q' : Int}, Canonical m' q' → worth m' q' ≠ worth m q →
      |y - worth m q| < |y - worth m' q'| := by
    intro m' q' hc hne
    have hdist := le_abs_sub_worth h hc hne
    have htri := abs_sub_le (worth m' q') y (worth m q)
    rw [abs_sub_comm (worth m' q') y] at htri
    linarith
  refine .finite h ?_ ⟨fun {m' q'} hc => ?_, fun {m' q'} hc htie => ?_⟩
  · have hm : (m : ℚ) + 1 ≤ 2 ^ 53 := by exact_mod_cast h.1
    have hle : worth m q ≤ (2 ^ 53 - 1) * 2 ^ (971 : Int) :=
      mul_le_mul (by linarith) (zpow_le_zpow_right₀ one_le_two h.2.2.1) (by positivity)
        (by norm_num)
    have hpos : (0 : ℚ) < 2 ^ (971 : Int) := by positivity
    have hup := (abs_lt.1 hy).2
    rw [overflow]
    generalize (2 : ℚ) ^ (971 : Int) = unit at hle hpos ⊢
    linarith
  · by_cases hne : worth m' q' = worth m q
    · rw [hne]
    · exact (hfar hc hne).le
  · by_contra hne
    exact absurd htie (hfar hc (not_or.1 hne).1).not_ge

end

/-! ## The search -/

theorem ratio_eq (m : Nat) (q : Int) :
    0 < (ratio m q).2 ∧ ((ratio m q).1 : ℚ) / (ratio m q).2 = worth m q := by
  constructor
  · exact Nat.pow_pos two_pos
  · simp only [ratio, Nat.pow_eq]
    push_cast
    rw [mul_div_assoc, ← zpow_eq_div two_ne_zero, worth]

theorem divEven_eq_or (a b : Nat) : divEven a b = a / b ∨ divEven a b = a / b + 1 := by
  rw [divEven]
  split_ifs
  · exact .inl rfl
  · exact .inr rfl
  · rcases Nat.mod_two_eq_zero_or_one (a / b) with h | h
    · exact .inl (by rw [h, Nat.add_zero])
    · exact .inr (by rw [h])

/-- The decimal found reads back. -/
theorem ofDecimal_of_neighbour? {x : Double} {a b : Nat} {e : Int} {d : Decimal}
    (h : neighbour? x a b e = some d) : ofDecimal false d.n d.e = x := by
  rw [neighbour?] at h
  simp only at h
  split at h
  · next hlow hup =>
    obtain rfl := Option.some.inj h
    rcases divEven_eq_or (a * Nat.pow 10 (-e).toNat) (b * Nat.pow 10 e.toNat) with hd | hd
    · rw [hd]
      exact of_decide_eq_true hlow
    · rw [hd]
      exact of_decide_eq_true hup
  · next hlow _ =>
    obtain rfl := Option.some.inj h
    exact of_decide_eq_true hlow
  · next _ hup =>
    obtain rfl := Option.some.inj h
    exact of_decide_eq_true hup
  · cases h

/-- One of the two decimals around a number is found if it reads back. -/
theorem neighbour?_ne_none {x : Double} {a b : Nat} {e : Int}
    (h : ofDecimal false (divEven (a * Nat.pow 10 (-e).toNat) (b * Nat.pow 10 e.toNat)) e = x) :
    neighbour? x a b e ≠ none := by
  rw [neighbour?]
  simp only
  split
  · nofun
  · nofun
  · nofun
  · next hlow hup =>
    rcases divEven_eq_or (a * Nat.pow 10 (-e).toNat) (b * Nat.pow 10 e.toNat) with hd | hd
    · rw [hd] at h
      exact absurd h (of_decide_eq_false hlow)
    · rw [hd] at h
      exact absurd h (of_decide_eq_false hup)

/-- The nearest multiple of a power of ten is near, if there are `10 ^ 16` of them. -/
theorem divEven_near {a b : Nat} (hb : 0 < b) {e : Int}
    (he : (10 : ℚ) ^ e * 10 ^ 16 ≤ (a : ℚ) / b) :
    |divEven (a * Nat.pow 10 (-e).toNat) (b * Nat.pow 10 e.toNat) * 10 ^ e - (a : ℚ) / b| <
      (a : ℚ) / b / 2 ^ 54 := by
  have hpos : (0 : ℚ) < 10 ^ e := by positivity
  have hnear := (wholeNearest_scaled a hb (c := 10) (by decide) e).le
  rw [Nat.cast_ofNat, abs_sub_comm] at hnear
  generalize (divEven (a * Nat.pow 10 (-e).toNat) (b * Nat.pow 10 e.toNat) : ℚ) = n at hnear ⊢
  calc |n * 10 ^ e - (a : ℚ) / b| = |n - (a : ℚ) / b / 10 ^ e| * 10 ^ e := by
        rw [abs_sub_comm, abs_sub_units hpos, abs_sub_comm]
    _ ≤ 1 / 2 * 10 ^ e := mul_le_mul_of_nonneg_right hnear hpos.le
    _ < (a : ℚ) / b / 2 ^ 54 := by
      rw [lt_div_iff₀ (by positivity)]
      refine lt_of_lt_of_le ?_ he
      linarith

/-- The power that numbers are moved by, which is too great to be computed with. -/
theorem exists_cast_pow : ∃ c : Nat, c = Nat.pow 10 400 ∧ (c : ℚ) = 10 ^ 400 := by
  obtain ⟨k, hk⟩ : ∃ k, k = 400 := ⟨_, rfl⟩
  rw [← hk]
  exact ⟨_, rfl, by rw [Nat.pow_eq, Nat.cast_pow, Nat.cast_ofNat]⟩

theorem pow_length_le {n : Nat} (hn : 0 < n) : 10 ^ ((Text.ofNat n).length - 1) ≤ n := by
  rcases Nat.eq_zero_or_pos ((Text.ofNat n).length - 1) with h | h
  · rwa [h]
  · by_contra hlt
    have := (Nat.length_toDigits_le_iff (by decide) h).2 (not_le.1 hlt)
    rw [← Text.ofNat] at this
    omega

/-- The exponent of the leading digit is not too great. -/
theorem leadingExponent_le {a b : Nat} (hb : 0 < b) (h : b ≤ a * Nat.pow 10 400) :
    (10 : ℚ) ^ leadingExponent a b ≤ (a : ℚ) / b := by
  have hb' : (0 : ℚ) < b := by exact_mod_cast hb
  obtain ⟨c, hc, hcast⟩ := exists_cast_pow
  obtain ⟨n, hn⟩ : ∃ n, n = a * c / b := ⟨_, rfl⟩
  have hpos : 0 < n := by
    rw [hn]
    exact Nat.div_pos (hc ▸ h) hb
  have hlen : 0 < (Text.ofNat n).length := List.length_pos_iff.2 Nat.toDigits_ne_nil
  have hlead : leadingExponent a b + 400 = ((Text.ofNat n).length - 1 : Nat) := by
    rw [leadingExponent, ← hc, ← hn]
    omega
  have hle : (10 : ℚ) ^ (leadingExponent a b + 400) ≤ (a : ℚ) / b * 10 ^ 400 := by
    have hdigits := Nat.mul_le_mul_right b (pow_length_le hpos)
    have htop : n * b ≤ a * c := hn ▸ Nat.div_mul_le_self _ b
    have hle := (Nat.cast_le (α := ℚ)).2 (hdigits.trans htop)
    rw [hlead, zpow_natCast, div_mul_eq_mul_div, le_div_iff₀ hb']
    rwa [Nat.cast_mul, Nat.cast_mul, Nat.cast_pow, Nat.cast_ofNat, hcast] at hle
  rw [zpow_add₀ (by norm_num)] at hle
  exact le_of_mul_le_mul_right hle (by positivity)

/-- The shortest decimal reads back as the double. -/
theorem ofDecimal_shortest {m : Nat} {q : Int} (h : Canonical m q) (hm : 0 < m) :
    ofDecimal false (shortest (.finite false m q h) m q).n (shortest (.finite false m q h) m q).e =
      .finite false m q h := by
  obtain ⟨hb, hab⟩ := ratio_eq m q
  have hlead : (10 : ℚ) ^ leadingExponent (ratio m q).1 (ratio m q).2 ≤
      ((ratio m q).1 : ℚ) / (ratio m q).2 := by
    obtain ⟨c, hc, hcast⟩ := exists_cast_pow
    refine leadingExponent_le hb ((Nat.cast_le (α := ℚ)).1 ?_)
    have hb' : (0 : ℚ) < (ratio m q).2 := by exact_mod_cast hb
    have hone : (1 : ℚ) ≤ worth m q * 10 ^ 400 := by
      calc (1 : ℚ) ≤ 2 ^ (-1074 + (3 * 400 : Nat) : Int) := one_le_zpow₀ one_le_two (by decide)
        _ = 2 ^ (-1074 : Int) * 2 ^ (3 * 400) := by rw [zpow_add₀ two_ne_zero, zpow_natCast]
        _ ≤ worth m q * 10 ^ 400 := mul_le_mul (h.le_worth hm) (two_pow_le_ten_pow 400)
          (by positivity) (worth_nonneg m q)
    rw [← hc, Nat.cast_mul, hcast]
    rwa [← hab, div_mul_eq_mul_div, one_le_div hb'] at hone
  have hlast : neighbour? (.finite false m q h) (ratio m q).1 (ratio m q).2
      (leadingExponent (ratio m q).1 (ratio m q).2 - (16 : Nat)) ≠ none := by
    refine neighbour?_ne_none ((rounds_ofDecimal false _ _).unique (rounds_of_near h ?_))
    rw [← hab]
    refine divEven_near hb ?_
    rw [zpow_sub₀ (by norm_num), zpow_natCast, div_mul_cancel₀ _ (by positivity)]
    exact hlead
  rw [shortest]
  cases hfound : (List.range 17).findSome? fun (k : Nat) =>
      neighbour? (.finite false m q h) (ratio m q).1 (ratio m q).2
        (leadingExponent (ratio m q).1 (ratio m q).2 - k) with
  | none => exact absurd (List.findSome?_eq_none_iff.1 hfound 16 (by decide)) hlast
  | some d =>
    obtain ⟨k, -, hk⟩ := List.exists_of_findSome?_eq_some hfound
    simp only [hfound, Option.getD_some]
    exact ofDecimal_of_neighbour? hk

end CollectionShell.Double
