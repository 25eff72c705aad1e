import CollectionShell.Double.Basic
import Mathlib.Algebra.Order.Field.Power
import Mathlib.Data.Rat.Cast.Order
import Mathlib.Tactic.FieldSimp
import Mathlib.Tactic.Linarith
import Mathlib.Tactic.NormNum
import Mathlib.Tactic.Positivity
import Mathlib.Tactic.Ring
import Mathlib.Tactic.SplitIfs

/-!
# Rounding to doubles

`Rounds negative x d` says that `d` is the double of the non-negative number `x` with a sign : no
double is nearer to `x`, of two that are equally near it is the even one, and from `overflow` on,
half a unit above the greatest double, it is an infinity. There is one such double
(`Rounds.unique`).

`Double.ofRatio` counts a quotient in units of `2 ^ q`, where `q` is chosen such that the count has
53 bits, and takes the nearest whole count (`WholeNearest`). A double with a greater exponent is a
whole count too, and one with a smaller exponent is below `2 ^ 52` units; so the nearest count is
the nearest double (`WholeNearest.nearest`). `rounds_ofDecimal` says so of decimals.
-/

namespace CollectionShell.Double

/-- The number `m · 2 ^ q`. -/
def worth (m : Nat) (q : Int) : ℚ := m * 2 ^ q

/-- The number half a unit above the greatest double. -/
def overflow : ℚ := (2 ^ 53 - 1 / 2) * 2 ^ (971 : Int)

/-- No double is nearer to `x` than `m · 2 ^ q`, and another that is as near leaves it the even
one. -/
structure Nearest (x : ℚ) (m : Nat) (q : Int) : Prop where
  dist_le : ∀ {m' : Nat} {q' : Int}, Canonical m' q' → |x - worth m q| ≤ |x - worth m' q'|
  even_of_tie : ∀ {m' : Nat} {q' : Int}, Canonical m' q' → |x - worth m' q'| ≤ |x - worth m q| →
    worth m' q' = worth m q ∨ Even m

/-- The double is the one of the non-negative number `x` with a sign. -/
inductive Rounds (negative : Bool) (x : ℚ) : Double → Prop
  | finite {m : Nat} {q : Int} (h : Canonical m q) : x < overflow → Nearest x m q →
      Rounds negative x (.finite negative m q h)
  | infinite : overflow ≤ x → Rounds negative x (.infinite negative)

/-! ## Powers as quotients -/

theorem zpow_eq_div {c : ℚ} (hc : c ≠ 0) (e : Int) : c ^ e = c ^ e.toNat / c ^ (-e).toNat := by
  rw [← zpow_natCast, ← zpow_natCast, ← zpow_sub₀ hc, Int.toNat_sub_toNat_neg]

theorem worth_nonneg (m : Nat) (q : Int) : 0 ≤ worth m q := by
  rw [worth]
  positivity

/-- A power of two changes sides between the count and the unit. -/
theorem worth_mul_pow (m k : Nat) (q : Int) : worth (m * 2 ^ k) q = worth m (q + k) := by
  rw [worth, worth, zpow_add₀ two_ne_zero, zpow_natCast]
  push_cast
  ring

/-- A number of whole units of a greater exponent. -/
theorem worth_eq_mul_pow {q q' : Int} (h : q ≤ q') (m' : Nat) :
    worth m' q' = worth (m' * 2 ^ (q' - q).toNat) q := by
  rw [worth_mul_pow, Int.toNat_of_nonneg (Int.sub_nonneg.2 h), add_sub_cancel]

theorem worth_two_pow (k : Nat) (q : Int) : worth (2 ^ k) q = 2 ^ (k + q) := by
  rw [worth, Nat.cast_pow, Nat.cast_ofNat, ← zpow_natCast, ← zpow_add₀ two_ne_zero]

/-- A positive double is not below the least one. -/
theorem Canonical.le_worth {m : Nat} {q : Int} (h : Canonical m q) (hm : 0 < m) :
    (2 : ℚ) ^ (-1074 : Int) ≤ worth m q := by
  have hone : (1 : ℚ) ≤ m := by exact_mod_cast hm
  calc (2 : ℚ) ^ (-1074 : Int) ≤ 2 ^ q := zpow_le_zpow_right₀ one_le_two h.2.1
    _ ≤ m * 2 ^ q := le_mul_of_one_le_left (by positivity) hone

theorem worth_le_worth {m k : Nat} {q : Int} : worth m q ≤ worth k q ↔ m ≤ k := by
  rw [worth, worth, mul_le_mul_iff_left₀ (by positivity), Nat.cast_le]

theorem worth_lt_worth {m k : Nat} {q : Int} : worth m q < worth k q ↔ m < k := by
  rw [worth, worth, mul_lt_mul_iff_left₀ (by positivity), Nat.cast_lt]

theorem overflow_lt_zpow : overflow < 2 ^ (1024 : Int) := by
  have : (2 : ℚ) ^ (1024 : Int) = worth (2 ^ 53) 971 := (worth_two_pow 53 971).symm
  rw [this, overflow, worth]
  exact mul_lt_mul_of_pos_right (by norm_num) (by positivity)

theorem zpow_lt_overflow {e : Int} (he : e ≤ 1023) : (2 : ℚ) ^ e < overflow := by
  refine (zpow_le_zpow_right₀ one_le_two he).trans_lt ?_
  have : (2 : ℚ) ^ (1023 : Int) = worth (2 ^ 52) 971 := (worth_two_pow 52 971).symm
  rw [this, overflow, worth]
  exact mul_lt_mul_of_pos_right (by norm_num) (by positivity)

theorem two_pow_le_ten_pow (k : Nat) : (2 : ℚ) ^ (3 * k) ≤ 10 ^ k := by
  rw [pow_mul]
  exact pow_le_pow_left₀ (by norm_num) (by norm_num) k

/-- A canonical number of a smaller exponent is below `2 ^ 52` units. -/
theorem worth_lt_of_lt {m' : Nat} {q q' : Int} (h : Canonical m' q') (hq : q' < q) :
    worth m' q' < worth (2 ^ 52) q := by
  have hunits : worth (2 ^ 52) q = worth (2 ^ 52 * 2 ^ (q - q').toNat) q' :=
    worth_eq_mul_pow hq.le _
  rw [hunits, worth_lt_worth]
  have hpow : 2 ^ 1 ≤ 2 ^ (q - q').toNat := Nat.pow_le_pow_right two_pos (by omega)
  have hlt : m' < 2 ^ 53 := h.1
  omega

/-! ## Nearest whole numbers -/

theorem one_le_abs_sub {m k : Nat} (h : m ≠ k) : (1 : ℚ) ≤ |(m : ℚ) - k| := by
  rcases lt_or_gt_of_ne h with hlt | hlt
  · have : (m : ℚ) + 1 ≤ k := by exact_mod_cast hlt
    exact le_trans (by linarith) (neg_le_abs _)
  · have : (k : ℚ) + 1 ≤ m := by exact_mod_cast hlt
    exact le_trans (by linarith) (le_abs_self _)

/-- The whole number is the one nearest to `y`, and the even one at a half. -/
structure WholeNearest (y : ℚ) (m : Nat) : Prop where
  le : |y - m| ≤ 1 / 2
  even : 1 / 2 ≤ |y - m| → Even m

namespace WholeNearest

variable {y : ℚ} {m : Nat}

/-- Another whole number is half a unit away at least. -/
theorem half_le {k : Nat} (hk : k ≠ m) : 1 - |y - m| ≤ |y - k| := by
  have hone := one_le_abs_sub hk.symm
  have htri := abs_sub_le (m : ℚ) y k
  rw [abs_sub_comm (m : ℚ) y] at htri
  linarith

theorem dist_le (h : WholeNearest y m) (k : Nat) : |y - m| ≤ |y - k| := by
  rcases eq_or_ne k m with rfl | hk
  · exact le_rfl
  · have := half_le (y := y) hk
    have := h.le
    linarith

theorem even_of_tie (h : WholeNearest y m) {k : Nat} (hk : |y - k| ≤ |y - m|) :
    k = m ∨ Even m := by
  rcases eq_or_ne k m with rfl | hne
  · exact .inl rfl
  · have := half_le (y := y) hne
    exact .inr (h.even (by linarith))

/-- A number that is rounded below the odd `2 ^ 53 - 1` or to it is below the half behind it. -/
theorem lt_of_lt (h : WholeNearest y m) (hm : m < 2 ^ 53) : y < 2 ^ 53 - 1 / 2 := by
  rcases Nat.lt_or_ge (m + 1) (2 ^ 53) with hlt | hge
  · have : (m : ℚ) + 2 ≤ 2 ^ 53 := by exact_mod_cast hlt
    have := (abs_le.1 h.le).2
    linarith
  · obtain rfl : m = 2 ^ 53 - 1 := by omega
    by_contra hy
    have habs := le_abs_self (y - ((2 ^ 53 - 1 : Nat) : ℚ))
    have hodd := h.even (by push_cast at habs ⊢; linarith)
    exact absurd hodd (by decide)

end WholeNearest

/-- Distances are those of the counts, in units of `u`. -/
theorem abs_sub_units {u : ℚ} (hu : 0 < u) (x k : ℚ) : |x - k * u| = |x / u - k| * u := by
  calc |x - k * u| = |(x / u - k) * u| := by rw [sub_mul, div_mul_cancel₀ x hu.ne']
    _ = |x / u - k| * u := by rw [abs_mul, abs_of_pos hu]

theorem abs_sub_worth (x : ℚ) (k : Nat) (q : Int) :
    |x - worth k q| = |x / 2 ^ q - k| * 2 ^ q :=
  abs_sub_units (by positivity) x k

section

variable {x : ℚ} {m : Nat} {q : Int}

theorem WholeNearest.dist_le_worth (h : WholeNearest (x / 2 ^ q) m) (k : Nat) :
    |x - worth m q| ≤ |x - worth k q| := by
  rw [abs_sub_worth, abs_sub_worth]
  exact mul_le_mul_of_nonneg_right (h.dist_le k) (by positivity)

/-- The whole count that is nearest is the nearest double, if the unit is the least there is or
the number has `2 ^ 52` units. -/
theorem WholeNearest.nearest (h : WholeNearest (x / 2 ^ q) m)
    (hq : q = -1074 ∨ worth (2 ^ 52) q ≤ x) : Nearest x m q := by
  -- doubles of a smaller exponent are below `2 ^ 52` units, which is nearer to `x`
  have hless : ∀ {m' : Nat} {q' : Int}, Canonical m' q' → q' < q →
      |x - worth m q| < |x - worth m' q'| := by
    intro m' q' hc hlt
    have hx : worth (2 ^ 52) q ≤ x := hq.resolve_left (by have := hc.2.1; omega)
    calc |x - worth m q| ≤ |x - worth (2 ^ 52) q| := h.dist_le_worth _
      _ = x - worth (2 ^ 52) q := abs_of_nonneg (by linarith)
      _ < x - worth m' q' := sub_lt_sub_left (worth_lt_of_lt hc hlt) x
      _ ≤ |x - worth m' q'| := le_abs_self _
  constructor
  · intro m' q' hc
    rcases lt_or_ge q' q with hlt | hge
    · exact (hless hc hlt).le
    · rw [worth_eq_mul_pow hge]
      exact h.dist_le_worth _
  · intro m' q' hc htie
    rcases lt_or_ge q' q with hlt | hge
    · exact absurd htie (hless hc hlt).not_ge
    · rw [worth_eq_mul_pow hge] at htie ⊢
      rw [abs_sub_worth, abs_sub_worth, mul_le_mul_iff_left₀ (by positivity)] at htie
      exact (h.even_of_tie htie).imp_left fun hk => by rw [hk]

end

/-! ## Quotients -/

theorem wholeNearest_divEven (a : Nat) {b : Nat} (hb : 0 < b) :
    WholeNearest ((a : ℚ) / b) (divEven a b) := by
  have hb' : (0 : ℚ) < b := by exact_mod_cast hb
  obtain ⟨t, ht⟩ : ∃ t : ℚ, t = ((a % b : Nat) : ℚ) / b := ⟨_, rfl⟩
  have hy : (a : ℚ) / b = (a / b : Nat) + t := by
    rw [ht, div_eq_iff hb'.ne', add_mul, div_mul_cancel₀ _ hb'.ne', mul_comm _ (b : ℚ)]
    exact_mod_cast (Nat.div_add_mod a b).symm
  have hlt : 2 * (a % b) < b ↔ t < 1 / 2 := by
    rw [ht, div_lt_div_iff₀ hb' two_pos, one_mul, mul_comm]
    exact_mod_cast Iff.rfl
  have hgt : b < 2 * (a % b) ↔ 1 / 2 < t := by
    rw [ht, div_lt_div_iff₀ two_pos hb', one_mul, mul_comm _ (2 : ℚ)]
    exact_mod_cast Iff.rfl
  have ht0 : 0 ≤ t := ht ▸ by positivity
  have ht1 : t < 1 := by
    rw [ht, div_lt_one hb']
    exact_mod_cast Nat.mod_lt a hb
  simp only [divEven, hlt, hgt, hy]
  split_ifs with h₁ h₂
  · have habs : |((a / b : Nat) : ℚ) + t - (a / b : Nat)| = t := by
      rw [add_sub_cancel_left, abs_of_nonneg ht0]
    exact ⟨by linarith, fun h => by linarith⟩
  · have habs : |((a / b : Nat) : ℚ) + t - (a / b + 1 : Nat)| = 1 - t := by
      rw [Nat.cast_add, Nat.cast_one, add_sub_add_left_eq_sub, abs_of_neg (by linarith), neg_sub]
    exact ⟨by linarith, fun h => by linarith⟩
  · obtain rfl : t = 1 / 2 := by linarith
    rcases Nat.mod_two_eq_zero_or_one (a / b) with h | h
    · rw [h, Nat.add_zero]
      exact ⟨by norm_num, fun _ => Nat.even_iff.2 h⟩
    · rw [h]
      exact ⟨by rw [Nat.cast_add, Nat.cast_one]; norm_num, fun _ => (Nat.odd_iff.2 h).add_one⟩

/-- A quotient is counted in units of a power by moving it first. -/
theorem wholeNearest_scaled (a : Nat) {b c : Nat} (hb : 0 < b) (hc : 0 < c) (e : Int) :
    WholeNearest ((a : ℚ) / b / c ^ e)
      (divEven (a * Nat.pow c (-e).toNat) (b * Nat.pow c e.toNat)) := by
  have hpos : 0 < b * Nat.pow c e.toNat := Nat.mul_pos hb (Nat.pow_pos hc)
  have hy : ((a * Nat.pow c (-e).toNat : Nat) : ℚ) / (b * Nat.pow c e.toNat : Nat) =
      (a : ℚ) / b / c ^ e := by
    rw [zpow_eq_div (Nat.cast_ne_zero.2 hc.ne')]
    simp only [Nat.pow_eq]
    push_cast
    field_simp
  rw [← hy]
  exact wholeNearest_divEven _ hpos

theorem wholeNearest_unitsOf (a : Nat) {b : Nat} (hb : 0 < b) (q : Int) :
    WholeNearest ((a : ℚ) / b / 2 ^ q) (unitsOf a b q) := by
  have := wholeNearest_scaled a hb two_pos q
  rwa [Nat.cast_ofNat] at this

theorem log2_bounds {n : Nat} (hn : 0 < n) :
    (2 : ℚ) ^ (n.log2 : Int) ≤ n ∧ (n : ℚ) < 2 ^ ((n.log2 : Int) + 1) := by
  constructor
  · rw [zpow_natCast]
    exact_mod_cast Nat.log2_self_le hn.ne'
  · exact_mod_cast Nat.lt_log2_self

theorem floorLog_bounds {a b : Nat} (ha : 0 < a) (hb : 0 < b) :
    (2 : ℚ) ^ floorLog a b ≤ a / b ∧ (a : ℚ) / b < 2 ^ (floorLog a b + 1) := by
  have ha' : (0 : ℚ) < a := by exact_mod_cast ha
  have hb' : (0 : ℚ) < b := by exact_mod_cast hb
  obtain ⟨hal, hau⟩ := log2_bounds ha
  obtain ⟨hbl, hbu⟩ := log2_bounds hb
  obtain ⟨e, he⟩ : ∃ e : Int, e = (a.log2 : Int) - b.log2 := ⟨_, rfl⟩
  have hlow : (2 : ℚ) ^ (e - 1) ≤ a / b := by
    have : e - 1 = (a.log2 : Int) - (b.log2 + 1) := by omega
    rw [this, zpow_sub₀ two_ne_zero]
    exact div_le_div₀ ha'.le hal hb' hbu.le
  have hup : (a : ℚ) / b < 2 ^ (e + 1) := by
    have : e + 1 = (a.log2 : Int) + 1 - b.log2 := by omega
    rw [this, zpow_sub₀ two_ne_zero]
    exact div_lt_div₀ hau hbl (by positivity) (by positivity)
  have htest : b * Nat.pow 2 e.toNat ≤ a * Nat.pow 2 (-e).toNat ↔ (2 : ℚ) ^ e ≤ a / b := by
    rw [zpow_eq_div two_ne_zero, div_le_div_iff₀ (by positivity) hb', mul_comm _ (b : ℚ)]
    simp only [Nat.pow_eq]
    exact_mod_cast Iff.rfl
  rw [floorLog]
  simp only [← he, htest]
  split_ifs with h
  · exact ⟨h, hup⟩
  · exact ⟨hlow, by rw [sub_add_cancel]; exact not_le.1 h⟩

/-! ## Rounding -/

theorem rounds_zero {negative : Bool} {x : ℚ} (h0 : 0 ≤ x) (hx : x < 2 ^ (-1075 : Int)) :
    Rounds negative x (zero negative) := by
  have hzero : worth 0 (-1074) = 0 := by simp [worth]
  have hhalf : (2 : ℚ) ^ (-1074 : Int) = 2 * 2 ^ (-1075 : Int) := by
    rw [show (-1074 : Int) = 1 + -1075 by rfl, zpow_add₀ two_ne_zero, zpow_one]
  have hdist : ∀ {m' : Nat} {q' : Int}, Canonical m' q' →
      |x - worth 0 (-1074)| ≤ |x - worth m' q'| := by
    intro m' q' hc
    rcases Nat.eq_zero_or_pos m' with rfl | hm
    · simp [worth]
    · have hleast := hc.le_worth hm
      rw [hzero, sub_zero, abs_of_nonneg h0, abs_sub_comm]
      exact le_trans (by linarith) (le_abs_self _)
  exact .finite _ (hx.trans (zpow_lt_overflow (by decide))) ⟨hdist, fun _ _ => .inr Even.zero⟩

section

variable {negative : Bool} {x : ℚ} {m : Nat} {q : Int}

theorem worth_le_iff {k : Nat} : worth k q ≤ x ↔ (k : ℚ) ≤ x / 2 ^ q :=
  (le_div_iff₀ (by positivity)).symm

theorem WholeNearest.le_of_worth_le (h : WholeNearest (x / 2 ^ q) m) {k : Nat}
    (hk : worth k q ≤ x) : k ≤ m := by
  rw [worth_le_iff] at hk
  have := (abs_le.1 h.le).2
  have : (k : ℚ) < m + 1 := by linarith
  exact Nat.lt_succ_iff.1 (by exact_mod_cast this)

theorem WholeNearest.le_of_lt_worth (h : WholeNearest (x / 2 ^ q) m) {k : Nat}
    (hk : x < worth k q) : m ≤ k := by
  rw [← not_le, worth_le_iff, not_le] at hk
  have := (abs_le.1 h.le).1
  have : (m : ℚ) < k + 1 := by linarith
  exact Nat.lt_succ_iff.1 (by exact_mod_cast this)

/-- A carry to `2 ^ 53` units is the even `2 ^ 52` units of the next exponent. -/
theorem Nearest.carry (h : Nearest x (2 ^ 53) q) : Nearest x (2 ^ 52) (q + 1) := by
  have hworth : worth (2 ^ 52) (q + 1) = worth (2 ^ 53) q := (worth_mul_pow (2 ^ 52) 1 q).symm
  exact ⟨by rw [hworth]; exact h.dist_le, fun _ _ => .inr (by decide)⟩

/-- The nearest whole count, made canonical, is the nearest double. -/
theorem rounds_of_wholeNearest (h : WholeNearest (x / 2 ^ q) m) (hq : -1074 ≤ q)
    (hlow : q = -1074 ∨ worth (2 ^ 52) q ≤ x) (hup : x < worth (2 ^ 53) q) :
    Rounds negative x (if h : Canonical m q then .finite negative m q h
      else if h : Canonical (m / 2) (q + 1) then .finite negative (m / 2) (q + 1) h
      else .infinite negative) := by
  have hnear := h.nearest hlow
  have hm : m ≤ 2 ^ 53 := h.le_of_lt_worth hup
  have hfull : 2 ^ 52 ≤ m ∨ q = -1074 := hlow.symm.imp_left h.le_of_worth_le
  have hpos : (0 : ℚ) < 2 ^ q := by positivity
  split_ifs with h₁ h₂
  · refine .finite h₁ ?_ hnear
    calc x = x / 2 ^ q * 2 ^ q := (div_mul_cancel₀ x hpos.ne').symm
      _ < (2 ^ 53 - 1 / 2) * 2 ^ q := mul_lt_mul_of_pos_right (h.lt_of_lt h₁.1) hpos
      _ ≤ (2 ^ 53 - 1 / 2) * 2 ^ (971 : Int) :=
        mul_le_mul_of_nonneg_left (zpow_le_zpow_right₀ one_le_two h₁.2.2.1) (by norm_num)
      _ = overflow := rfl
  · obtain rfl : m = 2 ^ 53 := by
      refine hm.antisymm (Nat.not_lt.1 fun hlt => h₁ ⟨hlt, hq, ?_, hfull⟩)
      have := h₂.2.2.1
      omega
    refine .finite h₂ (hup.trans ?_) hnear.carry
    rw [worth_two_pow]
    refine zpow_lt_overflow ?_
    have := h₂.2.2.1
    omega
  · refine .infinite ?_
    rcases lt_or_ge 971 q with hbig | hsmall
    · refine (overflow_lt_zpow.le.trans ?_).trans (hlow.resolve_left (by omega))
      rw [worth_two_pow]
      exact zpow_le_zpow_right₀ one_le_two (by omega)
    · obtain rfl : m = 2 ^ 53 :=
        hm.antisymm (Nat.not_lt.1 fun hlt => h₁ ⟨hlt, hq, hsmall, hfull⟩)
      have hlast : q = 971 := by
        by_contra hne
        exact h₂ ⟨by decide, by omega, by omega, .inl (by decide)⟩
      subst hlast
      have hy := (abs_le.1 h.le).1
      rw [overflow, ← le_div_iff₀ hpos]
      rw [Nat.cast_pow, Nat.cast_ofNat] at hy
      linarith

end

/-! ## The rounded number is one double -/

theorem eq_of_worth_eq {m m' : Nat} {q q' : Int} (h : Canonical m q) (h' : Canonical m' q')
    (hw : worth m q = worth m' q') : m = m' ∧ q = q' := by
  rcases lt_trichotomy q q' with hlt | rfl | hlt
  · have := (worth_lt_of_lt h hlt).trans_le (worth_le_worth.2 (h'.2.2.2.resolve_right ?_))
    · exact absurd hw this.ne
    · have := h.2.1
      omega
  · rw [worth, worth, mul_left_inj' (by positivity), Nat.cast_inj] at hw
    exact ⟨hw, rfl⟩
  · have := (worth_lt_of_lt h' hlt).trans_le (worth_le_worth.2 (h.2.2.2.resolve_right ?_))
    · exact absurd hw this.ne'
    · have := h'.2.1
      omega

/-- Between two even doubles there is a third. -/
theorem exists_worth_between {m m' : Nat} {q q' : Int} (h : Canonical m q)
    (h' : Canonical m' q') (hm : Even m) (hm' : Even m') (hlt : worth m q < worth m' q') :
    Canonical (m + 1) q ∧ worth (m + 1) q < worth m' q' := by
  have hq : q ≤ q' := by
    by_contra hq
    have hfull : 2 ^ 52 ≤ m := h.2.2.2.resolve_right (by have := h'.2.1; omega)
    exact absurd hlt ((worth_lt_of_lt h' (not_le.1 hq)).trans_le (worth_le_worth.2 hfull)).not_gt
  constructor
  · have hne : m + 1 ≠ 2 ^ 53 := fun heq => by
      have := Nat.even_add_one.1 (heq ▸ (by decide : Even (2 ^ 53)))
      exact this hm
    have hm53 : m < 2 ^ 53 := h.1
    exact ⟨by rw [Nat.pow_eq]; omega, h.2.1, h.2.2.1, h.2.2.2.imp_left (Nat.le_add_right_of_le)⟩
  · rw [worth_eq_mul_pow hq, worth_lt_worth] at hlt ⊢
    refine lt_of_le_of_ne hlt fun heq => ?_
    exact Nat.even_add_one.1 (heq ▸ hm'.mul_right _) hm

/-- Of two nearest doubles neither is below the other. -/
theorem Nearest.not_lt {x : ℚ} {m m' : Nat} {q q' : Int} (hc : Canonical m q)
    (hc' : Canonical m' q') (h : Nearest x m q) (h' : Nearest x m' q') :
    ¬worth m q < worth m' q' := by
  intro hlt
  have hm : Even m := (h.even_of_tie hc' (h'.dist_le hc)).resolve_left hlt.ne'
  have hm' : Even m' := (h'.even_of_tie hc (h.dist_le hc')).resolve_left hlt.ne
  obtain ⟨hz, hzlt⟩ := exists_worth_between hc hc' hm hm' hlt
  have hwz : worth m q < worth (m + 1) q := worth_lt_worth.2 (Nat.lt_succ_self m)
  -- the one in between is nearer than the one on its other side from `x`
  rcases le_total x (worth (m + 1) q) with hx | hx
  · have := h'.dist_le hz
    rw [abs_of_nonpos (by linarith), abs_of_nonpos (by linarith)] at this
    linarith
  · have := h.dist_le hz
    rw [abs_of_nonneg (by linarith), abs_of_nonneg (by linarith)] at this
    linarith

/-- A number is rounded to one double. -/
theorem Rounds.unique {negative : Bool} {x : ℚ} {d d' : Double} (h : Rounds negative x d)
    (h' : Rounds negative x d') : d = d' := by
  cases h with
  | infinite hx =>
    cases h' with
    | infinite => rfl
    | finite _ hx' => exact absurd hx hx'.not_ge
  | finite hc hx hn =>
    cases h' with
    | infinite hx' => exact absurd hx' hx.not_ge
    | finite hc' _ hn' =>
      have heq := le_antisymm (not_lt.1 (hn'.not_lt hc' hc hn)) (not_lt.1 (hn.not_lt hc hc' hn'))
      obtain ⟨rfl, rfl⟩ := eq_of_worth_eq hc hc' heq
      rfl

/-- What is rounded is finite below `overflow` only. -/
theorem Rounds.isFinite_iff {negative : Bool} {x : ℚ} {d : Double} (h : Rounds negative x d) :
    d.isFinite = true ↔ x < overflow := by
  cases h with
  | finite _ hx _ => exact iff_of_true rfl hx
  | infinite hx => exact iff_of_false Bool.false_ne_true hx.not_gt

/-! ## Quotients and decimals -/

/-- A quotient is rounded to the nearest double. -/
theorem rounds_ofRatio (negative : Bool) (a : Nat) {b : Nat} (hb : 0 < b) :
    Rounds negative ((a : ℚ) / b) (ofRatio negative a b) := by
  rw [ofRatio]
  split_ifs with ha
  · rw [ha, Nat.cast_zero, zero_div]
    exact rounds_zero le_rfl (by positivity)
  obtain ⟨hlow, hup⟩ := floorLog_bounds (Nat.pos_of_ne_zero ha) hb
  refine rounds_of_wholeNearest (wholeNearest_unitsOf a hb _) (le_max_right _ _) ?_ ?_
  · rcases max_choice (floorLog a b - 52) (-1074) with h | h
    · refine .inr (le_of_eq_of_le ?_ hlow)
      rw [h, worth_two_pow]
      congr 1
      omega
    · exact .inl h
  · rw [worth_two_pow]
    exact hup.trans_le (zpow_le_zpow_right₀ one_le_two (by omega))

/-- A decimal is rounded to the nearest double. -/
theorem rounds_ofDecimal (negative : Bool) (n : Nat) (e : Int) :
    Rounds negative (n * 10 ^ e) (ofDecimal negative n e) := by
  rw [ofDecimal]
  have hten : (10 : ℚ) ≠ 0 := by norm_num
  split_ifs with hn hbig hsmall
  · rw [hn, Nat.cast_zero, zero_mul]
    exact rounds_zero le_rfl (by positivity)
  · have hone : (1 : ℚ) ≤ n := by exact_mod_cast Nat.pos_of_ne_zero hn
    refine .infinite ?_
    calc overflow ≤ 2 ^ (1024 : Int) := overflow_lt_zpow.le
      _ ≤ 2 ^ (3 * 400 : Int) := zpow_le_zpow_right₀ one_le_two (by decide)
      _ ≤ 10 ^ (400 : Int) := by exact_mod_cast two_pow_le_ten_pow 400
      _ ≤ 10 ^ e := zpow_le_zpow_right₀ (by norm_num) hbig.le
      _ ≤ n * 10 ^ e := le_mul_of_one_le_left (by positivity) hone
  · obtain ⟨k, rfl⟩ : ∃ k : Nat, e = -k := ⟨(-e).toNat, by omega⟩
    rw [neg_neg, Int.toNat_natCast] at hsmall
    refine rounds_zero (by positivity) ?_
    obtain ⟨-, hlt⟩ := log2_bounds (Nat.pos_of_ne_zero hn)
    calc (n : ℚ) * 10 ^ (-k : Int) = n / 10 ^ k := by rw [zpow_neg, zpow_natCast, div_eq_mul_inv]
      _ ≤ n / 2 ^ (3 * k) := div_le_div_of_nonneg_left (by positivity) (by positivity)
        (two_pow_le_ten_pow k)
      _ < 2 ^ ((n.log2 : Int) + 1) / 2 ^ (3 * k) := div_lt_div_of_pos_right hlt (by positivity)
      _ = 2 ^ ((n.log2 : Int) + 1 - (3 * k : Nat)) := by
        rw [zpow_sub₀ two_ne_zero, zpow_natCast]
      _ ≤ 2 ^ (-1075 : Int) := zpow_le_zpow_right₀ one_le_two (by omega)
  · have hratio := rounds_ofRatio negative (n * Nat.pow 10 e.toNat)
      (b := Nat.pow 10 (-e).toNat) (Nat.pow_pos (by decide))
    have hx : ((n * Nat.pow 10 e.toNat : Nat) : ℚ) / (Nat.pow 10 (-e).toNat : Nat) =
        n * 10 ^ e := by
      rw [zpow_eq_div hten, ← mul_div_assoc]
      simp only [Nat.pow_eq]
      push_cast
      rfl
    rwa [hx] at hratio

end CollectionShell.Double
