import Fluxion.Numeral
import Fluxion.Proofs.Binary64.Halves
import Fluxion.Proofs.Decimal.Accuracy

/-! # Decimals times a power of ten

The double that is nearest to a decimal times a power of ten is found, also where the power alone
decides and is not computed: a large one makes every decimal but zero infinite, and a small one
makes every decimal zero.
-/

namespace Fluxion.Decimal

theorem two_pow_le_ten_pow {n m : Nat} (h : n ≤ 3 * m) : (2 : ℚ) ^ n ≤ 10 ^ m := by
  calc
    (2 : ℚ) ^ n ≤ 2 ^ (3 * m) := pow_le_pow_right₀ (by norm_num) h
    _ = (2 ^ 3) ^ m := pow_mul 2 3 m
    _ ≤ 10 ^ m := pow_le_pow_left₀ (by norm_num) (by norm_num) m

theorem ten_zpow_eq_div (scale : Int) :
    (10 : ℚ) ^ scale = (Nat.pow 10 scale.toNat : Nat) / (Nat.pow 10 (-scale).toNat : Nat) := by
  obtain ⟨n, rfl | rfl⟩ := scale.eq_nat_or_neg <;> simp

theorem value_mul_zpow (d : Decimal) (exponent : Int) :
    d.value * 10 ^ exponent = d.coefficient * 10 ^ (exponent - d.places) := by
  rw [value, zpow_sub₀ (by norm_num : (10 : ℚ) ≠ 0), zpow_natCast, Nat.pow_eq, Nat.cast_pow,
    Nat.cast_ofNat]
  ring

theorem coefficient_lt (n : Nat) : n < 10 ^ (Nat.toDigits 10 n).length :=
  (Nat.length_toDigits_le_iff (by decide) Nat.length_toDigits_pos).1 (Nat.le_refl _)

variable {coefficient : Nat} {scale : Int}

theorem isNearest_infinity_of_lt (nonzero : coefficient ≠ 0) (large : 400 < scale) :
    Binary64.IsNearest Binary64.infinity (coefficient * 10 ^ scale) := by
  rw [Binary64.isNearest_infinity_iff]
  have one_le : (1 : ℚ) ≤ coefficient := Nat.one_le_cast.2 (Nat.pos_of_ne_zero nonzero)
  have power : (10 : ℚ) ^ 400 ≤ 10 ^ scale := by
    rw [← zpow_natCast]
    exact zpow_le_zpow_right₀ (by norm_num) (by exact_mod_cast large.le)
  have bound : (2 : ℚ) ^ 1024 ≤ 10 ^ 400 := two_pow_le_ten_pow (by decide)
  calc
    (2 : ℚ) ^ 1024 - 2 ^ 970 ≤ 2 ^ 1024 := sub_le_self _ (pow_nonneg (by norm_num) 970)
    _ ≤ 10 ^ scale := bound.trans power
    _ ≤ coefficient * 10 ^ scale := le_mul_of_one_le_left (zpow_nonneg (by norm_num) scale) one_le

theorem isNearest_zero_of_lt (small : (Nat.toDigits 10 coefficient).length + scale < -400) :
    Binary64.IsNearest 0 (coefficient * 10 ^ scale) := by
  rw [Binary64.isNearest_zero_iff]
  have digits : (coefficient : ℚ) ≤ 10 ^ ((Nat.toDigits 10 coefficient).length : Int) := by
    rw [zpow_natCast]
    exact_mod_cast (coefficient_lt coefficient).le
  have bound : (2 : ℚ) ^ 1075 ≤ 10 ^ 400 := two_pow_le_ten_pow (by decide)
  calc
    (coefficient : ℚ) * 10 ^ scale ≤ 10 ^ ((Nat.toDigits 10 coefficient).length : Int) *
      10 ^ scale :=
      mul_le_mul_of_nonneg_right digits (zpow_nonneg (by norm_num) scale)
    _ = 10 ^ ((Nat.toDigits 10 coefficient).length + scale) := (zpow_add₀ (by norm_num) _ _).symm
    _ ≤ 10 ^ (-400 : Int) := zpow_le_zpow_right₀ (by norm_num) small.le
    _ = 1 / 10 ^ 400 := by rw [zpow_neg, one_div]; rfl
    _ ≤ 1 / 2 ^ 1075 := one_div_le_one_div_of_le (pow_pos (by norm_num) 1075) bound

/-- No power of ten is so large or so small that leaving it out would change the double. -/
theorem isNearest_nearestScaled (d : Decimal) (exponent : Int) :
    Binary64.IsNearest (d.nearestScaled exponent) (d.value * 10 ^ exponent) := by
  rw [value_mul_zpow]
  unfold nearestScaled
  dsimp only
  split
  · next zero =>
      rw [zero, Nat.cast_zero, zero_mul, Binary64.isNearest_zero_iff]
      positivity
  · next nonzero =>
      split
      · next large => exact isNearest_infinity_of_lt nonzero large
      · split
        · next small => exact isNearest_zero_of_lt small
        · rw [ten_zpow_eq_div, ← mul_div_assoc, ← Nat.cast_mul]
          exact Binary64.isNearest_nearest _ (Nat.pow_pos (by decide))

theorem nearestScaled_zero (d : Decimal) : d.nearestScaled 0 = d.nearest := by
  have scaled := isNearest_nearestScaled d 0
  rw [zpow_zero, mul_one] at scaled
  exact ((nearest_eq_iff d).2 scaled).symm

end Fluxion.Decimal
