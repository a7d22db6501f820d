import Fluxion.Decimal.Fixed
import Fluxion.Decimal.Shortest
import Fluxion.Proofs.Binary64.Nearest
import Fluxion.Proofs.Decimal.Literal

/-! # The value of a decimal

Writing a decimal and reading it again may change the number of places, but not the value, and the
value decides which double is nearest. A double, rounded to a fixed number of places, is as near to
the decimal as any double is, so rounding the nearest one again gives the same decimal. Written in
as many places as its unit has, a double is read back as it was.
-/

namespace Fluxion.Decimal

/-- The number that a decimal stands for. -/
def value (d : Decimal) : ℚ := d.coefficient / (Nat.pow 10 d.places : Nat)

theorem value_ofDigits (whole fraction : List Char) :
    (ofDigits whole fraction).value =
      Nat.ofDigitChars 10 whole 0 +
        (Nat.ofDigitChars 10 fraction 0 : ℚ) / 10 ^ fraction.length := by
  rw [value, ofDigits, Nat.ofDigitChars_append, Nat.ofDigitChars_eq_ofDigitChars_zero, Nat.pow_eq]
  push_cast
  field_simp

theorem ofDigitChars_fractionDigits {places rest : Nat} (h : rest < Nat.pow 10 places)
    (whole : Nat) :
    Nat.ofDigitChars 10 (fractionDigits places rest) whole * Nat.pow 10 places =
      (whole * Nat.pow 10 places + rest) * Nat.pow 10 (fractionDigits places rest).length := by
  induction places generalizing rest whole with
  | zero =>
      obtain rfl : rest = 0 := by simpa using h
      simp [fractionDigits]
  | succ places ih =>
      rw [fractionDigits]
      split
      · next none => simp [none]
      · have small := fractionDigits_lt h
        have behind :=
          ih (Nat.mod_lt rest (Nat.pow_pos (by decide))) (10 * whole + rest / Nat.pow 10 places)
        have digits := Nat.div_add_mod rest (Nat.pow 10 places)
        rw [Nat.ofDigitChars_cons_digitChar_of_lt_ten small, List.length_cons]
        simp only [Nat.pow_eq, Nat.pow_succ] at behind digits ⊢
        rw [← Nat.mul_assoc, behind]
        generalize (fractionDigits places (rest % 10 ^ places)).length = length
        generalize rest / 10 ^ places = digit at digits ⊢
        generalize rest % 10 ^ places = left at digits ⊢
        subst digits
        ring

theorem value_ofLiteral_text (d : Decimal) : (ofLiteral d.text).value = d.value := by
  have positive : ∀ places, (0 : ℚ) < (Nat.pow 10 places : Nat) :=
    fun places => Nat.cast_pos.2 (Nat.pow_pos (by decide))
  have small : d.coefficient % Nat.pow 10 d.places < Nat.pow 10 d.places :=
    Nat.mod_lt _ (Nat.pow_pos (by decide))
  have digits := ofDigitChars_fractionDigits small (d.coefficient / Nat.pow 10 d.places)
  rw [Nat.div_add_mod'] at digits
  rw [(parts_text d).ofLiteral_eq, value, value, ofDigits,
    div_eq_div_iff (positive _).ne' (positive _).ne', Nat.ofDigitChars_append,
    Nat.ofDigitChars_ten_toDigits]
  exact_mod_cast digits

theorem nearest_congr {d d' : Decimal} (h : d.value = d'.value) : d.nearest = d'.nearest :=
  Binary64.nearest_congr (Nat.pow_pos (by decide)) (Nat.pow_pos (by decide)) h

theorem fixed_one (places : Nat) : fixed places (1023 * 2 ^ 52) = ⟨Nat.pow 10 places, places⟩ := by
  rw [fixed, Binary64.units_one, Nat.mul_comm, roundDiv_mul _ Binary64.one_pos]

theorem isRounding_fixed_iff (places index n : Nat) :
    (fixed places index).coefficient = n ↔
      IsRounding n (Binary64.value index * (Nat.pow 10 places : Nat)) := by
  rw [fixed, roundDiv_eq_iff Binary64.one_pos, Nat.cast_mul, mul_div_right_comm]
  rfl

theorem abs_nearest_fixed_sub_le (places : Nat) {index : Nat} (finite : index < Binary64.infinity) :
    |(fixed places index).coefficient -
        Binary64.value (fixed places index).nearest * (Nat.pow 10 places : Nat)| ≤
      |(fixed places index).coefficient - Binary64.value index * (Nat.pow 10 places : Nat)| := by
  have positive : (0 : ℚ) < (Nat.pow 10 places : Nat) := Nat.cast_pos.2 (Nat.pow_pos (by decide))
  have scaled :
      ∀ i, |(fixed places index).coefficient - Binary64.value i * (Nat.pow 10 places : Nat)| =
        |Binary64.value i - (fixed places index).value| * (Nat.pow 10 places : Nat) := by
    intro i
    rw [abs_sub_comm, ← abs_of_pos positive, ← abs_mul, abs_of_pos positive, sub_mul, value, fixed,
      div_mul_cancel₀ _ positive.ne']
  rw [scaled, scaled]
  exact mul_le_mul_of_nonneg_right
    (Binary64.abs_value_nearest_sub_le _ (Nat.pow_pos (by decide)) finite.le) positive.le

theorem fixed_nearest (places : Nat) {index : Nat} (finite : index < Binary64.infinity) :
    fixed places (fixed places index).nearest = fixed places index := by
  have rounded := (isRounding_fixed_iff places index _).1 rfl
  have again :=
    (isRounding_fixed_iff places _ _).2 (rounded.mono (abs_nearest_fixed_sub_le places finite))
  simp only [fixed] at again ⊢
  rw [again]

/-- A finite double is read as a finite one: infinity is further from the last finite double than a
    decimal that was rounded from it. -/
theorem nearest_fixed_lt (places : Nat) {index : Nat} (finite : index < Binary64.infinity) :
    (fixed places index).nearest < Binary64.infinity := by
  refine Nat.lt_of_le_of_ne (Binary64.nearest_le_infinity _ _) fun infinite => ?_
  have written := ((isRounding_fixed_iff places index _).1 rfl).le_half
  have read := (abs_nearest_fixed_sub_le places finite).trans written
  rw [infinite] at read
  have ten : (1 : ℚ) ≤ (Nat.pow 10 places : Nat) := Nat.one_le_cast.2 (Nat.pow_pos (by decide))
  have gap := mul_lt_mul_of_pos_right (Binary64.value_add_one_lt finite) (zero_lt_one.trans_le ten)
  rw [abs_le] at written read
  linarith

theorem value_exact (index : Nat) : (exact index).value = Binary64.value index := by
  unfold value exact Binary64.value Binary64.one
  generalize 1074 = places
  have fives : ((5 : ℚ) ^ places) ≠ 0 := pow_ne_zero _ (by norm_num)
  simp only [Nat.pow_eq, Nat.cast_mul, Nat.cast_pow, Nat.cast_ofNat]
  -- tenths are fifths of halves
  rw [show (10 : ℚ) = 2 * 5 by norm_num, mul_pow, mul_div_mul_right _ _ fives]

/-- No double but the one itself is at no distance. The decimal of infinity is as large as the next
    double would be, and reading stops at infinity. -/
theorem nearest_exact {index : Nat} (h : index ≤ Binary64.infinity) :
    (exact index).nearest = index := by
  have near := @Binary64.abs_value_nearest_sub_le (exact index).coefficient
    (Nat.pow 10 (exact index).places) index (Nat.pow_pos (by decide)) h
  have unit : (0 : ℚ) < Binary64.one := Nat.cast_pos.2 Binary64.one_pos
  change |Binary64.value (exact index).nearest - (exact index).value| ≤
    |Binary64.value index - (exact index).value| at near
  rw [value_exact, sub_self, abs_zero, abs_nonpos_iff, sub_eq_zero, Binary64.value, Binary64.value,
    div_left_inj' unit.ne', Nat.cast_inj] at near
  exact Binary64.units_strictMono.injective near

end Fluxion.Decimal
