import Fluxion.Proofs.Binary64.Neighbours
import Fluxion.Proofs.Decimal.Trimming
import Fluxion.Proofs.Decimal.Value
import Mathlib.Data.Nat.Prime.Basic

/-! # How much a fixed number of places keeps

The text of a decimal has a digit before the point, no zero at the end of a fraction and no point
without one, and it stands for the decimal. Rounded to so many places and read back, a double is off
by less than a unit of the last place. With six places it comes back as it was if and only if it is
the nearest double of some number of so many places. Below `2 ^ 33` the doubles are closer to each
other than the decimals, so that number is the one that is written. Above it they are further apart,
so no double is lost.
-/

namespace Fluxion

namespace Decimal

/-- A text of digits, or of digits around a point of which the last is not zero, and the number that
    it stands for. -/
def Denotes (text : List Char) (x : ℚ) : Prop :=
  ∃ whole fraction : List Char,
    text = whole ++ (if fraction = [] then [] else '.' :: fraction) ∧
      whole ≠ [] ∧ (∀ c ∈ whole ++ fraction, c.isDigit = true) ∧ fraction.getLast? ≠ some '0' ∧
      x = Nat.ofDigitChars 10 whole 0 + (Nat.ofDigitChars 10 fraction 0 : ℚ) / 10 ^ fraction.length

theorem text_denotes (d : Decimal) : Denotes d.text d.value := by
  have positive : 0 < Nat.pow 10 d.places := Nat.pow_pos (by decide)
  have small := Nat.mod_lt d.coefficient positive
  refine ⟨Nat.toDigits 10 (d.coefficient / Nat.pow 10 d.places),
    fractionDigits d.places (d.coefficient % Nat.pow 10 d.places), ?_, Nat.toDigits_ne_nil, ?_,
    getLast?_fractionDigits small, ?_⟩
  · rw [text]
    split
    · next whole => rw [if_pos ((fractionDigits_eq_nil_iff small).2 whole), List.append_nil]
    · next broken => rw [if_neg fun none => broken ((fractionDigits_eq_nil_iff small).1 none)]
  · exact List.forall_mem_append.2
      ⟨fun c hc => isDigit_of_mem_toDigits hc, fun c hc => isDigit_of_mem_fractionDigits small hc⟩
  · rw [← value_ofLiteral_text, (parts_text d).ofLiteral_eq, value_ofDigits]

end Decimal

namespace Binary64

/-- The distance of two doubles is a whole number over a power of two, and a unit of a decimal
    place is not. -/
theorem abs_value_sub_ne {places : Nat} (hplaces : places ≠ 0) (i j : Nat) :
    |value i - value j| ≠ 1 / (Nat.pow 10 places : Nat) := by
  intro same
  have unit : (0 : ℚ) < one := Nat.cast_pos.2 one_pos
  have scale : (0 : ℚ) < (Nat.pow 10 places : Nat) := Nat.cast_pos.2 (Nat.pow_pos (by decide))
  rw [value, value, ← sub_div, abs_div, abs_of_pos unit, div_eq_div_iff unit.ne' scale.ne',
    one_mul] at same
  have whole : |(units i : ℤ) - units j| * (Nat.pow 10 places : Nat) = one := by exact_mod_cast same
  have five : (5 : ℤ) ∣ one := by
    rw [← whole]
    have ten : (5 : ℤ) ∣ (Nat.pow 10 places : Nat) :=
      Int.natCast_dvd_natCast.2 ((by decide : 5 ∣ 10).trans (dvd_pow_self 10 hplaces))
    exact ten.mul_left _
  have power : 5 ∣ one := Int.natCast_dvd_natCast.1 five
  unfold one at power
  generalize 1074 = shift at power
  rw [Nat.pow_eq] at power
  exact absurd (Nat.prime_five.dvd_of_dvd_pow power) (by decide)

end Binary64

namespace Decimal

open Binary64

variable {index : Nat}

theorem nearest_eq_iff (d : Decimal) : d.nearest = index ↔ IsNearest index d.value :=
  Binary64.nearest_eq_iff (Nat.pow_pos (by decide))

theorem value_fixed (places index : Nat) :
    (fixed places index).value = (fixed places index).coefficient / (Nat.pow 10 places : Nat) := rfl

theorem abs_div_sub_mul (n places : Nat) (x : ℚ) :
    |n / (Nat.pow 10 places : Nat) - x| * (Nat.pow 10 places : Nat) =
      |n - x * (Nat.pow 10 places : Nat)| := by
  have scale : (0 : ℚ) < (Nat.pow 10 places : Nat) := Nat.cast_pos.2 (Nat.pow_pos (by decide))
  generalize ((Nat.pow 10 places : Nat) : ℚ) = scaled at scale ⊢
  rw [← abs_of_pos scale, ← abs_mul, abs_of_pos scale, sub_mul, div_mul_cancel₀ _ scale.ne']

theorem abs_value_fixed_sub_le (places index : Nat) :
    |(fixed places index).value - Binary64.value index| ≤ 1 / 2 / (Nat.pow 10 places : Nat) := by
  have scale : (0 : ℚ) < (Nat.pow 10 places : Nat) := Nat.cast_pos.2 (Nat.pow_pos (by decide))
  rw [le_div_iff₀ scale, value_fixed, abs_div_sub_mul]
  exact ((isRounding_fixed_iff places index _).1 rfl).le_half

theorem abs_value_nearest_fixed_sub_lt {places : Nat} (hplaces : places ≠ 0)
    (finite : index < infinity) :
    |Binary64.value (fixed places index).nearest - Binary64.value index| <
      1 / (Nat.pow 10 places : Nat) := by
  have written := abs_value_fixed_sub_le places index
  have read : |Binary64.value (fixed places index).nearest - (fixed places index).value| ≤
      |Binary64.value index - (fixed places index).value| :=
    abs_value_nearest_sub_le _ (Nat.pow_pos (by decide)) finite.le
  rw [abs_sub_comm (Binary64.value index)] at read
  refine lt_of_le_of_ne ?_ (abs_value_sub_ne hplaces _ _)
  have halves : (1 : ℚ) / (Nat.pow 10 places : Nat) =
      1 / 2 / (Nat.pow 10 places : Nat) + 1 / 2 / (Nat.pow 10 places : Nat) := by
    rw [← add_div]
    norm_num
  rw [halves]
  exact (abs_sub_le _ (fixed places index).value _).trans (add_le_add (read.trans written) written)

theorem value_two_pow_33 : Binary64.value (1056 * 2 ^ 52) = 2 ^ 33 := by
  have split : 1056 * 2 ^ 52 = 1055 * 2 ^ 52 + 2 ^ 52 := by decide
  rw [split, value_shift (.inr (Nat.le_refl _)) (by decide)]
  norm_num

/-- Where the doubles are dense, the decimal that a double is nearest to is the one
    that is written. -/
theorem coefficient_of_isNearest {n : Nat} (finite : index < infinity)
    (dense : index < 1056 * 2 ^ 52)
    (nearest : IsNearest index (n / (Nat.pow 10 constantPlaces : Nat))) :
    (fixed constantPlaces index).coefficient = n := by
  have close := nearest.abs_le_half finite (by positivity) (@value_succ_le 1054 20 index rfl dense)
    fun i hi => hi ▸ @value_succ_le 1054 20 i rfl (by omega)
  rw [isRounding_fixed_iff]
  refine .inl ?_
  rw [← abs_div_sub_mul, abs_sub_comm]
  calc
    _ ≤ 1 / 2 ^ 20 / 2 * ((Nat.pow 10 constantPlaces : Nat) : ℚ) :=
      mul_le_mul_of_nonneg_right close (Nat.cast_nonneg _)
    _ < 1 / 2 := by norm_num [constantPlaces]

theorem value_fixed_two_pow_33 :
    (fixed constantPlaces (1056 * 2 ^ 52)).value = Binary64.value (1056 * 2 ^ 52) := by
  have written : (fixed constantPlaces (1056 * 2 ^ 52)).coefficient =
      2 ^ 33 * Nat.pow 10 constantPlaces := by
    rw [isRounding_fixed_iff, value_two_pow_33]
    refine .inl ?_
    norm_num
  rw [value_fixed, written, value_two_pow_33]
  norm_num [constantPlaces]

/-- Where the doubles are far apart, rounding does not leave the nearest one. -/
theorem isNearest_fixed (finite : index < infinity) (sparse : 1056 * 2 ^ 52 < index) :
    IsNearest index (fixed constantPlaces index).value := by
  have close := abs_value_fixed_sub_le constantPlaces index
  rw [abs_sub_comm] at close
  refine isNearest_of_abs_lt finite.le (@value_add_le 1055 19 index rfl sparse.le)
    (fun i hi => hi ▸ @value_add_le 1055 19 i rfl (by omega)) (close.trans_lt ?_)
  norm_num [constantPlaces]

/-- A double is read back as it was if and only if it is the nearest one of some number
    with six places. -/
theorem nearest_fixed_eq_iff (finite : index < infinity) :
    (fixed constantPlaces index).nearest = index ↔
      ∃ n : Nat, IsNearest index (n / (Nat.pow 10 constantPlaces : Nat)) := by
  rw [nearest_eq_iff]
  constructor
  · exact fun same => ⟨_, same⟩
  · rintro ⟨n, nearest⟩
    cases Nat.lt_trichotomy index (1056 * 2 ^ 52) with
    | inl dense =>
        rw [value_fixed, coefficient_of_isNearest finite dense nearest]
        exact nearest
    | inr rest =>
        cases rest with
        | inl border =>
            rw [border, value_fixed_two_pow_33, ← border]
            exact isNearest_self finite.le
        | inr sparse => exact isNearest_fixed finite sparse

end Decimal

end Fluxion
