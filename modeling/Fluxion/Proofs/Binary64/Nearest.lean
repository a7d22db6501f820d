import Fluxion.Binary64
import Mathlib.Algebra.Order.Floor.Semifield
import Mathlib.Data.Rat.Floor
import Mathlib.Tactic.FieldSimp
import Mathlib.Tactic.Linarith
import Mathlib.Tactic.Positivity
import Mathlib.Tactic.Ring

/-! # The nearest double

Rounding a quotient takes the integer that is nearest to it, of two equally near ones the even
one, and this determines the result. A double is a natural number of at most 53 bits times a power
of two, in units of the least double. With the power of two chosen by the size of a quotient,
rounding finds the double that is nearest to it among all doubles, and nothing but the value of
the quotient matters.
-/

namespace Fluxion

/-- An integer is nearest to a number, and even if another one is as near. -/
def IsRounding (n : Nat) (x : ℚ) : Prop := |n - x| < 1 / 2 ∨ (|n - x| = 1 / 2 ∧ n % 2 = 0)

theorem one_le_abs_sub_add {n m : Nat} (h : n ≠ m) (x : ℚ) : 1 ≤ |(n : ℚ) - x| + |(m : ℚ) - x| := by
  have apart : (1 : ℚ) ≤ |(n : ℚ) - m| := by
    have far : (1 : ℤ) ≤ |(n : ℤ) - m| := Int.one_le_abs (by omega)
    exact_mod_cast far
  rw [abs_sub_comm (m : ℚ) x]
  exact apart.trans (abs_sub_le _ _ _)

namespace IsRounding

variable {n m : Nat} {x : ℚ}

theorem le_half (h : IsRounding n x) : |n - x| ≤ 1 / 2 := by
  cases h with
  | inl near => exact near.le
  | inr tie => exact tie.1.le

theorem unique (hn : IsRounding n x) (hm : IsRounding m x) : n = m := by
  by_contra other
  have apart := one_le_abs_sub_add other x
  have first := hn.le_half
  have second := hm.le_half
  -- both are a half away, so both are even, and they are next to each other
  have even_first := (hn.resolve_left (by linarith)).2
  have even_second := (hm.resolve_left (by linarith)).2
  have next : |(n : ℤ) - m| ≤ 1 := by
    have triangle := abs_sub_le (n : ℚ) x m
    rw [abs_sub_comm x] at triangle
    have close : |(n : ℚ) - m| ≤ 1 := by linarith
    exact_mod_cast close
  rw [abs_le] at next
  omega

theorem le_abs_sub (h : IsRounding n x) (m : Nat) : |n - x| ≤ |m - x| := by
  by_cases same : n = m
  · rw [same]
  · have apart := one_le_abs_sub_add same x
    have half := h.le_half
    linarith

theorem le_of_le (h : IsRounding n x) (hx : x ≤ m) : n ≤ m := by
  by_contra above
  have above : (m : ℚ) < n := by exact_mod_cast Nat.lt_of_not_le above
  have nearest := h.le_abs_sub m
  rw [abs_of_nonneg (by linarith), abs_of_nonneg (by linarith)] at nearest
  linarith

theorem ge_of_ge (h : IsRounding n x) (hx : m ≤ x) : m ≤ n := by
  by_contra below
  have below : (n : ℚ) < m := by exact_mod_cast Nat.lt_of_not_le below
  have nearest := h.le_abs_sub m
  rw [abs_of_nonpos (by linarith), abs_of_nonpos (by linarith)] at nearest
  linarith

theorem mono (h : IsRounding n x) {y : ℚ} (nearer : |n - y| ≤ |n - x|) : IsRounding n y := by
  cases h with
  | inl near => exact .inl (nearer.trans_lt near)
  | inr tie =>
      obtain ⟨half, even⟩ := tie
      rw [half] at nearer
      cases nearer.lt_or_eq with
      | inl near => exact .inl near
      | inr same => exact .inr ⟨same, even⟩

end IsRounding

theorem isRounding_down {floor : Nat} {rest : ℚ} (lower : 0 ≤ rest)
    (small : rest < 1 / 2 ∨ (rest = 1 / 2 ∧ floor % 2 = 0)) : IsRounding floor (floor + rest) := by
  have distance : |(floor : ℚ) - (floor + rest)| = rest := by
    rw [sub_add_cancel_left, abs_neg, abs_of_nonneg lower]
  rw [IsRounding, distance]
  exact small

theorem isRounding_up {floor : Nat} {rest : ℚ} (upper : rest < 1)
    (large : 1 / 2 < rest ∨ (rest = 1 / 2 ∧ floor % 2 = 1)) :
    IsRounding (floor + 1) (floor + rest) := by
  have distance : |((floor + 1 : Nat) : ℚ) - (floor + rest)| = 1 - rest := by
    rw [Nat.cast_add, Nat.cast_one, add_sub_add_left_eq_sub, abs_of_pos (by linarith)]
  rw [IsRounding, distance]
  cases large with
  | inl more =>
      left
      linarith
  | inr tie =>
      obtain ⟨half, odd⟩ := tie
      right
      rw [half]
      exact ⟨by norm_num, by omega⟩

theorem div_add_mod_div (num : Nat) {den : Nat} (hden : 0 < den) :
    (num : ℚ) / den = (num / den : Nat) + (num % den : Nat) / den := by
  have positive : (0 : ℚ) < den := by exact_mod_cast hden
  have whole : ((num / den : Nat) : ℚ) * den + (num % den : Nat) = num := by
    exact_mod_cast Nat.div_add_mod' num den
  rw [div_eq_iff positive.ne', add_mul, div_mul_cancel₀ _ positive.ne', whole]

theorem isRounding_roundDiv (num : Nat) {den : Nat} (hden : 0 < den) :
    IsRounding (roundDiv num den) (num / den) := by
  have positive : (0 : ℚ) < den := by exact_mod_cast hden
  have small := Nat.mod_lt num hden
  rw [div_add_mod_div num hden, roundDiv]
  generalize num / den = floor
  generalize num % den = rest at small ⊢
  split
  · next down =>
      refine isRounding_down (by positivity) ?_
      rw [div_lt_div_iff₀ positive two_pos, div_eq_div_iff positive.ne' two_ne_zero, one_mul,
        mul_comm]
      exact_mod_cast down
  · next up =>
      have upper : (rest : ℚ) / den < 1 := by
        rw [div_lt_one positive]
        exact_mod_cast small
      refine isRounding_up upper ?_
      rw [div_lt_div_iff₀ two_pos positive, div_eq_div_iff positive.ne' two_ne_zero, one_mul,
        mul_comm]
      have large : den < 2 * rest ∨ (2 * rest = den ∧ floor % 2 = 1) := by omega
      exact_mod_cast large

theorem roundDiv_eq_iff {num den n : Nat} (hden : 0 < den) :
    roundDiv num den = n ↔ IsRounding n (num / den) := by
  constructor
  · intro h
    subst h
    exact isRounding_roundDiv num hden
  · intro h
    exact (isRounding_roundDiv num hden).unique h

namespace Binary64

/-- A natural number of at most 53 bits times a power of two is a double. -/
theorem units_shift {shift r : Nat} (normal : shift = 0 ∨ 2 ^ 52 ≤ r) (small : r ≤ 2 ^ 53) :
    units (shift * 2 ^ 52 + r) = r * 2 ^ shift := by
  simp only [units, Nat.pow_eq]
  by_cases top : r = 2 ^ 53
  · subst top
    have exponent : (shift * 2 ^ 52 + 2 ^ 53) / 2 ^ 52 = shift + 2 := by omega
    have fraction : (shift * 2 ^ 52 + 2 ^ 53) % 2 ^ 52 = 0 := by omega
    rw [exponent, fraction, if_neg (by omega), Nat.add_zero, Nat.add_sub_assoc (by decide),
      Nat.pow_add]
    ring
  · by_cases subnormal : r < 2 ^ 52
    · obtain rfl : shift = 0 := by omega
      have exponent : (0 * 2 ^ 52 + r) / 2 ^ 52 = 0 := by omega
      have fraction : (0 * 2 ^ 52 + r) % 2 ^ 52 = r := by omega
      rw [exponent, fraction, if_pos rfl, Nat.pow_zero, Nat.mul_one]
    · have exponent : (shift * 2 ^ 52 + r) / 2 ^ 52 = shift + 1 := by omega
      have fraction : (shift * 2 ^ 52 + r) % 2 ^ 52 = r - 2 ^ 52 := by omega
      rw [exponent, fraction, if_neg (by omega), Nat.add_sub_cancel, Nat.add_sub_cancel' (by omega)]

/-- Every index is such a number, with a shift that is as small as can be. -/
theorem exists_shift (index : Nat) :
    ∃ shift r, index = shift * 2 ^ 52 + r ∧ (shift = 0 ∨ 2 ^ 52 ≤ r) ∧ r < 2 ^ 53 := by
  by_cases small : index < 2 ^ 53
  · exact ⟨0, index, by omega, .inl rfl, small⟩
  · refine ⟨index / 2 ^ 52 - 1, 2 ^ 52 + index % 2 ^ 52, ?_, .inr (by omega), by omega⟩
    omega

theorem units_lt_succ (index : Nat) : units index < units (index + 1) := by
  obtain ⟨shift, r, rfl, normal, small⟩ := exists_shift index
  rw [units_shift normal (by omega), Nat.add_assoc, units_shift (by omega) (by omega)]
  exact Nat.mul_lt_mul_of_pos_right (Nat.lt_succ_self r) (Nat.two_pow_pos shift)

theorem units_strictMono : StrictMono units := strictMono_nat_of_lt_succ units_lt_succ

/-- A double is a multiple of a power of two, or it is smaller than every one of 53 bits that is. -/
theorem units_on_grid (index shift : Nat) :
    (∃ m, units index = m * 2 ^ shift) ∨ (0 < shift ∧ units index ≤ 2 ^ 52 * 2 ^ shift) := by
  obtain ⟨s, r, rfl, normal, small⟩ := exists_shift index
  rw [units_shift normal small.le]
  by_cases coarse : shift ≤ s
  · left
    refine ⟨r * 2 ^ (s - shift), ?_⟩
    rw [Nat.mul_assoc, ← Nat.pow_add, Nat.sub_add_cancel coarse]
  · right
    refine ⟨by omega, ?_⟩
    obtain ⟨k, rfl⟩ : ∃ k, shift = s + 1 + k := ⟨shift - s - 1, by omega⟩
    calc
      r * 2 ^ s ≤ 2 ^ 53 * 2 ^ s := Nat.mul_le_mul_right _ small.le
      _ = 2 ^ 52 * 2 ^ (s + 1) := by ring
      _ ≤ 2 ^ 52 * 2 ^ (s + 1 + k) :=
        Nat.mul_le_mul_left _ (Nat.pow_le_pow_right (by decide) (Nat.le_add_right _ _))

theorem one_pos : 0 < one := by
  unfold one
  generalize 1074 = places
  exact Nat.two_pow_pos places

theorem one_eq : one = 2 ^ 52 * 2 ^ 1022 := by
  unfold one
  rw [show 1074 = 52 + 1022 from rfl]
  generalize 1022 = shift
  exact Nat.pow_add 2 52 shift

theorem units_one : units (1023 * 2 ^ 52) = one := by
  have index : 1023 * 2 ^ 52 = 1022 * 2 ^ 52 + 2 ^ 52 := by decide
  rw [index, units_shift (.inr (Nat.le_refl _)) (by decide), one_eq]

/-- How many places a quotient is shifted before it is rounded to 53 bits. -/
def shiftOf (num den : Nat) : Nat := (num * one / den).log2 - 52

/-- The quotient rounded to a multiple of the power of two. -/
def significandOf (num den : Nat) : Nat := roundDiv (num * one) (den * 2 ^ shiftOf num den)

theorem nearest_eq (num den : Nat) :
    nearest num den = min infinity (shiftOf num den * 2 ^ 52 + significandOf num den) := rfl

theorem nearest_one : nearest 1 1 = 1023 * 2 ^ 52 := by
  have shift : shiftOf 1 1 = 1022 := by
    rw [shiftOf, Nat.one_mul, Nat.div_one]
    unfold one
    generalize hplaces : 1074 = places
    rw [Nat.pow_eq, Nat.log2_two_pow]
    omega
  rw [nearest_eq, significandOf, shift, Nat.one_mul, Nat.one_mul, one_eq,
    roundDiv_mul _ (Nat.two_pow_pos 1022)]
  decide

section

variable {num den : Nat}

theorem isRounding_significandOf (hden : 0 < den) :
    IsRounding (significandOf num den) ((num * one : Nat) / den / 2 ^ shiftOf num den) := by
  have rounded :=
    isRounding_roundDiv (num * one) (Nat.mul_pos hden (Nat.two_pow_pos (shiftOf num den)))
  rwa [Nat.cast_mul den, ← div_div, Nat.cast_pow, Nat.cast_ofNat] at rounded

theorem floor_lt (num den : Nat) : num * one / den < 2 ^ 53 * 2 ^ shiftOf num den := by
  rw [← Nat.pow_add]
  calc
    num * one / den < 2 ^ ((num * one / den).log2 + 1) := Nat.lt_log2_self
    _ ≤ 2 ^ (53 + shiftOf num den) := Nat.pow_le_pow_right (by decide) (by rw [shiftOf]; omega)

theorem le_floor (hshift : 0 < shiftOf num den) :
    2 ^ 52 * 2 ^ shiftOf num den ≤ num * one / den := by
  have large : num * one / den ≠ 0 := by
    intro zero
    rw [shiftOf, zero] at hshift
    simp at hshift
  rw [← Nat.pow_add]
  calc
    2 ^ (52 + shiftOf num den) = 2 ^ (num * one / den).log2 := by
      congr 1
      rw [shiftOf] at hshift ⊢
      omega
    _ ≤ num * one / den := Nat.log2_self_le large

theorem le_quotient (hden : 0 < den) (hshift : 0 < shiftOf num den) :
    ((2 ^ 52 * 2 ^ shiftOf num den : Nat) : ℚ) ≤ (num * one : Nat) / den := by
  have floor := (Nat.le_div_iff_mul_le hden).1 (le_floor hshift)
  rw [le_div_iff₀ (by exact_mod_cast hden)]
  exact_mod_cast floor

theorem significandOf_bounds (hden : 0 < den) :
    (shiftOf num den = 0 ∨ 2 ^ 52 ≤ significandOf num den) ∧ significandOf num den ≤ 2 ^ 53 := by
  have positive : (0 : ℚ) < 2 ^ shiftOf num den := by positivity
  have rounded := @isRounding_significandOf num den hden
  constructor
  · by_cases hshift : shiftOf num den = 0
    · exact .inl hshift
    · right
      refine rounded.ge_of_ge ?_
      rw [le_div_iff₀ positive]
      exact_mod_cast le_quotient hden (Nat.pos_of_ne_zero hshift)
  · refine rounded.le_of_le ?_
    rw [div_le_iff₀ positive, div_le_iff₀ (by exact_mod_cast hden)]
    have above := (Nat.div_lt_iff_lt_mul hden).1 (floor_lt num den)
    exact_mod_cast above.le

theorem abs_shifted_sub (m shift : Nat) (x : ℚ) :
    |((m * 2 ^ shift : Nat) : ℚ) - x| = |(m : ℚ) - x / 2 ^ shift| * 2 ^ shift := by
  have positive : (0 : ℚ) < 2 ^ shift := by positivity
  rw [← abs_of_pos positive, ← abs_mul, abs_of_pos positive, sub_mul,
    div_mul_cancel₀ _ positive.ne']
  push_cast
  rfl

/-- No double is nearer to the quotient in units than its significand, shifted back. -/
theorem abs_significandOf_sub_le (hden : 0 < den) (index : Nat) :
    |((significandOf num den * 2 ^ shiftOf num den : Nat) : ℚ) - (num * one : Nat) / den| ≤
      |(units index : ℚ) - (num * one : Nat) / den| := by
  have positive : (0 : ℚ) < 2 ^ shiftOf num den := by positivity
  have rounded := @isRounding_significandOf num den hden
  have on_grid : ∀ m : Nat,
      |((significandOf num den * 2 ^ shiftOf num den : Nat) : ℚ) - (num * one : Nat) / den| ≤
        |((m * 2 ^ shiftOf num den : Nat) : ℚ) - (num * one : Nat) / den| := by
    intro m
    rw [abs_shifted_sub, abs_shifted_sub]
    exact mul_le_mul_of_nonneg_right (rounded.le_abs_sub m) positive.le
  cases units_on_grid index (shiftOf num den) with
  | inl multiple =>
      obtain ⟨m, hm⟩ := multiple
      rw [hm]
      exact on_grid m
  | inr below =>
      -- the smallest number of 53 bits lies between the double and the quotient
      obtain ⟨hshift, hle⟩ := below
      have quotient := le_quotient hden hshift
      have lower : (units index : ℚ) ≤ (2 ^ 52 * 2 ^ shiftOf num den : Nat) := by exact_mod_cast hle
      refine (on_grid (2 ^ 52)).trans ?_
      generalize ((2 ^ 52 * 2 ^ shiftOf num den : Nat) : ℚ) = least at quotient lower ⊢
      rw [abs_of_nonpos (by linarith), abs_of_nonpos (by linarith)]
      linarith

theorem abs_units_nearest_sub_le (hden : 0 < den) {index : Nat} (finite : index ≤ infinity) :
    |(units (nearest num den) : ℚ) - (num * one : Nat) / den| ≤
      |(units index : ℚ) - (num * one : Nat) / den| := by
  obtain ⟨normal, small⟩ := @significandOf_bounds num den hden
  have unbounded := fun i => @abs_significandOf_sub_le num den hden i
  rw [← units_shift normal small] at unbounded
  rw [nearest_eq]
  generalize shiftOf num den * 2 ^ 52 + significandOf num den = found at unbounded
  by_cases fits : found ≤ infinity
  · rw [Nat.min_eq_right fits]
    exact unbounded index
  · -- a quotient nearer to a value above infinity lies above infinity
    have above : (units infinity : ℚ) < units found := by
      exact_mod_cast units_strictMono (Nat.lt_of_not_le fits)
    have below : (units index : ℚ) ≤ units infinity := by
      exact_mod_cast units_strictMono.monotone finite
    have capped := unbounded infinity
    rw [Nat.min_eq_left (Nat.le_of_not_le fits)]
    generalize ((num * one : Nat) : ℚ) / den = x at capped ⊢
    by_cases beyond : (units infinity : ℚ) ≤ x
    · rw [abs_of_nonpos (by linarith), abs_of_nonpos (by linarith)]
      linarith
    · rw [abs_of_pos (by linarith), abs_of_pos (by linarith)] at capped
      linarith

end

/-- The exact value of the double at an index. -/
def value (index : Nat) : ℚ := units index / one

theorem units_last_add_one_lt : units (infinity - 1) + one < units infinity := by
  have last : infinity - 1 = 2045 * 2 ^ 52 + (2 ^ 53 - 1) := by decide
  have next : infinity = 2045 * 2 ^ 52 + 2 ^ 53 := by decide
  have small : one < 2 ^ 2045 := by
    unfold one
    generalize hplaces : 1074 = places
    generalize hshift : 2045 = shift
    exact Nat.pow_lt_pow_right (by decide) (by omega)
  rw [last, units_shift (.inr (by decide)) (by decide), next,
    units_shift (.inr (by decide)) (by decide), Nat.sub_mul, Nat.one_mul]
  generalize 2 ^ 2045 = step at small ⊢
  omega

theorem value_add_one_lt {index : Nat} (finite : index < infinity) :
    value index + 1 < value infinity := by
  have last : units index ≤ units (infinity - 1) :=
    units_strictMono.monotone (Nat.le_sub_one_of_lt finite)
  have unit : (0 : ℚ) < one := Nat.cast_pos.2 one_pos
  rw [value, value, ← div_self unit.ne', ← add_div, div_lt_div_iff_of_pos_right unit,
    ← Nat.cast_add, Nat.cast_lt]
  exact (Nat.add_le_add_right last one).trans_lt units_last_add_one_lt

theorem value_sub (index num : Nat) {den : Nat} (hden : 0 < den) :
    value index - num / den = ((units index : ℚ) - (num * one : Nat) / den) / one := by
  have positive : (0 : ℚ) < den := by exact_mod_cast hden
  have unit : (0 : ℚ) < one := Nat.cast_pos.2 one_pos
  rw [value, Nat.cast_mul]
  -- the number itself is too large for the normalisation
  generalize (one : ℚ) = scale at unit ⊢
  field_simp

/-- No double is nearer to the quotient than the one that is found. The index of infinity counts as
    the value that the next double would have. -/
theorem abs_value_nearest_sub_le (num : Nat) {den index : Nat} (hden : 0 < den)
    (finite : index ≤ infinity) :
    |value (nearest num den) - num / den| ≤ |value index - num / den| := by
  rw [value_sub _ num hden, value_sub _ num hden, abs_div, abs_div]
  exact div_le_div_of_nonneg_right (abs_units_nearest_sub_le hden finite) (abs_nonneg _)

theorem nearest_congr {num den num' den' : Nat} (hden : 0 < den) (hden' : 0 < den')
    (h : (num : ℚ) / den = num' / den') : nearest num den = nearest num' den' := by
  have scaled : ((num * one : Nat) : ℚ) / den = (num' * one : Nat) / den' := by
    rw [Nat.cast_mul, Nat.cast_mul, mul_div_right_comm, h, mul_div_right_comm]
  have floors : num * one / den = num' * one / den' := by
    rw [← @Nat.floor_div_eq_div ℚ _ _ _ _ (num * one) den, scaled, Nat.floor_div_eq_div]
  have shifts : shiftOf num den = shiftOf num' den' := by rw [shiftOf, floors, shiftOf]
  have rounded := @isRounding_significandOf num' den' hden'
  rw [← shifts, ← scaled] at rounded
  rw [nearest_eq, nearest_eq, ← shifts, (isRounding_significandOf hden).unique rounded]

end Binary64

end Fluxion
