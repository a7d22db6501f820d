import Fluxion.Proofs.Binary64.Nearest

/-! # Neighbouring doubles

The step from a double to the next one is a power of two, and the power grows with the index. The
double that rounding finds is the nearest one, of two equally near ones the one with the even index,
and only one double is. A double is nearest to what is within half of its shorter step, and to
nothing beyond half of the longer one.
-/

namespace Fluxion.Binary64

/-- The step is the last place of the significand. -/
theorem units_succ {shift r : Nat} (normal : shift = 0 ∨ 2 ^ 52 ≤ r) (small : r < 2 ^ 53) :
    units (shift * 2 ^ 52 + r + 1) = units (shift * 2 ^ 52 + r) + 2 ^ shift := by
  rw [units_shift normal small.le, Nat.add_assoc, units_shift (by omega) (by omega)]
  ring

theorem le_units_succ {shift index : Nat} (h : (shift + 1) * 2 ^ 52 ≤ index) :
    units index + 2 ^ shift ≤ units (index + 1) := by
  obtain ⟨s, r, rfl, normal, small⟩ := exists_shift index
  rw [units_succ normal small]
  exact Nat.add_le_add_left (Nat.pow_le_pow_right (by decide) (by omega)) _

theorem units_succ_le {shift index : Nat} (h : index < (shift + 2) * 2 ^ 52) :
    units (index + 1) ≤ units index + 2 ^ shift := by
  obtain ⟨s, r, rfl, normal, small⟩ := exists_shift index
  rw [units_succ normal small]
  exact Nat.add_le_add_left (Nat.pow_le_pow_right (by decide) (by omega)) _

theorem value_zero : value 0 = 0 := by
  rw [value, show units 0 = 0 from rfl, Nat.cast_zero, zero_div]

theorem value_strictMono : StrictMono value := by
  intro i j h
  have unit : (0 : ℚ) < one := Nat.cast_pos.2 one_pos
  exact div_lt_div_of_pos_right (Nat.cast_lt.2 (units_strictMono h)) unit

theorem pow_div_one {shift places : Nat} (h : shift + places = 1074) :
    ((2 ^ shift : Nat) : ℚ) / one = 1 / 2 ^ places := by
  have split : one = 2 ^ shift * 2 ^ places := by
    unfold one
    rw [← h]
    exact Nat.pow_add 2 shift places
  have positive : (0 : ℚ) < 2 ^ shift := by positivity
  rw [split]
  push_cast
  field_simp

theorem cast_one : (one : ℚ) = 2 ^ 1074 := by
  unfold one
  generalize 1074 = places
  rw [Nat.pow_eq, Nat.cast_pow, Nat.cast_ofNat]

theorem value_shift {shift r : Nat} (normal : shift = 0 ∨ 2 ^ 52 ≤ r) (small : r ≤ 2 ^ 53) :
    value (shift * 2 ^ 52 + r) = r * 2 ^ ((shift : Int) - 1074) := by
  rw [value, units_shift normal small, cast_one, zpow_sub₀ two_ne_zero, zpow_natCast, zpow_ofNat,
    Nat.cast_mul, Nat.cast_pow, Nat.cast_ofNat, mul_div_assoc]

theorem value_add_le {shift places index : Nat} (hplaces : shift + places = 1074)
    (h : (shift + 1) * 2 ^ 52 ≤ index) : value index + 1 / 2 ^ places ≤ value (index + 1) := by
  rw [← pow_div_one hplaces, value, value, ← add_div]
  exact div_le_div_of_nonneg_right (by exact_mod_cast le_units_succ h) (Nat.cast_nonneg _)

theorem value_succ_le {shift places index : Nat} (hplaces : shift + places = 1074)
    (h : index < (shift + 2) * 2 ^ 52) : value (index + 1) ≤ value index + 1 / 2 ^ places := by
  rw [← pow_div_one hplaces, value, value, ← add_div]
  exact div_le_div_of_nonneg_right (by exact_mod_cast units_succ_le h) (Nat.cast_nonneg _)

/-- No double is nearer to a number that is not negative, and if another one is as near, the index
    is even. The index of infinity counts as the value that the next double would have. -/
def IsNearest (index : Nat) (x : ℚ) : Prop :=
  index ≤ infinity ∧ ∀ other ≤ infinity, other ≠ index →
    |value index - x| < |value other - x| ∨ (|value index - x| = |value other - x| ∧ index % 2 = 0)

namespace IsNearest

variable {i j : Nat} {x : ℚ}

theorem abs_le (h : IsNearest i x) {other : Nat} (finite : other ≤ infinity) :
    |value i - x| ≤ |value other - x| := by
  by_cases same : other = i
  · rw [same]
  · cases h.2 other finite same with
    | inl nearer => exact nearer.le
    | inr tie => exact tie.1.le

/-- Between two doubles that are equally near there is one that is nearer, unless they
    are neighbours. -/
theorem not_lt (hi : IsNearest i x) (hj : IsNearest j x) : ¬ i < j := by
  intro h
  have tie : |value i - x| = |value j - x| := le_antisymm (hi.abs_le hj.1) (hj.abs_le hi.1)
  have evens : i % 2 = 0 ∧ j % 2 = 0 :=
    ⟨((hi.2 j hj.1 h.ne').resolve_left tie.not_lt).2,
      ((hj.2 i hi.1 h.ne).resolve_left tie.not_gt).2⟩
  have first := value_strictMono (Nat.lt_succ_self i)
  have second := value_strictMono (show i + 1 < j by omega)
  have nearest := hi.abs_le (show i + 1 ≤ infinity from (Nat.succ_le_of_lt h).trans hj.1)
  cases abs_eq_abs.1 tie with
  | inl same => linarith
  | inr opposite =>
      rw [abs_of_neg (by linarith)] at nearest
      cases abs_cases (value (i + 1) - x) <;> linarith

theorem unique (hi : IsNearest i x) (hj : IsNearest j x) : i = j :=
  Nat.le_antisymm (Nat.le_of_not_lt (hj.not_lt hi)) (Nat.le_of_not_lt (hi.not_lt hj))

end IsNearest

section

variable {num den : Nat}

theorem abs_significandOf_sub_lt (hden : 0 < den)
    (near : |(significandOf num den : ℚ) - (num * one : Nat) / den / 2 ^ shiftOf num den| < 1 / 2)
    {index : Nat}
    (other : units index ≠ significandOf num den * 2 ^ shiftOf num den) :
    |((significandOf num den * 2 ^ shiftOf num den : Nat) : ℚ) - (num * one : Nat) / den| <
      |(units index : ℚ) - (num * one : Nat) / den| := by
  have positive : (0 : ℚ) < 2 ^ shiftOf num den := by positivity
  have rounded := @isRounding_significandOf num den hden
  have on_grid : ∀ m : Nat, m ≠ significandOf num den →
      |((significandOf num den * 2 ^ shiftOf num den : Nat) : ℚ) - (num * one : Nat) / den| <
        |((m * 2 ^ shiftOf num den : Nat) : ℚ) - (num * one : Nat) / den| := by
    intro m hm
    have apart := one_le_abs_sub_add hm ((num * one : Nat) / den / 2 ^ shiftOf num den)
    rw [abs_shifted_sub, abs_shifted_sub]
    exact mul_lt_mul_of_pos_right (by linarith) positive
  have multiple : ∀ m : Nat, units index = m * 2 ^ shiftOf num den →
      |((significandOf num den * 2 ^ shiftOf num den : Nat) : ℚ) - (num * one : Nat) / den| <
        |(units index : ℚ) - (num * one : Nat) / den| := by
    intro m hm
    rw [hm] at other ⊢
    exact on_grid m fun same => other (by rw [same])
  cases units_on_grid index (shiftOf num den) with
  | inl grid =>
      obtain ⟨m, hm⟩ := grid
      exact multiple m hm
  | inr below =>
      obtain ⟨hshift, hle⟩ := below
      cases hle.lt_or_eq with
      | inr least => exact multiple (2 ^ 52) least
      | inl less =>
          -- the smallest number of 53 bits lies between the double and the quotient
          have quotient := le_quotient hden hshift
          have lower : (units index : ℚ) < (2 ^ 52 * 2 ^ shiftOf num den : Nat) := by
            exact_mod_cast less
          have nearest :
              |((significandOf num den * 2 ^ shiftOf num den : Nat) : ℚ) -
                  (num * one : Nat) / den| ≤
                |((2 ^ 52 * 2 ^ shiftOf num den : Nat) : ℚ) - (num * one : Nat) / den| := by
            rw [abs_shifted_sub, abs_shifted_sub]
            exact mul_le_mul_of_nonneg_right (rounded.le_abs_sub _) positive.le
          refine nearest.trans_lt ?_
          generalize ((2 ^ 52 * 2 ^ shiftOf num den : Nat) : ℚ) = least at quotient lower ⊢
          rw [abs_of_nonpos (by linarith), abs_of_nonpos (by linarith)]
          linarith

/-- If another double is as near as the one that is found, the index that is found is even. -/
theorem even_of_tie (hden : 0 < den) {index : Nat} (other : index ≠ nearest num den)
    (tie : |value (nearest num den) - num / den| = |value index - num / den|) :
    nearest num den % 2 = 0 := by
  have unit : (0 : ℚ) < one := Nat.cast_pos.2 one_pos
  rw [value_sub _ num hden, value_sub _ num hden, abs_div, abs_div,
    div_left_inj' (abs_pos.2 unit.ne').ne'] at tie
  obtain ⟨normal, small⟩ := @significandOf_bounds num den hden
  have found := units_shift normal small
  rw [nearest_eq] at other tie ⊢
  by_cases fits : shiftOf num den * 2 ^ 52 + significandOf num den ≤ infinity
  · rw [Nat.min_eq_right fits] at other tie ⊢
    rw [found] at tie
    cases @isRounding_significandOf num den hden with
    | inl near =>
        have apart : units index ≠ significandOf num den * 2 ^ shiftOf num den := by
          rw [← found]
          exact fun same => other (units_strictMono.injective same)
        exact absurd tie (abs_significandOf_sub_lt hden near apart).ne
    | inr half =>
        have even := half.2
        omega
  · rw [Nat.min_eq_left (Nat.le_of_not_le fits)]
    decide

theorem isNearest_nearest (num : Nat) (hden : 0 < den) :
    IsNearest (nearest num den) (num / den) := by
  refine ⟨nearest_le_infinity num den, fun other finite different => ?_⟩
  cases (abs_value_nearest_sub_le num hden finite).lt_or_eq with
  | inl nearer => exact .inl nearer
  | inr tie => exact .inr ⟨tie, even_of_tie hden different tie⟩

/-- Rounding finds the nearest double, and no other. -/
theorem nearest_eq_iff (hden : 0 < den) {index : Nat} :
    nearest num den = index ↔ IsNearest index (num / den) := by
  constructor
  · intro h
    rw [← h]
    exact isNearest_nearest num hden
  · exact (isNearest_nearest num hden).unique

end

section

variable {index : Nat} {x gap : ℚ}

theorem isNearest_self (bounded : index ≤ infinity) : IsNearest index (value index) := by
  refine ⟨bounded, fun other _ different => .inl ?_⟩
  rw [sub_self, abs_zero]
  exact abs_pos.2 (sub_ne_zero.2 (value_strictMono.injective.ne different))

theorem le_abs_value_sub (above : value index + gap ≤ value (index + 1))
    (below : ∀ i, i + 1 = index → value i + gap ≤ value index) {other : Nat}
    (different : other ≠ index) :
    gap ≤ |value other - value index| := by
  cases Nat.lt_or_gt_of_ne different with
  | inl less =>
      have lower := below (index - 1) (by omega)
      have far := value_strictMono.monotone (show other ≤ index - 1 by omega)
      rw [abs_sub_comm]
      exact le_trans (by linarith) (le_abs_self _)
  | inr more =>
      have far := value_strictMono.monotone (show index + 1 ≤ other by omega)
      exact le_trans (by linarith) (le_abs_self _)

theorem isNearest_of_abs_lt (bounded : index ≤ infinity)
    (above : value index + gap ≤ value (index + 1))
    (below : ∀ i, i + 1 = index → value i + gap ≤ value index)
    (near : |value index - x| < gap / 2) :
    IsNearest index x := by
  refine ⟨bounded, fun other _ different => .inl ?_⟩
  have apart := le_abs_value_sub above below different
  have triangle := abs_sub_le (value other) x (value index)
  rw [abs_sub_comm x] at triangle
  linarith

theorem IsNearest.abs_le_half (h : IsNearest index x) (finite : index < infinity) (nonneg : 0 ≤ x)
    (above : value (index + 1) ≤ value index + gap)
    (below : ∀ i, i + 1 = index → value index ≤ value i + gap) : |value index - x| ≤ gap / 2 := by
  have step := value_strictMono (Nat.lt_succ_self index)
  by_cases side : value index ≤ x
  · have nearest := h.abs_le (show index + 1 ≤ infinity from finite)
    rw [abs_of_nonpos (by linarith)] at nearest ⊢
    cases abs_cases (value (index + 1) - x) <;> linarith
  · cases index with
    | zero =>
        rw [value_zero] at side
        exact absurd nonneg side
    | succ i =>
        have nearest := h.abs_le (show i ≤ infinity by omega)
        have lower := below i rfl
        have previous := value_strictMono (Nat.lt_succ_self i)
        rw [abs_of_pos (by linarith)] at nearest ⊢
        cases abs_cases (value i - x) <;> linarith

end

end Fluxion.Binary64
