import Fluxion.Proofs.Binary64.Neighbours

/-! # Halfway to the neighbours

A double is nearest to the numbers between two halves: the one halfway to the double before it, and
the one halfway to the next. A half itself belongs to the even one of the two neighbours. So
infinity starts halfway behind the last finite double, and what is no more than half of the least
positive double is zero.
-/

namespace Fluxion.Binary64

section

variable {a b x : ℚ} (h : a < b)

include h

theorem upper_nearer_iff : |b - x| < |a - x| ↔ a + b < 2 * x := by
  constructor
  · intro nearer
    cases abs_cases (b - x) <;> cases abs_cases (a - x) <;> linarith
  · intro above
    cases abs_cases (b - x) <;> cases abs_cases (a - x) <;> linarith

theorem lower_nearer_iff : |a - x| < |b - x| ↔ 2 * x < a + b := by
  constructor
  · intro nearer
    cases abs_cases (b - x) <;> cases abs_cases (a - x) <;> linarith
  · intro below
    cases abs_cases (b - x) <;> cases abs_cases (a - x) <;> linarith

theorem upper_as_near_iff : |b - x| = |a - x| ↔ a + b = 2 * x := by
  rw [eq_iff_le_not_lt, eq_iff_le_not_lt, ← not_lt, upper_nearer_iff h, lower_nearer_iff h, not_lt]

theorem lower_as_near_iff : |a - x| = |b - x| ↔ 2 * x = a + b := by
  rw [eq_comm, upper_as_near_iff h, eq_comm]

end

variable {index : Nat} {x : ℚ}

/-- From halfway behind the double before it, a number is no nearer to a smaller double. -/
theorem nearer_than_less (above : ∀ i, i + 1 = index → value i + value index < 2 * x ∨
    (value i + value index = 2 * x ∧ index % 2 = 0)) {other : Nat} (less : other < index) :
    |value index - x| < |value other - x| ∨
      (|value index - x| = |value other - x| ∧ index % 2 = 0) := by
  obtain ⟨i, rfl⟩ : ∃ i, index = i + 1 := ⟨index - 1, by omega⟩
  rw [upper_nearer_iff (value_strictMono less), upper_as_near_iff (value_strictMono less)]
  cases (Nat.le_of_lt_succ less).lt_or_eq with
  | inr same =>
      rw [same]
      exact above i rfl
  | inl further =>
      have before := value_strictMono further
      left
      cases above i rfl with
      | inl beyond => linarith
      | inr half => linarith [half.1]

theorem nearer_than_more (below : 2 * x < value index + value (index + 1) ∨
    (2 * x = value index + value (index + 1) ∧ index % 2 = 0))
    {other : Nat} (more : index < other) :
    |value index - x| < |value other - x| ∨
      (|value index - x| = |value other - x| ∧ index % 2 = 0) := by
  rw [lower_nearer_iff (value_strictMono more), lower_as_near_iff (value_strictMono more)]
  cases (Nat.succ_le_of_lt more).lt_or_eq with
  | inr same =>
      rw [← same]
      exact below
  | inl further =>
      have behind := value_strictMono further
      left
      cases below with
      | inl short => linarith
      | inr half => linarith [half.1]

/-- The numbers that a double is nearest to. Infinity has no greater neighbour. -/
theorem isNearest_iff_between : IsNearest index x ↔
    index ≤ infinity ∧
      (∀ i, i + 1 = index → value i + value index < 2 * x ∨
        (value i + value index = 2 * x ∧ index % 2 = 0)) ∧
      (index < infinity →
        2 * x < value index + value (index + 1) ∨
          (2 * x = value index + value (index + 1) ∧ index % 2 = 0)) := by
  constructor
  · rintro ⟨bounded, nearest⟩
    refine ⟨bounded, ?_, fun finite => ?_⟩
    · rintro i rfl
      have step := value_strictMono (Nat.lt_succ_self i)
      rw [← upper_nearer_iff step, ← upper_as_near_iff step]
      exact nearest i (by omega) (by omega)
    · have step := value_strictMono (Nat.lt_succ_self index)
      rw [← lower_nearer_iff step, ← lower_as_near_iff step]
      exact nearest (index + 1) finite (by omega)
  · rintro ⟨bounded, above, below⟩
    refine ⟨bounded, fun other finite different => ?_⟩
    cases Nat.lt_or_gt_of_ne different with
    | inl less => exact nearer_than_less above less
    | inr more => exact nearer_than_more (below (more.trans_le finite)) more

theorem isNearest_of_halfway (finite : index < infinity) (even : index % 2 = 0)
    (half : 2 * x = value index + value (index + 1)) : IsNearest index x := by
  refine isNearest_iff_between.2 ⟨finite.le, ?_, fun _ => .inr ⟨half, even⟩⟩
  rintro i rfl
  have before := value_strictMono (Nat.lt_succ_self i)
  have behind := value_strictMono (Nat.lt_succ_self (i + 1))
  left
  linarith

theorem value_least : value 1 = 1 / 2 ^ 1074 := by
  have least := @value_shift 0 1 (.inl rfl) (by decide)
  rwa [Nat.cast_zero, zero_sub, Nat.cast_one, one_mul, zpow_neg, zpow_ofNat,
    inv_eq_one_div] at least

theorem value_large {r : Nat} (normal : 2 ^ 52 ≤ r) (small : r ≤ 2 ^ 53) :
    value (2045 * 2 ^ 52 + r) = r * 2 ^ 971 := by
  rw [value_shift (.inr normal) small, show ((2045 : Nat) : Int) - 1074 = 971 from rfl, zpow_ofNat]

theorem value_infinity : value infinity = 2 ^ 53 * 2 ^ 971 := by
  have next : infinity = 2045 * 2 ^ 52 + 2 ^ 53 := by decide
  rw [next, value_large (by decide) (by decide), Nat.cast_pow, Nat.cast_ofNat]

theorem value_last : value (infinity - 1) = (2 ^ 53 - 1) * 2 ^ 971 := by
  have last : infinity - 1 = 2045 * 2 ^ 52 + (2 ^ 53 - 1) := by decide
  rw [last, value_large (by decide) (by decide)]
  norm_num

/-- Infinity starts halfway between the last finite double and the power of two behind it. -/
theorem isNearest_infinity_iff : IsNearest infinity x ↔ 2 ^ 1024 - 2 ^ 970 ≤ x := by
  have half : value (infinity - 1) + value infinity = 2 * (2 ^ 1024 - 2 ^ 970) := by
    rw [value_last, value_infinity, show 1024 = 54 + 970 from rfl, show 971 = 1 + 970 from rfl,
      pow_add, pow_add]
    generalize (2 : ℚ) ^ 970 = step
    ring
  generalize (2 : ℚ) ^ 1024 - 2 ^ 970 = bound at half ⊢
  rw [isNearest_iff_between]
  constructor
  · rintro ⟨-, above, -⟩
    have start := above (infinity - 1) (by decide)
    rw [half] at start
    cases start with
    | inl beyond => linarith
    | inr exactly => linarith [exactly.1]
  · intro large
    refine ⟨Nat.le_refl _, fun i hi => ?_, fun finite => absurd finite (Nat.lt_irrefl _)⟩
    obtain rfl : i = infinity - 1 := by omega
    have twice : 2 * bound ≤ 2 * x := by linarith
    rw [half]
    exact twice.lt_or_eq.imp_right fun exactly => ⟨exactly, by decide⟩

theorem isNearest_zero_iff : IsNearest 0 x ↔ x ≤ 1 / 2 ^ 1075 := by
  have half : value 0 + value (0 + 1) = 2 * (1 / 2 ^ 1075) := by
    rw [value_zero, value_least, show 1075 = 1074 + 1 from rfl, pow_succ (2 : ℚ) 1074]
    generalize (2 : ℚ) ^ 1074 = scale
    ring
  generalize (1 : ℚ) / 2 ^ 1075 = bound at half ⊢
  rw [isNearest_iff_between]
  constructor
  · rintro ⟨-, -, below⟩
    have stop := below (by decide)
    rw [half] at stop
    cases stop with
    | inl short => linarith
    | inr exactly => linarith [exactly.1]
  · intro small
    refine ⟨Nat.zero_le _, fun i hi => absurd hi (Nat.succ_ne_zero i), fun _ => ?_⟩
    have twice : 2 * x ≤ 2 * bound := by linarith
    rw [half]
    exact twice.lt_or_eq.imp_right fun exactly => ⟨exactly, rfl⟩

end Fluxion.Binary64
