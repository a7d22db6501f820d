import Fluxion.Proofs.Binary64.Bits
import Fluxion.Proofs.Decimal.Accuracy
import Fluxion.Proofs.Expr.Settling

/-! # What the text of a constant keeps

What the trimming leaves of a finite constant without a sign stands for the decimal of six places
that is nearest to it. Read back, the constant is off by less than a unit of the last place, and it
is the same one if and only if it is the nearest double of some number with six places. So every
number that was written with six places or fewer stays. A constant with a sign has a minus and then
the text of the opposite constant.
-/

namespace Fluxion

theorem cast_pow_constantPlaces : ((Nat.pow 10 constantPlaces : Nat) : ℚ) = 10 ^ 6 := by
  norm_num [constantPlaces]

theorem Decimal.value_eq_of_places_le {d : Decimal} {places : Nat} (h : d.places ≤ places) :
    d.value = (d.coefficient * Nat.pow 10 (places - d.places) : Nat) /
      (Nat.pow 10 places : Nat) := by
  have split : Nat.pow 10 places = Nat.pow 10 d.places * Nat.pow 10 (places - d.places) := by
    simp only [Nat.pow_eq]
    rw [← Nat.pow_add, Nat.add_sub_cancel' h]
  have scale : ((Nat.pow 10 (places - d.places) : Nat) : ℚ) ≠ 0 :=
    Nat.cast_ne_zero.2 (Nat.pow_pos (by decide) : 0 < Nat.pow 10 (places - d.places)).ne'
  rw [split, Nat.cast_mul, Nat.cast_mul, mul_div_mul_right _ _ scale, Decimal.value]

section

variable {c : Float} {index : Nat} (number : Binary64.ofFloat c = .number false index)
  (finite : index < Binary64.infinity)

include number finite

theorem constantText_denotes :
    ∃ n, IsRounding n (Binary64.value index * 10 ^ 6) ∧
      Decimal.Denotes (constantText c) (n / 10 ^ 6) := by
  have rounded := (Decimal.isRounding_fixed_iff constantPlaces index _).1 rfl
  have denotes := Decimal.text_denotes (Decimal.fixed constantPlaces index)
  rw [Decimal.value_fixed, cast_pow_constantPlaces] at denotes
  rw [cast_pow_constantPlaces] at rounded
  rw [constantText_finite number finite]
  exact ⟨_, rounded, denotes⟩

theorem constantText_close :
    ∃ read, Binary64.ofFloat (Decimal.ofLiteral (constantText c)).toFloat = .number false read ∧
      read < Binary64.infinity ∧ |Binary64.value read - Binary64.value index| < 1 / 10 ^ 6 := by
  have close := Decimal.abs_value_nearest_fixed_sub_lt (show constantPlaces ≠ 0 by decide) finite
  rw [cast_pow_constantPlaces] at close
  rw [toFloat_constantText number finite]
  exact ⟨_, Decimal.ofFloat_toFloat _, Decimal.nearest_fixed_lt constantPlaces finite, close⟩

theorem toFloat_constantText_eq_iff :
    (Decimal.ofLiteral (constantText c)).toFloat = c ↔
      ∃ n : Nat, Binary64.IsNearest index (n / 10 ^ 6) := by
  rw [toFloat_constantText number finite, ← cast_pow_constantPlaces,
    ← Decimal.nearest_fixed_eq_iff finite]
  constructor
  · intro same
    have fields := Decimal.ofFloat_toFloat (Decimal.fixed constantPlaces index)
    rw [same, number] at fields
    exact (Binary64.number.inj fields).2.symm
  · intro same
    rw [Decimal.toFloat, same, Binary64.toFloat_ofFloat number]

theorem toFloat_constantText_of_places_le {d : Decimal} (short : d.places ≤ constantPlaces)
    (h : d.toFloat = c) :
    (Decimal.ofLiteral (constantText c)).toFloat = c := by
  rw [toFloat_constantText_eq_iff number finite]
  have fields := Decimal.ofFloat_toFloat d
  rw [h, number] at fields
  have nearest := (Decimal.nearest_eq_iff d).1 (Binary64.number.inj fields).2.symm
  rw [Decimal.value_eq_of_places_le short, cast_pow_constantPlaces] at nearest
  exact ⟨_, nearest⟩

end

theorem constantText_negative {c : Float} {index : Nat}
    (number : Binary64.ofFloat c = .number true index) :
    constantText c = '-' :: constantText (-c) := by
  rw [constantText_eq, constantText_eq, Binary64.ofFloat_neg number, number]
  rfl

/-- The text of a constant is the one that is left of all its places. It stands for the nearest
    decimal with six of them, it is off by less than a unit of the last one when it is read,
    and a constant comes back as it was if and only if it is the nearest double of a number
    with six places. -/
theorem constantText_keeps (c : Float) :
    constantText c = (Binary64.ofFloat c).text (Decimal.fixed constantPlaces) ∧
    ∀ negative index, Binary64.ofFloat c = .number negative index → index < Binary64.infinity →
    (negative = false →
      (∃ n, IsRounding n (Binary64.value index * 10 ^ 6) ∧
        Decimal.Denotes (constantText c) (n / 10 ^ 6)) ∧
      (∃ read, Binary64.ofFloat (Decimal.ofLiteral (constantText c)).toFloat = .number false read ∧
        read < Binary64.infinity ∧
        |Binary64.value read - Binary64.value index| < 1 / 10 ^ 6) ∧
      ((Decimal.ofLiteral (constantText c)).toFloat = c ↔
        ∃ n : Nat, Binary64.IsNearest index (n / 10 ^ 6)) ∧
      ∀ literal, (Decimal.ofLiteral literal).places ≤ 6 → (Decimal.ofLiteral literal).toFloat = c →
        (Decimal.ofLiteral (constantText c)).toFloat = c) ∧
    (negative = true → constantText c = '-' :: constantText (-c)) := by
  refine ⟨constantText_eq c, fun negative index number finite => ⟨?_, ?_⟩⟩
  · rintro rfl
    exact ⟨constantText_denotes number finite, constantText_close number finite,
      toFloat_constantText_eq_iff number finite,
      fun _ short h => toFloat_constantText_of_places_le number finite short h⟩
  · rintro rfl
    exact constantText_negative number

/-- A third loses its places after the sixth, so it is no double that is nearest to a number with
    six places. A quarter comes back, and minus a third has the text of a third behind its sign. -/
theorem constantText_keeps_third :
    constantText (1 / 3) = "0.333333".toList ∧
      (Decimal.ofLiteral (constantText (1 / 3))).toFloat ≠ 1 / 3 ∧
      (¬ ∃ n : Nat, Binary64.IsNearest 0x3fd5555555555555 (n / 10 ^ 6)) ∧
      (Decimal.ofLiteral (constantText (1 / 4))).toFloat = 1 / 4 ∧
      constantText (-(1 / 3)) = "-0.333333".toList := by
  have third : Binary64.ofFloat (1 / 3) = .number false 0x3fd5555555555555 := by decide
  have quarter : Binary64.ofFloat (1 / 4) = .number false 0x3fd0000000000000 := by decide
  have minusThird : Binary64.ofFloat (-(1 / 3)) = .number true 0x3fd5555555555555 := by decide
  have opposite : (- -(1 / 3) : Float) = 1 / 3 := by decide
  have text : constantText (1 / 3) = "0.333333".toList := by
    rw [(constantText_keeps (1 / 3)).1, third]
    decide +kernel
  have other : (Decimal.ofLiteral (constantText (1 / 3))).toFloat ≠ 1 / 3 := by
    rw [text]
    decide +kernel
  have kept := ((constantText_keeps (1 / 3)).2 _ _ third (by decide)).1 rfl
  have quarterKept := ((constantText_keeps (1 / 4)).2 _ _ quarter (by decide)).1 rfl
  have negative := ((constantText_keeps (-(1 / 3))).2 _ _ minusThird (by decide)).2 rfl
  rw [opposite, text] at negative
  exact ⟨text, other, mt kept.2.2.1.2 other,
    quarterKept.2.2.2 "0.25".toList (by decide) (by decide +kernel), negative⟩

end Fluxion
