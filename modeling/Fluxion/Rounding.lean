/-! # Rounding a quotient

The natural number nearest to a quotient, an exact half going to the even neighbour.
-/

namespace Fluxion

/-- The natural number nearest to `num / den`. Of two equally near ones it is the even one. -/
def roundDiv (num den : Nat) : Nat :=
  let floor := num / den
  let twice := 2 * (num % den)
  if twice < den ∨ (twice = den ∧ floor % 2 = 0) then floor else floor + 1

theorem roundDiv_mul (q : Nat) {den : Nat} (hden : 0 < den) : roundDiv (q * den) den = q := by
  simp [roundDiv, Nat.mul_div_cancel q hden, hden]

end Fluxion
