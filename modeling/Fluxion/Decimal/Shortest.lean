import Fluxion.Decimal

/-! # The shortest decimal that reads back

A double is written with the fewest digits that read back as the same double. The search goes
through the powers of ten from large to small. On the multiples of one power only the two around the
exact value need a look, since every multiple between a hit and the value is a hit. Of two hits the
nearer wins, and of two equally near ones the larger.
-/

namespace Fluxion.Decimal

/-- The decimal `coefficient * 10 ^ exponent`. -/
def ofScaled (coefficient : Nat) (exponent : Int) : Decimal :=
  ⟨coefficient * Nat.pow 10 exponent.toNat, (-exponent).toNat⟩

/-- The multiple of `10 ^ exponent` next to the double at an index that reads back
    as that double. -/
def onGrid? (index : Nat) (exponent : Int) : Option Decimal :=
  let num := Binary64.units index * Nat.pow 10 (-exponent).toNat
  let den := Binary64.one * Nat.pow 10 exponent.toNat
  let below := ofScaled (num / den) exponent
  let above := ofScaled (num / den + 1) exponent
  if below.nearest = index ∧ (2 * (num % den) < den ∨ above.nearest ≠ index) then
    some below
  else if above.nearest = index then
    some above
  else
    none

/-- The exact value of the double at an index, in as many places as the unit has. -/
def exact (index : Nat) : Decimal :=
  ⟨Binary64.units index * Nat.pow 5 1074, 1074⟩

/-- The shortest decimal that reads back as the double at an index. No double reaches `10 ^ 309`,
    and every one is a multiple of `10 ^ (-1074)`. -/
def shortest (index : Nat) : Decimal :=
  let grids := (List.range (309 + 1074 + 1)).map fun i => (309 : Int) - Int.ofNat i
  (grids.findSome? (onGrid? index)).getD (exact index)

end Fluxion.Decimal
