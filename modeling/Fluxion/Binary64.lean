import Fluxion.Rounding

/-! # Doubles as an increasing list

A double that is not NaN is a sign and an index: its bits below the sign bit, read as a number.
In that order the values increase, starting with zero at index zero, and the last index is
infinity. A value is counted in units of the least positive double, so all arithmetic here is on
natural numbers.
-/

namespace Fluxion

/-- A double as its sign and its place in the list of values that are not negative. -/
inductive Binary64 where
  | nan
  | number (negative : Bool) (index : Nat)
  deriving Repr, DecidableEq

namespace Binary64

/-- The index of infinity. Every smaller index is a finite double. -/
def infinity : Nat := 2047 * Nat.pow 2 52

/-- How many units make one. -/
def one : Nat := Nat.pow 2 1074

/-- The value of the double at an index, in units. At the index of infinity this is the value that
    the next double would have. -/
def units (index : Nat) : Nat :=
  let exponent := index / Nat.pow 2 52
  let fraction := index % Nat.pow 2 52
  if exponent = 0 then fraction else (Nat.pow 2 52 + fraction) * Nat.pow 2 (exponent - 1)

/-- The index of the double nearest to `num / den`. An exact half goes to the even index, and what
    is nearer to the value after the last finite double is infinity. -/
def nearest (num den : Nat) : Nat :=
  let scaled := num * one
  let shift := (scaled / den).log2 - 52
  min infinity (shift * Nat.pow 2 52 + roundDiv scaled (den * Nat.pow 2 shift))

theorem nearest_le_infinity (num den : Nat) : nearest num den ≤ infinity :=
  Nat.min_le_left _ _

def ofFloat (x : Float) : Binary64 :=
  let bits := x.toBits.toNat
  let index := bits % Nat.pow 2 63
  if infinity < index then .nan else .number (Nat.pow 2 63 ≤ bits) index

def toFloat : Binary64 → Float
  | .nan => Float.ofBits 0x7ff8000000000000
  | .number negative index =>
      Float.ofBits (UInt64.ofNat ((if negative then Nat.pow 2 63 else 0) + index))

end Binary64

end Fluxion
