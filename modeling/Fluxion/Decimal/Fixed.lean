import Fluxion.Decimal

/-! # Decimals with a fixed number of places

The decimal with so many places that is nearest to the exact value of a double, a half going to the
even neighbour. It is written with all its places, and then the zeros at the end are dropped, and a
point that is left without a digit behind it.
-/

namespace Fluxion.Decimal

/-- The value of the double at an index, rounded to `places` decimal places. -/
def fixed (places index : Nat) : Decimal :=
  ⟨roundDiv (Binary64.units index * Nat.pow 10 places) Binary64.one, places⟩

/-- The digits of `rest / 10 ^ places` after the point, all of them. -/
def placedDigits : Nat → Nat → List Char
  | 0, _ => []
  | places + 1, rest =>
      (rest / Nat.pow 10 places).digitChar :: placedDigits places (rest % Nat.pow 10 places)

/-- The text with all places. Without places there is no point. -/
def fullText (d : Decimal) : List Char :=
  let whole := Nat.toDigits 10 (d.coefficient / Nat.pow 10 d.places)
  let rest := d.coefficient % Nat.pow 10 d.places
  if d.places = 0 then whole else whole ++ '.' :: placedDigits d.places rest

/-- The text without the copies of a character at its end. -/
def trimEnd (c : Char) (text : List Char) : List Char :=
  (text.reverse.dropWhile (· == c)).reverse

/-- Cuts a text with a point before the zeros at its end, and before the point if nothing else is
    behind it. A text without a point stays. -/
def trimPlaces (text : List Char) : List Char :=
  if text.contains '.' then text.take (trimEnd '.' (trimEnd '0' text)).length else text

end Fluxion.Decimal
