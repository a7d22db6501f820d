import Fluxion.Binary64

/-! # Decimals

A decimal is a natural number of tenths, hundredths and so on. Its text has at least one digit
before the point, no zero at the end of a fraction, and no point without a fraction.
-/

namespace Fluxion

/-- The number `coefficient / 10 ^ places`. -/
structure Decimal where
  coefficient : Nat
  places : Nat
  deriving Repr, DecidableEq

namespace Decimal

/-- The index of the double nearest to a decimal. -/
def nearest (d : Decimal) : Nat :=
  Binary64.nearest d.coefficient (Nat.pow 10 d.places)

/-- The double nearest to a decimal. -/
def toFloat (d : Decimal) : Float :=
  (Binary64.number false d.nearest).toFloat

/-- The digits of `rest / 10 ^ places` after the point, up to the last one that is not zero. -/
def fractionDigits : Nat → Nat → List Char
  | 0, _ => []
  | places + 1, rest =>
      if rest = 0 then
        []
      else
        (rest / Nat.pow 10 places).digitChar :: fractionDigits places (rest % Nat.pow 10 places)

def text (d : Decimal) : List Char :=
  let whole := Nat.toDigits 10 (d.coefficient / Nat.pow 10 d.places)
  let rest := d.coefficient % Nat.pow 10 d.places
  if rest = 0 then whole else whole ++ '.' :: fractionDigits d.places rest

/-- The decimal with the given digits before and after the point. No digit counts as zero. -/
def ofDigits (whole fraction : List Char) : Decimal :=
  ⟨Nat.ofDigitChars 10 (whole ++ fraction) 0, fraction.length⟩

/-- Whether a text has digits and points only. The empty text has. -/
def isLiteral (text : List Char) : Bool :=
  text.all fun c => c.isDigit || c == '.'

/-- Reads a text of digits and points up to its second point. -/
def ofLiteral (text : List Char) : Decimal :=
  let whole := text.takeWhile (· != '.')
  let afterPoint := (text.dropWhile (· != '.')).drop 1
  ofDigits whole (afterPoint.takeWhile (· != '.'))

end Decimal

end Fluxion
