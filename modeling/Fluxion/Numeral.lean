import Fluxion.Decimal

/-! # Numerals

A numeral is an optional sign and a magnitude: digits with at most one point and at least one digit,
then perhaps a power of ten, or one of the words `inf`, `infinity` and `nan` in any case. It is read
as the nearest double.
-/

namespace Fluxion

namespace Decimal

/-- The index of the double nearest to a decimal times a power of ten. Where the power alone
    decides, it is not computed. -/
def nearestScaled (d : Decimal) (exponent : Int) : Nat :=
  let scale := exponent - d.places
  let size := (Nat.toDigits 10 d.coefficient).length
  if d.coefficient = 0 then 0
  else if 400 < scale then Binary64.infinity
  else if size + scale < -400 then 0
  else Binary64.nearest (d.coefficient * Nat.pow 10 scale.toNat) (Nat.pow 10 (-scale).toNat)

end Decimal

namespace Numeral

/-- Splits a sign off the front. The answer says whether it was a minus. -/
def splitSign : List Char → Bool × List Char
  | '+' :: rest => (false, rest)
  | '-' :: rest => (true, rest)
  | text => (false, text)

/-- Reads the power of ten at the end of a numeral. Without one the exponent is zero. -/
def exponent? : List Char → Option Int
  | [] => some 0
  | mark :: rest =>
      let (negative, digits) := splitSign rest
      if (mark = 'e' ∨ mark = 'E') ∧ digits ≠ [] ∧ digits.all Char.isDigit then
        let size : Int := Nat.ofDigitChars 10 digits 0
        some (if negative then -size else size)
      else
        none

/-- Reads digits with at most one point, and a power of ten. -/
def magnitude? (text : List Char) : Option Nat :=
  let whole := text.takeWhile Char.isDigit
  let afterWhole := text.dropWhile Char.isDigit
  let (fraction, rest) :=
    match afterWhole with
    | '.' :: afterPoint => (afterPoint.takeWhile Char.isDigit, afterPoint.dropWhile Char.isDigit)
    | _ => ([], afterWhole)
  if whole = [] ∧ fraction = [] then none
  else (exponent? rest).map (Decimal.ofDigits whole fraction).nearestScaled

/-- Reads a whole numeral. -/
def read? (text : List Char) : Option Binary64 :=
  let (negative, body) := splitSign text
  let word := String.ofList (body.map Char.toLower)
  if word = "inf" ∨ word = "infinity" then some (.number negative Binary64.infinity)
  else if word = "nan" then some .nan
  else (magnitude? body).map (.number negative)

end Numeral

end Fluxion
