import Fluxion.Decimal

/-! # The text of a double

A sign and a magnitude. How a finite magnitude is written is left open, so the same printer serves a
fixed number of places and the fewest digits.
-/

namespace Fluxion.Binary64

/-- Writes a double: the sign, also of zero, and then `inf` or what a finite magnitude
    is written as. -/
def write (finite : Nat → List Char) : Binary64 → List Char
  | .nan => ['N', 'a', 'N']
  | .number negative index =>
      let sign := if negative then ['-'] else []
      sign ++ if index = infinity then ['i', 'n', 'f'] else finite index

/-- Writes a double with its magnitude as a decimal without zeros at its end. -/
def text (magnitude : Nat → Decimal) : Binary64 → List Char :=
  write fun index => (magnitude index).text

theorem text_number (magnitude : Nat → Decimal) (negative : Bool) (index : Nat) :
    text magnitude (.number negative index) =
      (if negative then ['-'] else []) ++
        if index = infinity then ['i', 'n', 'f'] else (magnitude index).text := rfl

end Fluxion.Binary64
