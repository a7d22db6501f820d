import Fluxion.Binary64.Printer
import Fluxion.Decimal.Fixed
import Fluxion.Expr

/-! # The text of an expression

Every operator stands in brackets with its two operands, and a function before its argument in
brackets. A constant is written with at most six decimal places.
-/

namespace Fluxion

/-- How many decimal places of a constant are written. -/
def constantPlaces : Nat := 6

/-- A constant with all its places, trimmed. -/
def constantText (c : Float) : List Char :=
  Decimal.trimPlaces
    ((Binary64.ofFloat c).write fun index => (Decimal.fixed constantPlaces index).fullText)

namespace Expr

/-- Puts brackets around the text of a function's argument, unless the text brings its own. -/
def inBrackets (arg : Expr) (text : List Char) : List Char :=
  match arg with
  | .binary .. => text
  | _ => '(' :: (text ++ [')'])

def chars : Expr → List Char
  | .var name => name.toList
  | .const c => constantText c
  | .binary op l r => '(' :: (l.chars ++ op.symbol :: (r.chars ++ [')']))
  | .apply fn a => fn.name ++ inBrackets a a.chars

def text (e : Expr) : String := String.ofList e.chars

end Expr

end Fluxion
