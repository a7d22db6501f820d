import Fluxion.Decimal
import Fluxion.Expr
import Fluxion.Shape
import Fluxion.Text.Blank

/-! # Reading an expression

A text is read without its blanks and without the brackets around it. What is left decides by its
shape: a leaf is read at once, and the parts of a call or of a chain are read in the same way and
put together. The reading stops because these parts are shorter.
-/

namespace Fluxion

/-- The one cause of failure: the text is no expression. -/
inductive ParseError where
  | malformed
  deriving Repr, DecidableEq

def ParseError.message : ParseError → String
  | .malformed => "failed to parse"

namespace Expr

/-- A text of digits and points is a number, also if it is empty, and any other text names
    the variable. -/
def ofLeaf (text : List Char) : Expr :=
  if Decimal.isLiteral text then
    .const (Decimal.ofLiteral text).toFloat
  else
    .var (String.ofList text)

/-- Reads a text without blanks. -/
def ofChars? (text : List Char) : Option Expr :=
  match _h : Shape.ofText (unwrapAll text) with
  | .leaf leaf => some (ofLeaf leaf)
  | .call fn inner => (ofChars? inner).map (.apply fn)
  | .chain operands =>
      (operands.attach.mapM? fun operand => ofChars? operand.1).map (Chain.join .binary)
  | .malformed => none
termination_by text.length
decreasing_by
  · refine Nat.lt_of_lt_of_le (Shape.length_lt_of_mem_parts ?_) (length_unwrapAll_le text)
    rw [_h]
    exact List.mem_singleton_self inner
  · refine Nat.lt_of_lt_of_le (Shape.length_lt_of_mem_parts ?_) (length_unwrapAll_le text)
    rw [_h]
    exact operand.2

theorem ofChars?_eq (text : List Char) :
    ofChars? text =
      match Shape.ofText (unwrapAll text) with
      | .leaf leaf => some (ofLeaf leaf)
      | .call fn inner => (ofChars? inner).map (.apply fn)
      | .chain operands => (operands.mapM? ofChars?).map (Chain.join .binary)
      | .malformed => none := by
  rw [ofChars?]
  split <;> simp_all [Chain.mapM?_attach]

/-- Reads an expression. Blanks mean nothing, wherever they stand. -/
def parse (text : String) : Except ParseError Expr :=
  match ofChars? (removeBlanks text.toList) with
  | some e => .ok e
  | none => .error .malformed

end Expr

end Fluxion
