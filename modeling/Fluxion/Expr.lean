import Fluxion.Op

/-! # Expressions in one variable

An expression is a variable, a constant, an operator between two expressions, or a function of
one. Every variable stands for the same unknown, whatever its name. Equality follows the
structure and compares constants as doubles, so it identifies the two zeros and a constant NaN
differs from itself.
-/

namespace Fluxion

inductive Expr where
  | var (name : String)
  | const (value : Float)
  | binary (op : Op) (left right : Expr)
  | apply (fn : Func) (arg : Expr)
  deriving Repr

namespace Expr

@[match_pattern] abbrev add (left right : Expr) : Expr := .binary .add left right

@[match_pattern] abbrev sub (left right : Expr) : Expr := .binary .sub left right

@[match_pattern] abbrev mul (left right : Expr) : Expr := .binary .mul left right

@[match_pattern] abbrev div (left right : Expr) : Expr := .binary .div left right

@[match_pattern] abbrev pow (left right : Expr) : Expr := .binary .pow left right

@[match_pattern] abbrev ln (arg : Expr) : Expr := .apply .ln arg

@[match_pattern] abbrev sin (arg : Expr) : Expr := .apply .sin arg

@[match_pattern] abbrev cos (arg : Expr) : Expr := .apply .cos arg

/-- Equality of structure, names and constants, the constants as doubles. -/
protected def beq : Expr → Expr → Bool
  | .var n, .var m => n == m
  | .const a, .const b => a == b
  | .binary o l r, .binary p l' r' => o == p && l.beq l' && r.beq r'
  | .apply f a, .apply g b => f == g && a.beq b
  | _, _ => false

instance : BEq Expr := ⟨Expr.beq⟩

def children : Expr → List Expr
  | .var _ | .const _ => []
  | .binary _ l r => [l, r]
  | .apply _ a => [a]

def arity (e : Expr) : Nat := e.children.length

/-- The value where the variable is `x`. -/
def eval (x : Float) : Expr → Float
  | .var _ => x
  | .const c => c
  | .binary op l r => op.apply (l.eval x) (r.eval x)
  | .apply fn a => fn.apply (a.eval x)

end Expr

end Fluxion
