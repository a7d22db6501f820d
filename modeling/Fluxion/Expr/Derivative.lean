import Fluxion.Expr

/-! # Derivatives

The derivative with respect to the variable, rule by rule and without simplification. The rules are
those of analysis with one exception: the derivative of `cos a` is minus `cos a` times the
derivative of `a`.
-/

namespace Fluxion.Expr

/-- The derivative of `ln a`, where `a'` is the derivative of `a`. -/
def lnDerivative (a a' : Expr) : Expr := .mul (.div (.const 1) a) a'

def derivative : Expr → Expr
  | .var _ => .const 1
  | .const _ => .const 0
  | .add l r => .add l.derivative r.derivative
  | .sub l r => .sub l.derivative r.derivative
  | .mul l r => .add (.mul l.derivative r) (.mul l r.derivative)
  | .div l r => .div (.sub (.mul l.derivative r) (.mul l r.derivative)) (.mul r r)
  | .pow l r =>
      .mul (.pow l r) (.add (.mul r.derivative (.ln l)) (.mul r (lnDerivative l l.derivative)))
  | .ln a => lnDerivative a a.derivative
  | .sin a => .mul (.cos a) a.derivative
  | .cos a => .mul (.const (-1)) (.mul (.cos a) a.derivative)

/-- The derivative of order `n`. Order zero is the expression itself. -/
def nthDerivative : Nat → Expr → Expr
  | 0, e => e
  | n + 1, e => nthDerivative n e.derivative

/-- The derivatives of the orders from zero to `n`. -/
def derivatives : Nat → Expr → List Expr
  | 0, e => [e]
  | n + 1, e => e :: derivatives n e.derivative

theorem length_derivatives (n : Nat) (e : Expr) : (derivatives n e).length = n + 1 := by
  induction n generalizing e with
  | zero => rfl
  | succ n ih => simp only [derivatives, List.length_cons, ih]

theorem getElem?_derivatives {n k : Nat} (h : k ≤ n) (e : Expr) :
    (derivatives n e)[k]? = some (nthDerivative k e) := by
  induction n generalizing e k with
  | zero =>
      obtain rfl : k = 0 := by omega
      rfl
  | succ n ih =>
      cases k with
      | zero => rfl
      | succ k =>
          simp only [derivatives, nthDerivative, List.getElem?_cons_succ]
          exact ih (by omega) e.derivative

end Fluxion.Expr
