import Fluxion.Binary64
import Fluxion.Expr.Derivative
import Fluxion.Proofs.Binary64.Nearest
import Mathlib.Analysis.SpecialFunctions.Pow.Real
import Mathlib.Analysis.SpecialFunctions.Trigonometric.Basic

/-! # Expressions as real functions

Evaluation once more, with the operators and functions of analysis in place of those on doubles. An
expression is regular at a point when no operator and no function in it leaves its domain there, and
differentiation keeps regular expressions regular.
-/

namespace Fluxion

namespace Binary64

noncomputable section

/-- The exact value of a finite double. -/
def real : Binary64 → ℝ
  | .nan => 0
  | .number negative index => (if negative then -1 else 1) * (units index / one)

def IsFinite : Binary64 → Prop
  | .nan => False
  | .number _ index => index < infinity

theorem real_zero : (ofFloat 0).real = 0 := by
  have value : ofFloat 0 = .number false 0 := by decide
  have none : units 0 = 0 := rfl
  rw [value, real, none, Nat.cast_zero, zero_div, mul_zero]

theorem real_one : (ofFloat 1).real = 1 := by
  have value : ofFloat 1 = .number false (1023 * 2 ^ 52) := by decide
  have positive : (one : ℝ) ≠ 0 := Nat.cast_ne_zero.2 one_pos.ne'
  rw [value, real, units_one, div_self positive, mul_one, if_neg Bool.false_ne_true]

theorem isFinite_zero : (ofFloat 0).IsFinite := by
  have value : ofFloat 0 = .number false 0 := by decide
  rw [value, IsFinite]
  decide

theorem isFinite_one : (ofFloat 1).IsFinite := by
  have value : ofFloat 1 = .number false (1023 * 2 ^ 52) := by decide
  rw [value, IsFinite]
  decide

theorem isFinite_minusOne : (ofFloat (-1)).IsFinite := by
  have value : ofFloat (-1) = .number true (1023 * 2 ^ 52) := by decide
  rw [value, IsFinite]
  decide

end

end Binary64

noncomputable section

def Op.real : Op → ℝ → ℝ → ℝ
  | .add, x, y => x + y
  | .sub, x, y => x - y
  | .mul, x, y => x * y
  | .div, x, y => x / y
  | .pow, x, y => x ^ y

/-- Whether the operator is smooth at two numbers. -/
def Op.RegularAt : Op → ℝ → ℝ → Prop
  | .add, _, _ | .sub, _, _ | .mul, _, _ => True
  | .div, _, y => y ≠ 0
  | .pow, x, _ => 0 < x

def Func.real : Func → ℝ → ℝ
  | .ln, x => Real.log x
  | .sin, x => Real.sin x
  | .cos, x => Real.cos x

/-- Whether the function is smooth at a number. -/
def Func.RegularAt : Func → ℝ → Prop
  | .ln, x => 0 < x
  | .sin, _ | .cos, _ => True

namespace Expr

/-- The real function of the one variable. -/
def real : Expr → ℝ → ℝ
  | .var _, x => x
  | .const c, _ => (Binary64.ofFloat c).real
  | .binary op l r, x => op.real (l.real x) (r.real x)
  | .apply fn a, x => fn.real (a.real x)

/-- At the point no denominator is zero, and every base and every argument of a
    logarithm is positive. -/
def RegularAt (x : ℝ) : Expr → Prop
  | .var _ | .const _ => True
  | .binary op l r => op.RegularAt (l.real x) (r.real x) ∧ l.RegularAt x ∧ r.RegularAt x
  | .apply fn a => fn.RegularAt (a.real x) ∧ a.RegularAt x

def FiniteConstants : Expr → Prop
  | .var _ => True
  | .const c => (Binary64.ofFloat c).IsFinite
  | .binary _ l r => l.FiniteConstants ∧ r.FiniteConstants
  | .apply _ a => a.FiniteConstants

/-- The function is applied nowhere. -/
def Avoids (fn : Func) : Expr → Prop
  | .var _ | .const _ => True
  | .binary _ l r => l.Avoids fn ∧ r.Avoids fn
  | .apply f a => f ≠ fn ∧ a.Avoids fn

theorem FiniteConstants.derivative {e : Expr} (h : e.FiniteConstants) :
    e.derivative.FiniteConstants := by
  induction e with
  | var _ => exact Binary64.isFinite_one
  | const _ => exact Binary64.isFinite_zero
  | binary op l r ihl ihr =>
      obtain ⟨left, right⟩ := h
      have left' := ihl left
      have right' := ihr right
      cases op with
      | add => exact ⟨left', right'⟩
      | sub => exact ⟨left', right'⟩
      | mul => exact ⟨⟨left', right⟩, left, right'⟩
      | div => exact ⟨⟨⟨left', right⟩, left, right'⟩, right, right⟩
      | pow =>
          exact ⟨⟨left, right⟩, ⟨right', left⟩, right, ⟨Binary64.isFinite_one, left⟩, left'⟩
  | apply fn a ih =>
      have arg' := ih h
      cases fn with
      | ln => exact ⟨⟨Binary64.isFinite_one, h⟩, arg'⟩
      | sin => exact ⟨h, arg'⟩
      | cos => exact ⟨Binary64.isFinite_minusOne, h, arg'⟩

/-- The new denominators are squares of old ones, bases and arguments of logarithms, and the
    logarithms that are new are those of bases. -/
theorem RegularAt.derivative {e : Expr} {x : ℝ} (h : e.RegularAt x) : e.derivative.RegularAt x := by
  induction e with
  | var _ => trivial
  | const _ => trivial
  | binary op l r ihl ihr =>
      obtain ⟨here, left, right⟩ := h
      have left' := ihl left
      have right' := ihr right
      cases op with
      | add => exact ⟨trivial, left', right'⟩
      | sub => exact ⟨trivial, left', right'⟩
      | mul => exact ⟨trivial, ⟨trivial, left', right⟩, trivial, left, right'⟩
      | div =>
          have denominator : r.real x * r.real x ≠ 0 := mul_ne_zero here here
          exact ⟨denominator, ⟨trivial, ⟨trivial, left', right⟩, trivial, left, right'⟩,
            trivial, right, right⟩
      | pow =>
          have base : 0 < l.real x := here
          have logarithm : (Expr.ln l).RegularAt x := ⟨base, left⟩
          have quotient : (lnDerivative l l.derivative).RegularAt x :=
            ⟨trivial, ⟨base.ne', trivial, left⟩, left'⟩
          exact ⟨trivial, ⟨base, left, right⟩, trivial, ⟨trivial, right', logarithm⟩,
            trivial, right, quotient⟩
  | apply fn a ih =>
      obtain ⟨here, arg⟩ := h
      have arg' := ih arg
      cases fn with
      | ln =>
          have positive : 0 < a.real x := here
          exact ⟨trivial, ⟨positive.ne', trivial, arg⟩, arg'⟩
      | sin => exact ⟨trivial, ⟨trivial, arg⟩, arg'⟩
      | cos => exact ⟨trivial, trivial, trivial, ⟨trivial, arg⟩, arg'⟩

theorem Avoids.derivative {e : Expr} (noSin : e.Avoids .sin) (noCos : e.Avoids .cos) {fn : Func}
    (other : .ln ≠ fn) (h : e.Avoids fn) : e.derivative.Avoids fn := by
  induction e with
  | var _ => trivial
  | const _ => trivial
  | binary op l r ihl ihr =>
      obtain ⟨left, right⟩ := h
      have left' := ihl noSin.1 noCos.1 left
      have right' := ihr noSin.2 noCos.2 right
      cases op with
      | add => exact ⟨left', right'⟩
      | sub => exact ⟨left', right'⟩
      | mul => exact ⟨⟨left', right⟩, left, right'⟩
      | div => exact ⟨⟨⟨left', right⟩, left, right'⟩, right, right⟩
      | pow =>
          exact ⟨⟨left, right⟩, ⟨right', other, left⟩, right, ⟨trivial, left⟩, left'⟩
  | apply f a ih =>
      have arg' := ih noSin.2 noCos.2 h.2
      cases f with
      | ln => exact ⟨⟨trivial, h.2⟩, arg'⟩
      | sin => exact absurd rfl noSin.1
      | cos => exact absurd rfl noCos.1

end Expr

end

end Fluxion
