import Fluxion.Expr.Derivative
import Fluxion.Proofs.Expr.Conservation
import Mathlib.Tactic.Ring

/-! # How derivatives grow

The rules copy operands, so a derivative has more nodes than the expression and is deeper. Its nodes
are at most twice the square of the nodes that were there, and its depth stays below four times the
depth that was there. The rule for powers copies the most: it needs the whole of the depth as soon
as base and exponent are leaves.
-/

namespace Fluxion.Expr

/-- The number of nodes on the longest way from the top to a leaf. -/
def depth : Expr → Nat
  | .binary _ l r => max l.depth r.depth + 1
  | .apply _ a => a.depth + 1
  | _ => 1

theorem depth_pos (e : Expr) : 0 < e.depth := by
  cases e <;> exact Nat.succ_pos _

theorem size_pos (e : Expr) : 0 < e.size := by
  cases e <;> exact Nat.succ_pos _

/-- The rule for powers puts four nodes above the derivative of the base, and the
    other rules fewer. -/
theorem depth_derivative_le (e : Expr) : e.derivative.depth ≤ 4 * e.depth - 2 := by
  induction e with
  | var _ | const _ => exact Nat.le_succ 1
  | binary op l r ihl ihr =>
      have left := l.depth_pos
      have right := r.depth_pos
      cases op <;> simp only [derivative, lnDerivative, depth] <;> omega
  | apply fn a ih =>
      have arg := a.depth_pos
      cases fn <;> simp only [derivative, lnDerivative, depth] <;> omega

theorem two_mul_sq_binary (l r : Nat) :
    2 * (l + r + 1) ^ 2 = 2 * l ^ 2 + 2 * r ^ 2 + (4 * (l * r) + 4 * l + 4 * r + 2) := by
  ring

theorem two_mul_sq_apply (a : Nat) : 2 * (a + 1) ^ 2 = 2 * a ^ 2 + (4 * a + 2) := by
  ring

/-- The copies of the operands and the new nodes fit into what the square has beside the squares of
    the operands. -/
theorem size_derivative_le (e : Expr) : e.derivative.size ≤ 2 * e.size ^ 2 := by
  induction e with
  | var _ | const _ => exact Nat.le_succ 1
  | binary op l r ihl ihr =>
      have left := l.size_pos
      have right := r.size_pos
      have both : 0 < l.size * r.size := Nat.mul_pos left right
      cases op <;> simp only [derivative, lnDerivative, size, two_mul_sq_binary] <;> omega
  | apply fn a ih =>
      have arg := a.size_pos
      cases fn <;> simp only [derivative, lnDerivative, size, two_mul_sq_apply] <;> omega

theorem depth_of_children_eq_nil {e : Expr} (leaf : e.children = []) :
    e.depth = 1 ∧ e.derivative.depth = 1 := by
  cases e with
  | var _ | const _ => exact ⟨rfl, rfl⟩
  | binary _ _ _ | apply _ _ => simp [children] at leaf

theorem depth_derivative_pow {l r : Expr} (base : l.children = []) (exponent : r.children = []) :
    (Expr.pow l r).derivative.depth = 4 * (Expr.pow l r).depth - 2 := by
  obtain ⟨hl, hl'⟩ := depth_of_children_eq_nil base
  obtain ⟨hr, hr'⟩ := depth_of_children_eq_nil exponent
  simp only [derivative, lnDerivative, depth, hl, hl', hr, hr']
  rfl

theorem depth_nthDerivative_le (n : Nat) (e : Expr) :
    (nthDerivative n e).depth ≤ 4 ^ n * e.depth := by
  induction n generalizing e with
  | zero => exact Nat.le_of_eq (Nat.one_mul e.depth).symm
  | succ n ih =>
      have once : e.derivative.depth ≤ 4 * e.depth :=
        Nat.le_trans e.depth_derivative_le (Nat.sub_le _ 2)
      calc (nthDerivative n e.derivative).depth
        _ ≤ 4 ^ n * e.derivative.depth := ih e.derivative
        _ ≤ 4 ^ n * (4 * e.depth) := Nat.mul_le_mul_left _ once
        _ = 4 ^ (n + 1) * e.depth := by rw [Nat.pow_succ, Nat.mul_assoc]

/-- One differentiation squares the size at most, up to a factor of two, and multiplies the depth
    by less than four, with nothing to spare at a power of two leaves. So the depth of every
    derivative is bounded. -/
theorem derivative_growth :
    (∀ e : Expr, e.derivative.size ≤ 2 * e.size ^ 2 ∧ e.derivative.depth ≤ 4 * e.depth - 2) ∧
      (∀ l r : Expr, l.children = [] → r.children = [] →
        (Expr.pow l r).derivative.depth = 4 * (Expr.pow l r).depth - 2) ∧
      ∀ (n : Nat) (e : Expr), (nthDerivative n e).depth ≤ 4 ^ n * e.depth := by
  refine ⟨fun e => ⟨e.size_derivative_le, e.depth_derivative_le⟩, ?_, depth_nthDerivative_le⟩
  intro l r base exponent
  exact depth_derivative_pow base exponent

/-- The derivative of a square reaches the bound for the depth, and stays below the one
    for the size. -/
theorem derivative_growth_square :
    let e : Expr := .pow (.var "x") (.const 2)
    e.depth = 2 ∧ e.derivative.depth = 4 * e.depth - 2 ∧
      e.size = 3 ∧ e.derivative.size = 16 ∧ e.derivative.size ≤ 2 * e.size ^ 2 ∧
      (nthDerivative 2 e).depth ≤ 4 ^ 2 * e.depth := by
  intro e
  exact ⟨rfl, derivative_growth.2.1 _ _ rfl rfl, rfl, rfl, (derivative_growth.1 e).1,
    derivative_growth.2.2 2 e⟩

end Fluxion.Expr
