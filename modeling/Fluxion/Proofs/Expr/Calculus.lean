import Fluxion.Proofs.Expr.RealReading
import Mathlib

/-! # The derivative in the reals

At a regular point an expression is smooth, and it stays regular nearby, because its conditions are
open. There the symbolic derivative is the derivative, rule by rule, and since it is regular again
the same holds for every order.
-/

namespace Fluxion

open Filter Topology

section

variable {f g : ℝ → ℝ} {x : ℝ}

theorem Op.contDiffAt (op : Op) {n : WithTop ℕ∞} (regular : op.RegularAt (f x) (g x))
    (hf : ContDiffAt ℝ n f x) (hg : ContDiffAt ℝ n g x) :
    ContDiffAt ℝ n (fun y => op.real (f y) (g y)) x := by
  cases op with
  | add => exact hf.add hg
  | sub => exact hf.sub hg
  | mul => exact hf.mul hg
  | div => exact hf.div hg regular
  | pow => exact hf.rpow hg (ne_of_gt regular)

theorem Func.contDiffAt (fn : Func) {n : WithTop ℕ∞} (regular : fn.RegularAt (f x))
    (hf : ContDiffAt ℝ n f x) : ContDiffAt ℝ n (fun y => fn.real (f y)) x := by
  cases fn with
  | ln => exact hf.log (ne_of_gt regular)
  | sin => exact hf.sin
  | cos => exact hf.cos

theorem Op.eventually_regularAt (op : Op) (regular : op.RegularAt (f x) (g x))
    (hf : ContinuousAt f x) (hg : ContinuousAt g x) :
    ∀ᶠ y in 𝓝 x, op.RegularAt (f y) (g y) := by
  cases op with
  | add => exact Eventually.of_forall fun _ => trivial
  | sub => exact Eventually.of_forall fun _ => trivial
  | mul => exact Eventually.of_forall fun _ => trivial
  | div => exact hg.eventually_ne regular
  | pow => exact hf.eventually (lt_mem_nhds regular)

theorem Func.eventually_regularAt (fn : Func) (regular : fn.RegularAt (f x))
    (hf : ContinuousAt f x) :
    ∀ᶠ y in 𝓝 x, fn.RegularAt (f y) := by
  cases fn with
  | ln => exact hf.eventually (lt_mem_nhds regular)
  | sin => exact Eventually.of_forall fun _ => trivial
  | cos => exact Eventually.of_forall fun _ => trivial

end

namespace Expr

variable {e : Expr} {x : ℝ}

theorem RegularAt.contDiffAt (h : e.RegularAt x) (n : WithTop ℕ∞) : ContDiffAt ℝ n e.real x := by
  induction e with
  | var _ => exact contDiffAt_id
  | const _ => exact contDiffAt_const
  | binary op l r ihl ihr => exact op.contDiffAt h.1 (ihl h.2.1) (ihr h.2.2)
  | apply fn a ih => exact fn.contDiffAt h.1 (ih h.2)

theorem RegularAt.continuousAt (h : e.RegularAt x) : ContinuousAt e.real x :=
  (h.contDiffAt 0).continuousAt

theorem RegularAt.eventually (h : e.RegularAt x) : ∀ᶠ y in 𝓝 x, e.RegularAt y := by
  induction e with
  | var _ => exact Eventually.of_forall fun _ => trivial
  | const _ => exact Eventually.of_forall fun _ => trivial
  | binary op l r ihl ihr =>
      obtain ⟨here, left, right⟩ := h
      exact (op.eventually_regularAt here left.continuousAt right.continuousAt).and
        ((ihl left).and (ihr right))
  | apply fn a ih =>
      obtain ⟨here, arg⟩ := h
      exact (fn.eventually_regularAt here arg.continuousAt).and (ih arg)

theorem RegularAt.hasDerivAt (h : e.RegularAt x) (noCos : e.Avoids .cos) :
    HasDerivAt e.real (e.derivative.real x) x := by
  induction e with
  | var _ =>
      refine (hasDerivAt_id x).congr_deriv ?_
      exact Binary64.real_one.symm
  | const c =>
      refine (hasDerivAt_const x _).congr_deriv ?_
      exact Binary64.real_zero.symm
  | binary op l r ihl ihr =>
      obtain ⟨here, left, right⟩ := h
      have left' := ihl left noCos.1
      have right' := ihr right noCos.2
      cases op with
      | add => exact left'.add right'
      | sub => exact left'.sub right'
      | mul => exact left'.mul right'
      | div =>
          refine (left'.div right' here).congr_deriv ?_
          rw [pow_two]
          rfl
      | pow =>
          have base : 0 < l.real x := here
          refine (left'.rpow right' base).congr_deriv ?_
          change _ = l.real x ^ r.real x *
            (r.derivative.real x * Real.log (l.real x) +
              r.real x * ((Binary64.ofFloat 1).real / l.real x * l.derivative.real x))
          rw [Binary64.real_one, Real.rpow_sub_one base.ne']
          ring
  | apply fn a ih =>
      obtain ⟨here, arg⟩ := h
      have arg' := ih arg noCos.2
      cases fn with
      | ln =>
          have positive : 0 < a.real x := here
          refine (arg'.log positive.ne').congr_deriv ?_
          change _ = (Binary64.ofFloat 1).real / a.real x * a.derivative.real x
          rw [Binary64.real_one]
          ring
      | sin => exact arg'.sin
      | cos => exact absurd rfl noCos.1

/-- Near a regular point the derivative of the function is the function of the
    symbolic derivative. -/
theorem RegularAt.deriv_eventuallyEq (h : e.RegularAt x) (noCos : e.Avoids .cos) :
    deriv e.real =ᶠ[𝓝 x] e.derivative.real :=
  h.eventually.mono fun _ regular => (regular.hasDerivAt noCos).deriv

theorem RegularAt.iteratedDeriv_eq (h : e.RegularAt x) (noSin : e.Avoids .sin)
    (noCos : e.Avoids .cos) (n : ℕ) : iteratedDeriv n e.real x = (nthDerivative n e).real x := by
  -- differentiating once needs the function near the point and not only there
  induction n generalizing e with
  | zero => rw [iteratedDeriv_zero, nthDerivative]
  | succ n ih =>
      have sines := noSin.derivative noCos (by simp) noSin
      have cosines := noSin.derivative noCos (by simp) noCos
      calc
        iteratedDeriv (n + 1) e.real x = iteratedDeriv n (deriv e.real) x := by
          rw [iteratedDeriv_succ']
        _ = iteratedDeriv n e.derivative.real x :=
          (h.deriv_eventuallyEq noCos).iteratedDeriv_eq n
        _ = (nthDerivative n e.derivative).real x := ih h.derivative sines cosines

theorem FiniteConstants.nthDerivative (h : e.FiniteConstants) (n : ℕ) :
    (nthDerivative n e).FiniteConstants := by
  induction n generalizing e with
  | zero => exact h
  | succ n ih => exact ih h.derivative

theorem RegularAt.nthDerivative (h : e.RegularAt x) (n : ℕ) : (nthDerivative n e).RegularAt x := by
  induction n generalizing e with
  | zero => exact h
  | succ n ih => exact ih h.derivative

/-- The symbolic derivative is the derivative, of every order if there are no sines and cosines. -/
theorem derivative_correct (finite : e.FiniteConstants) (regular : e.RegularAt x) :
    (e.Avoids .cos →
        e.derivative.FiniteConstants ∧ e.derivative.RegularAt x ∧
          HasDerivAt e.real (e.derivative.real x) x) ∧
      (e.Avoids .sin → e.Avoids .cos → ∀ n : ℕ,
        (nthDerivative n e).FiniteConstants ∧ (nthDerivative n e).RegularAt x ∧
          ContDiffAt ℝ n e.real x ∧ iteratedDeriv n e.real x = (nthDerivative n e).real x) := by
  constructor
  · intro noCos
    exact ⟨finite.derivative, regular.derivative, regular.hasDerivAt noCos⟩
  · intro noSin noCos n
    exact ⟨finite.nthDerivative n, regular.nthDerivative n, regular.contDiffAt n,
      regular.iteratedDeriv_eq noSin noCos n⟩

/-- A power with the variable in base and exponent, over a logarithm that is not zero. -/
theorem derivative_correct_powerOverLn :
    let e : Expr := .div (.pow (.var "x") (.var "x")) (.add (.ln (.var "x")) (.const 1))
    HasDerivAt e.real (e.derivative.real 2) 2 ∧
      iteratedDeriv 3 e.real 2 = (nthDerivative 3 e).real 2 := by
  intro e
  have finite : e.FiniteConstants := ⟨⟨trivial, trivial⟩, trivial, Binary64.isFinite_one⟩
  have regular : e.RegularAt 2 := by
    have two : (0 : ℝ) < 2 := by norm_num
    have logarithm : 0 < Real.log 2 := Real.log_pos (by norm_num)
    have denominator : Real.log 2 + (Binary64.ofFloat 1).real ≠ 0 := by
      rw [Binary64.real_one]
      positivity
    exact ⟨denominator, ⟨two, trivial, trivial⟩, trivial, ⟨two, trivial⟩, trivial⟩
  have noSin : e.Avoids .sin := ⟨⟨trivial, trivial⟩, ⟨by simp, trivial⟩, trivial⟩
  have noCos : e.Avoids .cos := ⟨⟨trivial, trivial⟩, ⟨by simp, trivial⟩, trivial⟩
  obtain ⟨first, every⟩ := derivative_correct finite regular
  exact ⟨(first noCos).2.2, (every noSin noCos 3).2.2.2⟩

end Expr

end Fluxion
