import Fluxion.Proofs.Expr.Vocabulary

/-! # Where constants stand

A leaf of a derivative is a name or a constant that was there before, or one of the three constants
that the rules bring. The place of a constant is what stands directly above it. In the derivatives
of everything that is read, a minus stands on no constant but minus one, and that stands only on the
left of a product.
-/

namespace Fluxion

/-- What stands directly above a part of an expression. -/
inductive Place where
  | whole
  | left (op : Op)
  | right (op : Op)
  | argument (fn : Func)
  deriving Repr, DecidableEq

namespace Expr

/-- The constants from left to right, each with its place. The expression itself stands at
    the given place. -/
def placedConstants (place : Place) : Expr → List (Place × Float)
  | .var _ => []
  | .const c => [(place, c)]
  | .binary op l r => l.placedConstants (.left op) ++ r.placedConstants (.right op)
  | .apply fn a => a.placedConstants (.argument fn)

theorem map_snd_placedConstants (place : Place) (e : Expr) :
    (e.placedConstants place).map (·.2) = e.constants := by
  induction e generalizing place with
  | var _ | const _ => rfl
  | binary op l r ihl ihr => simp only [placedConstants, constants, List.map_append, ihl, ihr]
  | apply fn a ih => exact ih _

theorem MinusInProducts.of_mem_placedConstants {e : Expr} (h : e.MinusInProducts)
    {above place : Place} {c : Float} (hc : (place, c) ∈ e.placedConstants above) :
    (Binary64.ofFloat c).isPositive = true ∨ (c = -1 ∧ place = .left .mul) := by
  induction e generalizing above with
  | var _ => exact absurd hc List.not_mem_nil
  | const d =>
      obtain ⟨rfl, rfl⟩ := Prod.mk.inj (List.mem_singleton.1 hc)
      exact .inl h
  | binary op l r ihl ihr =>
      obtain ⟨left, right⟩ := h
      cases List.mem_append.1 hc with
      | inr behind => exact ihr right behind
      | inl before =>
          cases left with
          | inr plain => exact ihl plain before
          | inl minus =>
              obtain ⟨rfl, one⟩ := minus
              rw [eq_of_isMinusOne one] at before
              obtain ⟨rfl, rfl⟩ := Prod.mk.inj (List.mem_singleton.1 before)
              exact .inr ⟨rfl, rfl⟩
  | apply fn a ih => exact ih h hc

/-- The constants that the rules bring. -/
def ruleConstants : List Float := [0, 1, -1]

theorem constants_derivative_subset (e : Expr) :
    e.derivative.constants ⊆ e.constants ++ ruleConstants := by
  induction e with
  | var _ | const _ => simp [derivative, constants, ruleConstants]
  | binary op l r ihl ihr =>
      cases op <;> simp only [derivative, lnDerivative, constants, ruleConstants] at ihl ihr ⊢ <;>
        grind
  | apply fn a ih =>
      cases fn <;> simp only [derivative, lnDerivative, constants, ruleConstants] at ih ⊢ <;> grind

theorem constants_nthDerivative_subset (n : Nat) (e : Expr) :
    (nthDerivative n e).constants ⊆ e.constants ++ ruleConstants := by
  induction n generalizing e with
  | zero => exact List.subset_append_left _ _
  | succ n ih =>
      intro c hc
      cases List.mem_append.1 (ih e.derivative hc) with
      | inl kept => exact constants_derivative_subset e kept
      | inr brought => exact List.mem_append_right _ brought

/-- Every leaf of a derivative can be written and read again: names stay, constants stay or come
    from the rules, no constant is NaN or a zero with a minus, and the minus of a constant is that
    of a minus one on the left of a product. -/
theorem nthDerivative_leaves {text : String} {e : Expr} (h : parse text = .ok e) (n : Nat) :
    (nthDerivative n e).names ⊆ e.names ∧
      (∀ c ∈ (nthDerivative n e).constants, c ∈ e.constants ∨ c = 0 ∨ c = 1 ∨ c = -1) ∧
      (∀ c ∈ (nthDerivative n e).constants,
        Binary64.ofFloat c ≠ .nan ∧ Binary64.ofFloat c ≠ .number true 0) ∧
      ∀ place c index, (place, c) ∈ (nthDerivative n e).placedConstants .whole →
        Binary64.ofFloat c = .number true index → c = -1 ∧ place = .left .mul := by
  have signs := (unsigned_of_parse h).minusInProducts.nthDerivative n
  refine ⟨names_nthDerivative_subset n e, fun c hc => ?_, fun c hc => ?_,
    fun place c index hc minus => ?_⟩
  · simpa [ruleConstants] using constants_nthDerivative_subset n e hc
  · rw [← map_snd_placedConstants .whole] at hc
    obtain ⟨placed, hplaced, rfl⟩ := List.mem_map.1 hc
    cases signs.of_mem_placedConstants hplaced with
    | inl positive =>
        obtain ⟨index, value⟩ := Binary64.isPositive_iff.1 positive
        simp [value]
    | inr minus =>
        rw [minus.1]
        decide
  · refine (signs.of_mem_placedConstants hc).resolve_left fun positive => ?_
    obtain ⟨other, value⟩ := Binary64.isPositive_iff.1 positive
    simp [value] at minus

/-- The rules bring each of their constants, and minus one on the left of a product. -/
theorem nthDerivative_leaves_cosine :
    let e : Expr := .cos (.var "x")
    parse "cos(x)" = .ok e ∧
      (nthDerivative 2 e).placedConstants .whole =
        [(.left .mul, 0), (.right .mul, 1), (.left .mul, -1), (.left .mul, -1), (.right .mul, 1),
          (.right .mul, 1), (.right .mul, 0)] ∧
      Binary64.ofFloat (-1) = .number true (1023 * 2 ^ 52) ∧
      (nthDerivative 2 e).names ⊆ e.names ∧
      (∀ c ∈ (nthDerivative 2 e).constants, c ∈ e.constants ∨ c = 0 ∨ c = 1 ∨ c = -1) ∧
      (∀ c ∈ (nthDerivative 2 e).constants,
        Binary64.ofFloat c ≠ .nan ∧ Binary64.ofFloat c ≠ .number true 0) ∧
      ∀ place c index, (place, c) ∈ (nthDerivative 2 e).placedConstants .whole →
        Binary64.ofFloat c = .number true index → c = -1 ∧ place = .left .mul := by
  intro e
  have chars : removeBlanks "cos(x)".toList = Func.cos.name ++ wrap ['x'] := by decide
  have balanced : Mark.Balanced (marks ['x']) := Mark.balanced_iff.2 rfl
  have reads : parse "cos(x)" = .ok e := by
    rw [parse_eq_ok_iff, chars, ofChars?_call .cos balanced, ofChars?_plain rfl rfl]
    rfl
  exact ⟨reads, rfl, by decide, nthDerivative_leaves reads 2⟩

end Expr

end Fluxion
