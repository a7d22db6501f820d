import Fluxion.Proofs.Decimal.Value
import Fluxion.Proofs.Expr.Vocabulary

/-! # The text settles

A constant that was rounded when it was written and is read again as the nearest double is written
the same way again. So is every expression whose constants have no sign, infinity included, which
comes back as a variable. A minus one is read as a difference, and after that no constant has a
sign, so writing and reading once more changes nothing.
-/

namespace Fluxion

theorem exists_index {c : Float} (positive : (Binary64.ofFloat c).isPositive = true)
    (finite : Binary64.ofFloat c ≠ .number false Binary64.infinity) :
    ∃ index, Binary64.ofFloat c = .number false index ∧ index < Binary64.infinity := by
  cases number : Binary64.ofFloat c with
  | nan =>
      rw [number] at positive
      simp [Binary64.isPositive] at positive
  | number negative index =>
      rw [number] at positive finite
      cases negative with
      | true => simp [Binary64.isPositive] at positive
      | false =>
          have bounded := Binary64.le_infinity_of_ofFloat number
          exact ⟨index, rfl, Nat.lt_of_le_of_ne bounded fun infinite =>
            finite (congrArg _ infinite)⟩

theorem Binary64.text_of_ne {magnitude : Nat → Decimal} {index : Nat} (h : index ≠ infinity) :
    Binary64.text magnitude (.number false index) = (magnitude index).text := by
  simp only [Binary64.text_number, if_neg h, Bool.false_eq_true, if_false, List.nil_append]

theorem constantText_finite {c : Float} {index : Nat}
    (number : Binary64.ofFloat c = .number false index)
    (finite : index < Binary64.infinity) :
    constantText c = (Decimal.fixed constantPlaces index).text := by
  rw [constantText_eq, number, Binary64.text_of_ne finite.ne]

theorem toFloat_constantText {c : Float} {index : Nat}
    (number : Binary64.ofFloat c = .number false index) (finite : index < Binary64.infinity) :
    (Decimal.ofLiteral (constantText c)).toFloat =
      (Decimal.fixed constantPlaces index).toFloat := by
  rw [constantText_finite number finite, Decimal.toFloat, Decimal.toFloat,
    Decimal.nearest_congr (Decimal.value_ofLiteral_text _)]

theorem Decimal.ofFloat_toFloat (d : Decimal) :
    Binary64.ofFloat d.toFloat = .number false d.nearest :=
  Binary64.ofFloat_toFloat false (Binary64.nearest_le_infinity _ _)

/-- The double that is read has the same text. -/
theorem constantText_reread {c : Float} (positive : (Binary64.ofFloat c).isPositive = true)
    (finite : Binary64.ofFloat c ≠ .number false Binary64.infinity) :
    constantText (Decimal.ofLiteral (constantText c)).toFloat = constantText c := by
  obtain ⟨index, number, small⟩ := exists_index positive finite
  rw [toFloat_constantText number small, constantText_finite (Decimal.ofFloat_toFloat _)
    (Decimal.nearest_fixed_lt constantPlaces small), Decimal.fixed_nearest constantPlaces small,
    constantText_finite number small]

namespace Expr

theorem tidy_infinity : Tidy "inf" := by
  have chars : removeBlanks "inf".toList = ['i', 'n', 'f'] := by decide
  refine ⟨balanced_of_not_hasBrackets rfl, ?_⟩
  rw [parse_eq_ok_iff, chars, ofChars?_plain rfl rfl]
  rfl

theorem unsigned_rereadConstant (c : Float) : (rereadConstant c).Unsigned := by
  rw [rereadConstant]
  split
  · exact unsigned_var _
  · exact unsigned_const_iff.2 (Decimal.isPositive_toFloat _)

theorem unsigned_reread (e : Expr) : e.reread.Unsigned := by
  induction e with
  | var name => exact unsigned_var name
  | const c => exact unsigned_rereadConstant c
  | binary op l r ihl ihr =>
      rw [reread]
      split
      · have zero := unsigned_const_iff.2 isPositive_zero
        have one := unsigned_const_iff.2 isPositive_one
        exact unsigned_binary_iff.2 ⟨zero, unsigned_binary_iff.2 ⟨one, ihr⟩⟩
      · exact unsigned_binary_iff.2 ⟨ihl, ihr⟩
  | apply fn a ih => exact ih

theorem tidy_reread {e : Expr} (tidy : ∀ name ∈ e.names, Tidy name) :
    ∀ name ∈ e.reread.names, Tidy name := by
  induction e with
  | var _ => exact tidy
  | const c =>
      intro name hname
      simp only [reread, rereadConstant] at hname
      split at hname
      · rw [List.mem_singleton.1 hname]
        exact tidy_infinity
      · exact absurd hname List.not_mem_nil
  | binary op l r ihl ihr =>
      obtain ⟨left, right⟩ := List.forall_mem_append.1 tidy
      rw [reread]
      split
      · exact ihr right
      · exact List.forall_mem_append.2 ⟨ihl left, ihr right⟩
  | apply fn a ih => exact ih tidy

theorem Legible.reread {e : Expr} (h : e.Legible) : e.reread.Legible where
  tidy := tidy_reread h.tidy
  signs := (unsigned_reread e).minusInProducts

/-- Without a sign on any constant the text stays. -/
theorem Unsigned.chars_reread {e : Expr} (h : e.Unsigned) :
    e.reread.bareChars = e.bareChars ∧ e.reread.chars = e.chars := by
  induction e with
  | var _ => exact ⟨rfl, rfl⟩
  | const c =>
      have positive := unsigned_const_iff.1 h
      rw [reread, rereadConstant]
      split
      · next infinite =>
          have text := (constantText_infinity infinite).symm
          exact ⟨text, text⟩
      · next finite =>
          have text := constantText_reread positive finite
          exact ⟨text, text⟩
  | binary op l r ihl ihr =>
      obtain ⟨left, right⟩ := unsigned_binary_iff.1 h
      have whole : (Expr.binary op l r).reread.bareChars = (Expr.binary op l r).bareChars := by
        rw [reread, if_neg fun minus => left.not_isMinusOne minus.2, bareChars, bareChars,
          (ihl left).2, (ihr right).2]
      refine ⟨whole, ?_⟩
      rw [reread, if_neg fun minus => left.not_isMinusOne minus.2] at whole ⊢
      rw [chars_binary, chars_binary, whole]
  | apply fn a ih =>
      have whole : (Expr.apply fn a).reread.chars = (Expr.apply fn a).chars := by
        rw [reread, chars_apply, chars_apply, (ih h).1]
      exact ⟨whole, whole⟩

/-- Of a balanced text, the derivative of every order is written so that reading succeeds, and
    after one reading the text stays as it is. Where no constant is minus one, the first reading
    already keeps it. -/
theorem text_settles {text : String} {e : Expr} (h : parse text = .ok e)
    (balanced : Mark.Balanced (marks text.toList)) (n : Nat) :
    ∃ first second, parse (nthDerivative n e).text = .ok first ∧ parse first.text = .ok second ∧
      second.text = first.text ∧
      (-1 ∉ (nthDerivative n e).constants → first.text = (nthDerivative n e).text) ∧
      (n = 0 → -1 ∉ (nthDerivative n e).constants) := by
  have legible := (Legible.of_parse h balanced).nthDerivative n
  refine ⟨_, _, legible.parse_eq, legible.reread.parse_eq, ?_, fun none => ?_, fun zero => ?_⟩
  · rw [Expr.text, (unsigned_reread _).chars_reread.2]
    rfl
  · rw [Expr.text, (legible.signs.unsigned none).chars_reread.2]
    rfl
  · subst zero
    exact (unsigned_of_parse h).minusOne_not_mem

/-- The derivative of a cosine has a minus one. -/
theorem text_settles_cosine :
    let e : Expr := .cos (.var "x")
    parse "cos(x)" = .ok e ∧
      ∃ first second, parse (nthDerivative 1 e).text = .ok first ∧ parse first.text = .ok second ∧
        second.text = first.text ∧
        (-1 ∉ (nthDerivative 1 e).constants → first.text = (nthDerivative 1 e).text) ∧
        (1 = 0 → -1 ∉ (nthDerivative 1 e).constants) := by
  intro e
  have chars : removeBlanks "cos(x)".toList = Func.cos.name ++ wrap ['x'] := by decide
  have balanced : Mark.Balanced (marks ['x']) := Mark.balanced_iff.2 rfl
  have reads : parse "cos(x)" = .ok e := by
    rw [parse_eq_ok_iff, chars, ofChars?_call .cos balanced, ofChars?_plain rfl rfl]
    rfl
  exact ⟨reads, text_settles reads (Mark.balanced_iff.2 (by decide)) 1⟩

end Expr

end Fluxion
