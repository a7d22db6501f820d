import Fluxion.Proofs.Bracket.Matching
import Fluxion.Proofs.Expr.Rereading
import Mathlib.Logic.Function.Iterate

/-! # Redundant brackets and blanks

Any number of brackets around a balanced text leave open what it is read as, and so does one
pair of them behind the name of a function. Blanks may be put in anywhere, into the names and
the numbers too.
-/

namespace Fluxion

/-- The second text is the first one with blanks put in. -/
inductive Spaced : List Char → List Char → Prop where
  | nil : Spaced [] []
  | keep (c : Char) {text spaced : List Char} (h : Spaced text spaced) :
    Spaced (c :: text) (c :: spaced)
  | blank {c : Char} (hc : isBlank c = true) {text spaced : List Char} (h : Spaced text spaced) :
      Spaced text (c :: spaced)

theorem Spaced.removeBlanks_eq {text spaced : List Char} (h : Spaced text spaced) :
    removeBlanks spaced = removeBlanks text := by
  induction h with
  | nil => rfl
  | keep c h ih =>
      simp only [removeBlanks, List.filter_cons] at ih ⊢
      rw [ih]
  | blank hc h ih =>
      rw [removeBlanks, List.filter_cons_of_neg (by simp [hc])]
      exact ih

theorem spaced_removeBlanks (text : List Char) : Spaced (removeBlanks text) text := by
  induction text with
  | nil => exact .nil
  | cons c text ih =>
      rw [removeBlanks, List.filter_cons]
      split
      · exact .keep c ih
      · next blank => exact .blank (by simpa using blank) ih

namespace Expr

variable {text : List Char}

theorem balanced_wrap_iterate (h : Mark.Balanced (marks text)) (pairs : Nat) :
    Mark.Balanced (marks (wrap^[pairs] text)) := by
  induction pairs with
  | zero => exact h
  | succ pairs ih =>
      rw [Function.iterate_succ_apply']
      exact balanced_wrap ih

theorem removeBlanks_wrap_iterate (pairs : Nat) (text : List Char) :
    removeBlanks (wrap^[pairs] text) = wrap^[pairs] (removeBlanks text) :=
  Function.Commute.iterate_right removeBlanks_wrap pairs text

theorem ofChars?_wrap_iterate (balanced : Mark.Balanced (marks text)) (pairs : Nat) :
    ofChars? (wrap^[pairs] text) = ofChars? text := by
  induction pairs with
  | zero => rfl
  | succ pairs ih =>
      rw [Function.iterate_succ_apply', ofChars?_wrap (balanced_wrap_iterate balanced pairs), ih]

theorem ofChars?_call_iterate (fn : Func) (balanced : Mark.Balanced (marks text)) (pairs : Nat) :
    ofChars? (fn.name ++ wrap^[pairs + 1] text) = (ofChars? text).map (.apply fn) := by
  rw [Function.iterate_succ_apply', ofChars?_call fn (balanced_wrap_iterate balanced pairs),
    ofChars?_wrap_iterate balanced]

/-- Brackets around a balanced text, the brackets of a call among them, and blanks in all of it are
    read as if the text stood alone, whether it can be read or not. -/
theorem parse_redundant {text : String} (balanced : Mark.Balanced (marks text.toList)) (pairs : Nat)
    (fn : Func) :
    (∀ spaced : String, Spaced (wrap^[pairs] text.toList) spaced.toList →
      parse spaced = parse text) ∧
      ∀ spaced : String, Spaced (fn.name ++ wrap^[pairs + 1] text.toList) spaced.toList →
        parse spaced = (parse text).map (.apply fn) := by
  have solid := balanced_removeBlanks_iff.2 balanced
  constructor
  · intro spaced h
    rw [parse, parse, h.removeBlanks_eq, removeBlanks_wrap_iterate, ofChars?_wrap_iterate solid]
  · intro spaced h
    have name : removeBlanks fn.name = fn.name := by cases fn <;> rfl
    rw [parse, parse, h.removeBlanks_eq, removeBlanks_append, name, removeBlanks_wrap_iterate,
      ofChars?_call_iterate fn solid]
    cases ofChars? (removeBlanks text.toList) <;> rfl

/-- The first and the last bracket of the sum do not match each other. The blanks stand inside the
    name of the function too. -/
theorem parse_redundant_sum :
    let text := "(x)+(y)"
    Mark.Balanced (marks text.toList) ∧ parse text = .ok (.add (.var "x") (.var "y")) ∧
      Spaced (wrap^[1] text.toList) "( (x) + (y))".toList ∧ parse "( (x) + (y))" = parse text ∧
      Spaced (Func.sin.name ++ wrap^[2] text.toList) "si n(( (x)+\t(y)))".toList ∧
      parse "si n(( (x)+\t(y)))" = (parse text).map (.apply .sin) := by
  intro text
  have balanced : Mark.Balanced (marks text.toList) := Mark.balanced_iff.2 (by decide)
  have chars : removeBlanks text.toList = wrap ['x'] ++ Op.add.symbol :: wrap ['y'] := by decide
  have inner : ∀ c, Mark.ofChar c = .neither → Mark.Balanced (marks [c]) := by
    intro c hc
    exact Mark.Balanced.of_neither (by simp [hc])
  have x := inner 'x' rfl
  have y := inner 'y' rfl
  have around : Spaced (wrap^[1] text.toList) "( (x) + (y))".toList := by
    have solid : removeBlanks "( (x) + (y))".toList = wrap^[1] text.toList := by decide
    exact solid ▸ spaced_removeBlanks _
  have called : Spaced (Func.sin.name ++ wrap^[2] text.toList) "si n(( (x)+\t(y)))".toList := by
    have solid : removeBlanks "si n(( (x)+\t(y)))".toList =
        Func.sin.name ++ wrap^[2] text.toList := by decide
    exact solid ▸ spaced_removeBlanks _
  refine ⟨balanced, ?_, around, (parse_redundant balanced 1 .sin).1 _ around, called,
    (parse_redundant balanced 1 .sin).2 _ called⟩
  rw [parse_eq_ok_iff, chars, ofChars?_link (.wrap x) (.wrap y) .add, ofChars?_wrap x,
    ofChars?_wrap y, ofChars?_plain rfl rfl, ofChars?_plain rfl rfl]
  rfl

end Expr

end Fluxion
