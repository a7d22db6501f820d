import Fluxion.Proofs.Expr.Acceptance
import Fluxion.Proofs.Expr.Vocabulary

/-! # What was printed can be read

Every derivative of an expression that was read from a balanced text is written so that it can be
read. A closing bracket of nothing is taken for a part of a name. Without an operator the whole
text is that name, and it can still be read. With one, the text that is written has brackets
around it, the name in it closes the first of them, and the last one is left without a partner,
so reading fails.
-/

namespace Fluxion

theorem Shape.endsUnmatched_wrap {body : List Char} (closed : Mark.OpeningsClosed (marks body))
    (unbalanced : ¬ Mark.Balanced (marks body)) : endsUnmatched (wrap body) = true := by
  refine endsUnmatched_iff.2 ⟨'(' :: body, rfl, fun o => ?_⟩
  rw [marks_wrap, List.length_cons, ← length_marks body]
  exact closed.not_paired_last unbalanced o

/-- Every opening bracket that is written is closed, and nothing is left over unless it was
    left over before. -/
structure KeepsSurplus (text written : List Char) : Prop where
  closed : Mark.OpeningsClosed (marks written)
  balanced_iff : Mark.Balanced (marks written) ↔ Mark.Balanced (marks text)

theorem KeepsSurplus.of_balanced {text written : List Char} (h : Mark.Balanced (marks text))
    (h' : Mark.Balanced (marks written)) : KeepsSurplus text written :=
  ⟨h'.openingsClosed, iff_of_true h' h⟩

theorem KeepsSurplus.wrap {text written : List Char} (h : KeepsSurplus text written) :
    KeepsSurplus text (wrap written) := by
  constructor
  · rw [marks_wrap]
    exact h.closed.wrap
  · rw [marks_wrap, h.closed.balanced_wrap_iff, h.balanced_iff]

theorem Func.balanced_call (fn : Func) {text : List Char} (h : Mark.Balanced (marks text)) :
    Mark.Balanced (marks (fn.name ++ wrap text)) := by
  rw [marks_append]
  exact fn.balanced_name.append (Expr.balanced_wrap h)

namespace Spells

variable {text : List Char} {e : Expr}

/-- The text that is written leaves over what the text that was read left over, with and without
    brackets around it. -/
theorem keepsSurplus (h : Spells text e) (closed : Mark.OpeningsClosed (marks text)) :
    KeepsSurplus text e.bareChars ∧ KeepsSurplus text e.chars := by
  induction h with
  | @leaf text operators reads =>
      rw [Expr.ofLeaf]
      split
      · next literal =>
          have balanced := balanced_of_not_hasBrackets (hasBrackets_of_isLiteral literal)
          have written := balanced_constantText (Decimal.ofLiteral text).toFloat
          have kept := KeepsSurplus.of_balanced balanced written
          exact ⟨kept, kept⟩
      · have kept : KeepsSurplus text (String.ofList text).toList := by
          rw [String.toList_ofList]
          exact ⟨closed, Iff.rfl⟩
        exact ⟨kept, kept⟩
  | wrap balanced inner ih =>
      obtain ⟨bare, whole⟩ := ih balanced.openingsClosed
      have around := Expr.balanced_wrap balanced
      exact ⟨.of_balanced around (bare.balanced_iff.2 balanced),
        .of_balanced around (whole.balanced_iff.2 balanced)⟩
  | @call text e fn balanced inner ih =>
      have arg := (ih balanced.openingsClosed).1.balanced_iff.2 balanced
      have written : Mark.Balanced (marks (Expr.apply fn e).chars) := by
        rw [Expr.chars_apply]
        exact fn.balanced_call arg
      have kept := KeepsSurplus.of_balanced (fn.balanced_call balanced) written
      exact ⟨kept, kept⟩
  | @link left right l r op hleft hright first second ihl ihr =>
      have before := (ihl hleft).2
      have behind := (ihr hright).2
      have whole : KeepsSurplus (left ++ op.symbol :: right) (Expr.binary op l r).bareChars := by
        constructor
        · exact openingsClosed_link before.closed op behind.closed
        · rw [Expr.bareChars, balanced_link_iff before.closed op behind.closed,
            balanced_link_iff hleft op hright, before.balanced_iff, behind.balanced_iff]
      refine ⟨whole, ?_⟩
      rw [Expr.chars_binary]
      exact whole.wrap

/-- What leaves a closing bracket over is a name, or it has an operator outside all brackets. -/
theorem of_unbalanced (h : Spells text e) (unbalanced : ¬ Mark.Balanced (marks text)) :
    (e = .var (String.ofList text) ∧ Expr.ofChars? text = some e ∧ hasOperators text = false) ∨
      ((∃ op l r, e = .binary op l r) ∧ hasOperators text = true) := by
  cases h with
  | leaf operators reads =>
      have word : ¬ Decimal.isLiteral text = true := fun literal =>
        unbalanced (balanced_of_not_hasBrackets (hasBrackets_of_isLiteral literal))
      exact .inl ⟨if_neg word, reads, operators⟩
  | wrap balanced inner => exact absurd (Expr.balanced_wrap balanced) unbalanced
  | call fn balanced inner => exact absurd (fn.balanced_call balanced) unbalanced
  | link op hleft hright first second =>
      refine .inr ⟨⟨op, _, _, rfl⟩, ?_⟩
      simp [hasOperators, Op.ofChar?_symbol]

end Spells

namespace Expr

variable {text : String} {e : Expr}

/-- With an operator and a closing bracket left over, what was read is written as a text that
    cannot be read. -/
theorem not_parse_of_unbalanced (h : parse text = .ok e)
    (operators : hasOperators (removeBlanks text.toList) = true)
    (unbalanced : ¬ Mark.Balanced (marks text.toList)) : parse e.text = .error .malformed := by
  have spelled := spells_of_parse h
  rw [← balanced_removeBlanks_iff] at unbalanced
  have accepted := (isSome_ofChars?_iff _).1 (Option.isSome_iff_exists.2 ⟨e, parse_eq_ok_iff.1 h⟩)
  have closed := accepted.openings.resolve_left (by simp [operators])
  have kept := (spelled.keepsSurplus closed).1
  have solid :=
    removeBlanks_chars (spelled.removeBlanks_names fun _ hc => not_isBlank_of_mem_removeBlanks hc)
  rw [parse_eq_error_iff, Expr.text, String.toList_ofList, solid.2]
  cases spelled.of_unbalanced unbalanced with
  | inl name => simp [name.2.2] at operators
  | inr binary =>
      obtain ⟨op, l, r, rfl⟩ := binary.1
      rw [chars_binary]
      exact ofChars?_of_endsUnmatched
        (Shape.endsUnmatched_wrap kept.closed fun balanced =>
          unbalanced (kept.balanced_iff.1 balanced))

theorem reaccepted_name {name : String} (read : parse name = .ok (.var name)) (n : Nat) :
    ∃ e', parse (nthDerivative n (.var name)).text = .ok e' := by
  cases n with
  | zero =>
      rw [nthDerivative, Expr.text, chars, String.ofList_toList]
      exact ⟨_, read⟩
  | succ n =>
      have one : (Expr.const 1).Legible :=
        ⟨fun _ hname => absurd hname List.not_mem_nil, isPositive_one⟩
      exact ⟨_, (one.nthDerivative n).parse_eq⟩

/-- The derivatives of all orders can be read from their texts if and only if the text that the
    expression was read from is a name without operators or its brackets balance. -/
theorem reaccepted_iff (h : parse text = .ok e) :
    (∀ n, ∃ e', parse (nthDerivative n e).text = .ok e') ↔
      hasOperators (removeBlanks text.toList) = false ∨ Mark.Balanced (marks text.toList) := by
  constructor
  · intro accepted
    by_contra neither
    rw [not_or, Bool.not_eq_false] at neither
    obtain ⟨e', read⟩ := accepted 0
    have rejected := not_parse_of_unbalanced h neither.1 neither.2
    rw [nthDerivative] at read
    rw [read] at rejected
    simp at rejected
  · intro either n
    by_cases balanced : Mark.Balanced (marks text.toList)
    · exact ⟨_, ((Legible.of_parse h balanced).nthDerivative n).parse_eq⟩
    · have operators := either.resolve_right balanced
      rw [← balanced_removeBlanks_iff] at balanced
      cases (spells_of_parse h).of_unbalanced balanced with
      | inr binary => simp [operators] at binary
      | inl name =>
          obtain ⟨rfl, reads, -⟩ := name
          refine reaccepted_name ?_ n
          rw [parse_eq_ok_iff, String.toList_ofList, removeBlanks_removeBlanks]
          exact reads

theorem reaccepted_iff_sum :
    let e : Expr := .add (.var "x") (.var "y")
    parse "x + y" = .ok e ∧ ∀ n, ∃ e', parse (nthDerivative n e).text = .ok e' := by
  intro e
  have chars : removeBlanks "x + y".toList = ['x'] ++ Op.add.symbol :: ['y'] := by decide
  have left : Chain.Sealed ['x'] :=
    Chain.Sealed.of_not_hasOperators (Mark.openingsClosed_iff.2 rfl) rfl
  have right : Chain.Sealed ['y'] :=
    Chain.Sealed.of_not_hasOperators (Mark.openingsClosed_iff.2 rfl) rfl
  have reads : parse "x + y" = .ok e := by
    rw [parse_eq_ok_iff, chars, ofChars?_link left right .add, ofChars?_plain rfl rfl,
      ofChars?_plain rfl rfl]
    rfl
  exact ⟨reads, (reaccepted_iff reads).2 (.inr (Mark.balanced_iff.2 (by decide)))⟩

/-- The bracket that closes nothing becomes a part of the first name. Behind it the brackets around
    the sum do not match. -/
theorem not_reaccepted_strayBracket :
    let e : Expr := .add (.var "x)y") (.var "z")
    parse "x)y+z" = .ok e ∧ (nthDerivative 0 e).text = "(x)y+z)" ∧
      parse (nthDerivative 0 e).text = .error .malformed := by
  intro e
  have chars : removeBlanks "x)y+z".toList = ['x', ')', 'y'] ++ Op.add.symbol :: ['z'] := by decide
  have left : Chain.Sealed ['x', ')', 'y'] :=
    Chain.Sealed.of_not_hasOperators (Mark.openingsClosed_iff.2 rfl) rfl
  have right : Chain.Sealed ['z'] :=
    Chain.Sealed.of_not_hasOperators (Mark.openingsClosed_iff.2 rfl) rfl
  have name : ofChars? ['x', ')', 'y'] = some (.var "x)y") := by
    rw [ofChars?_eq, unwrapAll_of_none rfl]
    rfl
  have reads : parse "x)y+z" = .ok e := by
    rw [parse_eq_ok_iff, chars, ofChars?_link left right .add, name, ofChars?_plain rfl rfl]
    rfl
  have written : (nthDerivative 0 e).text = "(x)y+z)" := by decide
  have around : removeBlanks "(x)y+z)".toList = wrap ['x', ')', 'y', '+', 'z'] := by decide
  refine ⟨reads, written, ?_⟩
  rw [written, parse_eq_error_iff, around]
  exact ofChars?_of_endsUnmatched rfl

end Expr

end Fluxion
