import Fluxion.Proofs.Expr.Acceptable
import Fluxion.Proofs.Expr.Reading

/-! # Reading succeeds on the acceptable texts

By induction on the length of the text, along the shapes that reading tells apart. A text whose
operators all stand in brackets is the one hard case: if it is acceptable, the outermost brackets
around an operator stand around the whole text, but perhaps for the name of a function.
-/

namespace Fluxion

namespace Chain

variable {left right : List Char}

theorem not_matched_append (closed : Mark.OpeningsClosed (marks left))
    (closing : (left ++ right)[left.length]? = some ')') :
    ¬ Mark.Matched (marks (left ++ right)) left.length := by
  rw [Mark.matched_closing_iff (getElem?_marks_closing.2 closing), marks_append]
  intro matched
  obtain ⟨o, hpair⟩ := matched
  cases (Mark.paired_append_iff closed).1 hpair with
  | inl before =>
      have hlt := before.lt_length
      rw [length_marks] at hlt
      exact Nat.lt_irrefl _ hlt
  | inr behind =>
      obtain ⟨o', c', -, hc, hpair⟩ := behind
      have hlt := hpair.lt
      rw [length_marks] at hc
      omega

/-- Brackets that hide operators end a sealed text, because neither an operator nor a matched
    bracket can follow them. -/
theorem eq_nil_of_endsOperand (closed : Mark.OpeningsClosed (marks left))
    (h : Sealed (left ++ right)) (ends : EndsOperand (left ++ right) left.length) : right = [] := by
  cases ends with
  | inl last =>
      rw [List.length_append] at last
      exact List.eq_nil_of_length_eq_zero (by omega)
  | inr follows =>
      cases follows with
      | inl operator =>
          obtain ⟨op, hop⟩ := Option.isSome_iff_exists.1 operator
          obtain ⟨c, hc, hop⟩ := Option.bind_eq_some_iff.1 hop
          simp only [List.getElem?_append_right (Nat.le_refl _), Nat.sub_self] at hc
          cases right with
          | nil => rfl
          | cons c' right =>
              obtain rfl := Option.some.inj hc
              obtain rfl := Op.symbol_of_ofChar? hop
              exact absurd h (not_sealed_link closed op right)
      | inr bracket => exact absurd bracket.2 (not_matched_append closed bracket.1)

end Chain

theorem stillOpen_plain {text : List Char} (h : ∀ c ∈ text, isPlain c = true) (depth : Nat) :
    Mark.stillOpen depth (marks text) = depth := by
  refine (balanced_of_not_hasBrackets ?_).stillOpen_eq depth
  simp only [hasBrackets, List.any_eq_false]
  intro c hc bracket
  have plain := h c hc
  simp only [isPlain, bracket] at plain
  simp at plain

/-- Brackets that hide operators open a sealed text, but perhaps for the name of a function. -/
theorem CanOpen.isCallee {before after : List Char} (h : CanOpen before)
    (closed : Mark.OpeningsClosed (marks before)) (sealed : Chain.Sealed (before ++ after)) :
    IsCallee before := by
  obtain ⟨callee, starts⟩ := h
  have split := @List.rdropWhile_append_rtakeWhile _ isPlain before
  have plain : ∀ c ∈ before.rtakeWhile isPlain, isPlain c = true :=
    fun c hc => List.mem_rtakeWhile_imp hc
  generalize before.rtakeWhile isPlain = word at callee split plain
  generalize before.rdropWhile isPlain = rest at starts split
  subst split
  cases starts.cases_eq with
  | inl empty =>
      subst empty
      exact callee
  | inr last =>
      exfalso
      obtain ⟨init, c, rfl, hc⟩ := last
      simp only [Mark.openingsClosed_iff, marks_append, Mark.stillOpen_append,
        stillOpen_plain plain] at closed
      cases hc with
      | inl opening =>
          subst opening
          simp [marks, Mark.ofChar, Mark.stillOpen] at closed
      | inr operator =>
          obtain ⟨op, hop⟩ := Option.isSome_iff_exists.1 operator
          obtain rfl := Op.symbol_of_ofChar? hop
          simp only [marks_cons, op.mark_symbol] at closed
          simp only [List.append_assoc] at sealed
          exact Chain.not_sealed_link (Mark.openingsClosed_iff.2 closed) op _ sealed

/-- An acceptable text whose operators all stand in brackets has brackets around it,
    or is a call. -/
theorem Acceptable.exists_wrap {text : List Char} (h : Acceptable text) (sealed : Chain.Sealed text)
    (operators : hasOperators text = true) :
    ∃ word inner, text = word ++ wrap inner ∧ IsCallee word ∧ Mark.Balanced (marks inner) := by
  obtain ⟨closed, hidden⟩ := Chain.sealed_iff.1 sealed
  obtain ⟨i, operator⟩ := hasOperators_iff.1 operators
  obtain ⟨o, c, hpair, inside⟩ : ∃ o c, Mark.Paired (marks text) o c ∧ o < i ∧ i < c := by
    simpa [Mark.Exposed] using hidden i operator
  obtain ⟨o', c', ho, hc, outer, exposed⟩ := hpair.exists_outermost
  obtain ⟨ends, opens⟩ := h.pairs o' c' outer ⟨i, by omega, by omega, operator⟩
  -- nothing is open before the outermost pair, so nothing may stand next to it that could be cut at
  have early := exposed.openingsClosed_take closed (by rw [outer.opening]; simp)
  obtain ⟨before, inner, after, rfl, balanced, rfl, rfl⟩ := paired_marks_iff.1 outer
  rw [← marks_take, List.append_assoc, List.take_left] at early
  simp only [List.append_assoc, List.take_left] at opens
  have callee := opens.isCallee early (List.append_assoc before _ after ▸ sealed)
  have whole : Mark.Balanced (marks (before ++ wrap inner)) := by
    simp only [marks_append, marks_wrap]
    exact callee.balanced.append balanced.wrap
  have size : (before ++ wrap inner).length = before.length + 1 + inner.length + 1 := by
    simp only [List.length_append, length_wrap]
    omega
  rw [← size] at ends
  obtain rfl := Chain.eq_nil_of_endsOperand whole.openingsClosed sealed ends
  exact ⟨before, inner, List.append_nil _, callee, balanced⟩

theorem Shape.endsUnmatched_iff_misfit {text : List Char} :
    endsUnmatched text = true ↔ ∃ c, c + 1 = text.length ∧ ¬ ClosingFits text c := by
  rw [endsUnmatched_iff]
  constructor
  · intro h
    obtain ⟨init, rfl, unmatched⟩ := h
    have closing : (init ++ [')'])[init.length]? = some ')' := List.getElem?_concat_length
    refine ⟨init.length, by simp, fun fits => ?_⟩
    refine (fits closing ?_).1 (by simp)
    rw [Mark.matched_closing_iff (getElem?_marks_closing.2 closing)]
    exact not_exists.2 unmatched
  · intro h
    obtain ⟨c, last, misfit⟩ := h
    obtain ⟨closing, unmatched, -⟩ : text[c]? = some ')' ∧ ¬ Mark.Matched (marks text) c ∧ _ := by
      simpa only [ClosingFits, Classical.not_imp] using misfit
    rw [Mark.matched_closing_iff (getElem?_marks_closing.2 closing)] at unmatched
    obtain rfl : c = text.length - 1 := by omega
    rw [← List.getLast?_eq_getElem?] at closing
    obtain ⟨init, rfl⟩ := List.getLast?_eq_some_iff.1 closing
    simp only [List.length_append, List.length_singleton, Nat.add_sub_cancel] at unmatched
    exact ⟨init, rfl, not_exists.1 unmatched⟩

theorem Shape.acceptable_of_leaf {text : List Char} (h : hasOperators text = false)
    (ends : endsUnmatched text = false) : Acceptable text := by
  have operators : ∀ i, operatorAt? text i = none := by
    intro i
    cases found : operatorAt? text i with
    | none => rfl
    | some op =>
        rw [hasOperators_iff.2 ⟨i, by rw [found]; rfl⟩] at h
        simp at h
  refine ⟨.inl h, fun c closing unmatched => ⟨fun last => ?_, operators _⟩, fun o c _ between => ?_⟩
  · have misfit : ¬ ClosingFits text c := fun fits => (fits closing unmatched).1 last
    rw [endsUnmatched_iff_misfit.2 ⟨c, last, misfit⟩] at ends
    simp at ends
  · obtain ⟨i, -, -, operator⟩ := between
    rw [operators] at operator
    simp at operator

theorem Chain.acceptable_iff {text : List Char} {chain : Chain (List Char)}
    (cut : ofText? text = some chain) :
    Acceptable text ↔ ∀ operand ∈ chain.operands, Acceptable operand := by
  have closed : ∀ operand ∈ chain.operands, Mark.OpeningsClosed (marks operand) :=
    fun operand hmem => (sealed_of_mem_operands cut hmem).openingsClosed
  rw [← flatten_of_ofText? cut]
  exact acceptable_flatten_iff closed

theorem Shape.not_acceptable_of_malformed {text : List Char} (bare : unwrap? text = none)
    (malformed : ofText text = .malformed) : ¬ Acceptable text := by
  intro h
  have spec := ofText_spec text
  rw [malformed] at spec
  cases spec with
  | inl ends =>
      obtain ⟨c, -, misfit⟩ := endsUnmatched_iff_misfit.1 ends
      exact misfit (h.closings c)
  | inr hidden =>
      obtain ⟨nocall, operators, uncut⟩ := hidden
      have closed := h.openings.resolve_left (by simp [operators])
      obtain ⟨chain, cut⟩ := Option.isSome_iff_exists.1 (Chain.isSome_ofText?_iff.2 closed)
      have sealed := Chain.sealed_of_rest_eq_nil cut (uncut chain cut)
      obtain ⟨word, inner, rfl, callee, balanced⟩ := h.exists_wrap sealed operators
      cases callee with
      | inl empty =>
          subst empty
          simp [unwrap?_wrap balanced] at bare
      | inr named =>
          obtain ⟨fn, rfl⟩ := named
          simp [call?_eq_some_iff.2 ⟨rfl, balanced⟩] at nocall

namespace Expr

/-- A text without blanks can be read if and only if it is acceptable. -/
theorem isSome_ofChars?_iff (text : List Char) : (ofChars? text).isSome ↔ Acceptable text := by
  induction size : text.length using Nat.strongRecOn generalizing text with
  | ind n ih =>
      subst size
      cases bare : unwrap? text with
      | some inner =>
          have short := ih inner.length (length_lt_of_unwrap? bare) inner rfl
          obtain ⟨rfl, balanced⟩ := unwrap?_eq_some_iff.1 bare
          simp only [ofChars?_wrap balanced, short]
          exact (acceptable_wrap_iff (.inl rfl) balanced).symm
      | none =>
          have spec := Shape.ofText_spec text
          rw [ofChars?_eq, unwrapAll_of_none bare]
          cases shape : Shape.ofText text with
          | leaf part =>
              rw [shape] at spec
              exact iff_of_true rfl (Shape.acceptable_of_leaf spec.2.2.2 spec.2.1)
          | call fn inner =>
              rw [shape] at spec
              have short := ih inner.length (Shape.length_lt_of_call? spec.2) inner rfl
              obtain ⟨rfl, balanced⟩ := Shape.call?_eq_some_iff.1 spec.2
              simp only [Option.isSome_map]
              rw [short]
              exact (acceptable_wrap_iff (.inr ⟨fn, rfl⟩) balanced).symm
          | chain operands =>
              rw [shape] at spec
              have short : ∀ operand ∈ operands.operands,
                  ((ofChars? operand).isSome ↔ Acceptable operand) := by
                intro operand hmem
                have hlt := Chain.length_lt_of_mem_operands spec.2 hmem
                rw [Chain.flatten_of_ofText? spec.1] at hlt
                exact ih operand.length hlt operand rfl
              simp only [Option.isSome_map]
              rw [Chain.acceptable_iff spec.1, Option.isSome_iff_ne_none, ne_eq,
                Chain.mapM?_eq_none_iff, not_exists]
              simp only [not_and]
              refine forall₂_congr fun operand hmem => ?_
              rw [← short operand hmem, Option.isSome_iff_ne_none]
          | malformed => exact iff_of_false (by simp) (Shape.not_acceptable_of_malformed bare shape)

/-- Which texts are expressions. All others are errors, and there is one error. -/
theorem parse_ok_iff_acceptable (text : String) :
    ((∃ e, parse text = .ok e) ↔ Acceptable (removeBlanks text.toList)) ∧
      (parse text = .error .malformed ↔ ¬ Acceptable (removeBlanks text.toList)) := by
  rw [← isSome_ofChars?_iff, parse_eq_error_iff, Option.isSome_iff_exists]
  simp only [parse_eq_ok_iff, true_and]
  cases ofChars? (removeBlanks text.toList) with
  | none => simp
  | some e => simp

example : ¬ Acceptable "(x+1)y".toList := by decide

end Expr

end Fluxion
