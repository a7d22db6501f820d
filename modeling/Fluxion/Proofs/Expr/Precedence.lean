import Fluxion.Proofs.Chain.Grouping
import Fluxion.Proofs.Expr.Reading

/-! # Precedence

A text with operators outside all brackets is cut at all of these at once. It can be read if and
only if every piece can, and then the trees of the pieces are joined by their one ordered grouping:
the tightest operators first, and operators of one level from the left.
-/

namespace Fluxion

namespace Chain

theorem map_id {α : Type} (chain : Chain α) : chain.map id = chain := by
  simp [map]

theorem subset_flatten {chain : Chain (List Char)} {operand : List Char}
    (h : operand ∈ chain.operands) : operand ⊆ chain.flatten := by
  intro c hc
  simp only [flatten, List.mem_append, List.mem_flatMap]
  cases List.mem_cons.1 h with
  | inl first =>
      subst first
      exact .inl hc
  | inr later =>
      obtain ⟨link, hlink, rfl⟩ := List.mem_map.1 later
      exact .inr ⟨link, hlink, List.mem_cons_of_mem _ hc⟩

/-- The results of a chain are the ordered grouping of some results, and no other grouping of
    them is ordered. -/
theorem exists_grouping {α : Type} (results : Chain α) (join : Op → α → α → α) :
    ∃ g : Grouping α, g.chain = results ∧ g.Ordered ∧
      (∀ g' : Grouping α, g'.chain = results → g'.Ordered → g' = g) ∧
      results.join join = g.fold id join := by
  obtain ⟨g, rfl, ordered⟩ := Grouping.exists_ordered results
  refine ⟨g, rfl, ordered, fun g' same ordered' => ordered'.eq_of_chain_eq ordered same, ?_⟩
  have joined := ordered.join_chain id join
  rwa [map_id] at joined

end Chain

namespace Expr

theorem parse_ofList {text : List Char} (h : ∀ c ∈ text, isBlank c = false) :
    (parse (String.ofList text)).toOption = ofChars? text := by
  simp only [parse, String.toList_ofList, removeBlanks_eq_self h]
  cases ofChars? text <;> rfl

/-- A text with operators outside all brackets is the ordered grouping of what stands
    between them. -/
theorem parse_grouping {text : String} (solid : ∀ c ∈ text.toList, isBlank c = false)
    (closed : Mark.OpeningsClosed (marks text.toList))
    (operator : ∃ i, (operatorAt? text.toList i).isSome ∧ Mark.Exposed (marks text.toList) i) :
    let pieces := Chain.cutAt (fun i => decide (Mark.Exposed (marks text.toList) i)) text.toList
    (parse text = .error .malformed ↔
        ∃ piece ∈ pieces.operands, parse (String.ofList piece) = .error .malformed) ∧
      ((∀ piece ∈ pieces.operands, ∃ e, parse (String.ofList piece) = .ok e) →
        ∃ g : Grouping Expr,
          pieces.mapM? (fun piece => (parse (String.ofList piece)).toOption) = some g.chain ∧
            g.Ordered ∧ (∀ g' : Grouping Expr, g'.chain = g.chain → g'.Ordered → g' = g) ∧
            parse text = .ok (g.fold id .binary)) := by
  intro pieces
  have cut : Chain.ofText? text.toList = some pieces := Chain.ofText?_eq_cutAt closed
  have read := ofChars?_chain cut ((Chain.rest_ne_nil_iff cut).2 operator)
  have solid_piece : ∀ piece ∈ pieces.operands, ∀ c ∈ piece, isBlank c = false := by
    intro piece hpiece c hc
    refine solid c ?_
    rw [← Chain.flatten_of_ofText? cut]
    exact Chain.subset_flatten hpiece hc
  have same : ∀ piece ∈ pieces.operands,
      (parse (String.ofList piece)).toOption = ofChars? piece :=
    fun piece hpiece => parse_ofList (solid_piece piece hpiece)
  constructor
  · rw [parse_eq_error_iff, removeBlanks_eq_self solid, read, Option.map_eq_none_iff,
      Chain.mapM?_eq_none_iff]
    refine exists_congr fun piece => and_congr_right fun hpiece => ?_
    simp only [parse_eq_error_iff, String.toList_ofList,
      removeBlanks_eq_self (solid_piece piece hpiece)]
  · intro readable
    obtain ⟨trees, htrees⟩ : ∃ trees, pieces.mapM? ofChars? = some trees := by
      rw [← Option.ne_none_iff_exists', ne_eq, Chain.mapM?_eq_none_iff]
      intro unreadable
      obtain ⟨piece, hpiece, none⟩ := unreadable
      obtain ⟨e, he⟩ := readable piece hpiece
      rw [← same piece hpiece, he] at none
      simp [Except.toOption] at none
    obtain ⟨g, rfl, ordered, unique, joined⟩ := trees.exists_grouping binary
    refine ⟨g, (Chain.mapM?_congr same).trans htrees, ordered, unique, ?_⟩
    simp only [parse_eq_ok_iff, removeBlanks_eq_self solid, read, htrees, Option.map_some, joined]

private theorem parse_letter {c : Char} (blank : isBlank c = false)
    (brackets : hasBrackets [c] = false)
    (operators : hasOperators [c] = false) (letter : Decimal.isLiteral [c] = false) :
    parse (String.ofList [c]) = .ok (.var (String.ofList [c])) := by
  rw [parse_eq_ok_iff, String.toList_ofList, removeBlanks_eq_self (by simpa using blank),
    ofChars?_plain brackets operators, ofLeaf, letter]
  rfl

private theorem parse_sum :
    parse (String.ofList ['(', 'd', '+', 'e', ')']) = .ok (.add (.var "d") (.var "e")) := by
  have cut : Chain.ofText? ['d', '+', 'e'] = some ⟨['d'], [(.add, ['e'])]⟩ := rfl
  have first : ofChars? ['d'] = some (.var "d") := ofChars?_plain rfl rfl
  have second : ofChars? ['e'] = some (.var "e") := ofChars?_plain rfl rfl
  have solid : removeBlanks ['(', 'd', '+', 'e', ')'] = wrap ['d', '+', 'e'] := by decide
  rw [parse_eq_ok_iff, String.toList_ofList, solid, ofChars?_wrap (balanced_of_not_hasBrackets rfl),
    ofChars?_chain cut (List.cons_ne_nil _ _), Chain.mapM?_cons ofChars? ['d'] .add ⟨['e'], []⟩,
    Chain.mapM?_single, first, second]
  rfl

/-- Powers group to the left and before a difference, and brackets stay together. -/
theorem parse_grouping_powers :
    parse "a-b^c^(d+e)" =
      .ok (.sub (.var "a") (.pow (.pow (.var "b") (.var "c")) (.add (.var "d") (.var "e")))) := by
  have a := @parse_letter 'a' (by decide) rfl rfl rfl
  have b := @parse_letter 'b' (by decide) rfl rfl rfl
  have c := @parse_letter 'c' (by decide) rfl rfl rfl
  have pieces : Chain.cutAt (fun i => decide (Mark.Exposed (marks "a-b^c^(d+e)".toList) i))
      "a-b^c^(d+e)".toList =
        ⟨['a'], [(.sub, ['b']), (.pow, ['c']), (.pow, ['(', 'd', '+', 'e', ')'])]⟩ := by
    decide
  have solid : ∀ c ∈ "a-b^c^(d+e)".toList, isBlank c = false := by
    have all : "a-b^c^(d+e)".toList.all (fun c => !isBlank c) = true := by decide
    intro c hc
    simpa using List.all_eq_true.1 all c hc
  have grouping := (@parse_grouping "a-b^c^(d+e)" solid
    (Mark.openingsClosed_iff.2 (by decide)) ⟨1, by decide⟩).2
  rw [pieces] at grouping
  have readable : ∀ piece ∈ [['a'], ['b'], ['c'], ['(', 'd', '+', 'e', ')']],
      ∃ e, parse (String.ofList piece) = .ok e := by
    simp only [List.forall_mem_cons, a, b, c, parse_sum, Except.ok.injEq, exists_eq',
      List.not_mem_nil, false_implies, implies_true, and_self]
  obtain ⟨g, trees, -, unique, read⟩ := grouping readable
  simp only [Chain.mapM?, a, b, c, parse_sum, Except.toOption, List.mapM_cons, List.mapM_nil,
    Option.map_some, Option.pure_def, Option.bind_eq_bind, Option.bind_some,
    Option.some.injEq] at trees
  let powers : Grouping Expr :=
    .node .sub (.operand (.var "a"))
      (.node .pow (.node .pow (.operand (.var "b")) (.operand (.var "c")))
        (.operand (.add (.var "d") (.var "e"))))
  have ordered : powers.Ordered := by
    simp [powers, Grouping.Ordered, Grouping.root?, Op.tightness, Op.level, Level.tightness]
  obtain rfl := unique powers trees ordered
  exact read

end Expr

end Fluxion
