import Fluxion.Expr.Parser
import Fluxion.Proofs.Chain.Cut

/-! # What is read from each kind of text

One statement for every kind of text: brackets around the whole, the call of a function, a chain of
operands, a leaf, and a text that ends in a bracket that closes nothing. Between them they say all
that reading does, so nothing else looks into it.
-/

namespace Fluxion

namespace Shape

theorem call?_eq_some_iff {text inner : List Char} {fn : Func} :
    call? text = some (fn, inner) ↔
      text = fn.name ++ wrap inner ∧ Mark.Balanced (marks inner) := by
  constructor
  · intro h
    obtain ⟨fn', -, hfn⟩ := List.exists_of_findSome?_eq_some h
    simp only [Option.ite_none_right_eq_some, Option.map_eq_some_iff] at hfn
    obtain ⟨⟨after, rfl⟩, inner', hinner, heq⟩ := hfn
    obtain ⟨rfl, rfl⟩ := Prod.mk.inj heq
    simp only [List.drop_left, unwrap?_eq_some_iff] at hinner
    exact ⟨by rw [hinner.1], hinner.2⟩
  · intro h
    obtain ⟨rfl, balanced⟩ := h
    have found := unwrap?_wrap balanced
    cases fn with
    | ln => simp [call?, Func.all, Func.name, found]
    | sin => simp [call?, Func.all, Func.name, found]
    | cos => simp [call?, Func.all, Func.name, found]

theorem endsUnmatched_iff {text : List Char} :
    endsUnmatched text = true ↔
      ∃ init, text = init ++ [')'] ∧ ∀ o, ¬ Mark.Paired (marks text) o init.length := by
  have last : ∀ init : List Char, (marks (init ++ [')']))[init.length]? = some .closing := by
    intro init
    rw [getElem?_marks_closing]
    simp
  simp only [endsUnmatched, Bool.and_eq_true, beq_iff_eq, Option.map_eq_some_iff]
  constructor
  · intro h
    obtain ⟨⟨c, hc, closing⟩, unmatched⟩ := h
    obtain rfl := Mark.ofChar_eq_closing.1 closing
    obtain ⟨init, rfl⟩ := List.getLast?_eq_some_iff.1 hc
    refine ⟨init, rfl, fun o hpair => ?_⟩
    simp only [List.length_append, List.length_singleton, Nat.add_sub_cancel,
      (Mark.matching?_closing_iff (last init)).2 hpair] at unmatched
    simp at unmatched
  · intro h
    obtain ⟨init, rfl, unmatched⟩ := h
    refine ⟨⟨')', List.getLast?_concat, rfl⟩, ?_⟩
    simp only [List.length_append, List.length_singleton, Nat.add_sub_cancel]
    cases found : Mark.matching? (marks (init ++ [')'])) init.length with
    | none => rfl
    | some o => exact absurd ((Mark.matching?_closing_iff (last init)).1 found) (unmatched o)

theorem not_endsUnmatched_of_balanced {text : List Char} (before : List Char)
    (balanced : Mark.Balanced (marks text)) : endsUnmatched (before ++ wrap text) = false := by
  simp only [Bool.eq_false_iff, ne_eq, endsUnmatched_iff]
  intro h
  obtain ⟨init, heq, unmatched⟩ := h
  have split : init = before ++ '(' :: text := by
    have := congrArg List.dropLast heq
    rwa [List.dropLast_concat, wrap, ← List.cons_append, ← List.append_assoc,
      List.dropLast_concat, eq_comm] at this
  subst split
  refine unmatched before.length
    (Mark.paired_iff_split.2 ⟨marks before, marks text, [], ?_, balanced, ?_, ?_⟩)
  · simp only [marks_append, marks_wrap]
  · simp
  · simp only [length_marks, List.length_append, List.length_cons]
    omega

/-- When a text has which shape. -/
theorem ofText_spec (text : List Char) :
    match ofText text with
    | .leaf part =>
        part = text ∧ endsUnmatched text = false ∧ call? text = none ∧ hasOperators text = false
    | .call fn inner => endsUnmatched text = false ∧ call? text = some (fn, inner)
    | .chain operands => Chain.ofText? text = some operands ∧ operands.rest ≠ []
    | .malformed =>
        endsUnmatched text = true ∨
          call? text = none ∧ hasOperators text = true ∧
            ∀ chain, Chain.ofText? text = some chain → chain.rest = [] := by
  rw [ofText]
  cases ends : endsUnmatched text with
  | true => exact .inl rfl
  | false =>
      cases called : call? text with
      | some call => exact ⟨rfl, rfl⟩
      | none =>
          cases operators : hasOperators text with
          | false => exact ⟨rfl, rfl, rfl, rfl⟩
          | true =>
              cases cut : Chain.ofText? text with
              | none => exact .inr ⟨rfl, rfl, by simp⟩
              | some chain =>
                  by_cases hrest : chain.rest = []
                  · simp [hrest]
                  · simp [hrest]

end Shape

namespace Chain

variable {α β : Type}

theorem mapM?_single (f : α → Option β) (a : α) :
    mapM? f ⟨a, []⟩ = (f a).map fun b => ⟨b, []⟩ := by
  cases h : f a <;> simp [mapM?, h]

theorem mapM?_cons (f : α → Option β) (a : α) (op : Op) (tail : Chain α) :
    mapM? f ⟨a, (op, tail.first) :: tail.rest⟩ =
      (f a).bind fun b => (tail.mapM? f).map fun bs => ⟨b, (op, bs.first) :: bs.rest⟩ := by
  simp only [mapM?]
  cases ha : f a with
  | none => rfl
  | some b =>
      cases hfirst : f tail.first with
      | none => simp [hfirst]
      | some c =>
          cases hrest : tail.rest.mapM fun link => (f link.2).map fun operand =>
            (link.1, operand) <;> simp [hfirst, hrest]

theorem mapM?_eq_none_iff {f : α → Option β} {chain : Chain α} :
    chain.mapM? f = none ↔ ∃ a ∈ chain.operands, f a = none := by
  obtain ⟨first, rest⟩ := chain
  induction rest generalizing first with
  | nil => simp [mapM?_single, operands]
  | cons head rest ih =>
      have tail := ih head.2
      simp only [mapM?_cons f first head.1 ⟨head.2, rest⟩]
      cases hfirst : f first with
      | none => simp [operands, hfirst]
      | some b =>
          simp only [operands, List.mem_cons, List.map_cons, exists_eq_or_imp, hfirst, reduceCtorEq,
            false_or, Option.bind_some, Option.map_eq_none_iff] at tail ⊢
          exact tail

theorem mapM?_congr {f g : α → Option β} {chain : Chain α} (h : ∀ a ∈ chain.operands, f a = g a) :
    chain.mapM? f = chain.mapM? g := by
  obtain ⟨first, rest⟩ := chain
  induction rest generalizing first with
  | nil => rw [mapM?_single, mapM?_single, h first List.mem_cons_self]
  | cons head rest ih =>
      have tail := ih head.2 fun a ha => h a (List.mem_cons_of_mem _ ha)
      simp only [mapM?_cons f first head.1 ⟨head.2, rest⟩, mapM?_cons g first head.1 ⟨head.2, rest⟩,
        tail, h first List.mem_cons_self]

theorem rest_ne_nil_of_mapM? {f : α → Option β} {chain : Chain α}
    {results : Chain β} (h : chain.mapM? f = some results) (hrest : chain.rest ≠ []) :
    results.rest ≠ [] := by
  obtain ⟨first, rest⟩ := chain
  cases rest with
  | nil => exact absurd rfl hrest
  | cons head rest =>
      simp only [mapM?_cons f first head.1 ⟨head.2, rest⟩] at h
      obtain ⟨b, -, h⟩ := Option.bind_eq_some_iff.1 h
      obtain ⟨tail, -, rfl⟩ := Option.map_eq_some_iff.1 h
      simp

theorem rest_eq_nil_of_wrap {before text : List Char} {chain : Chain (List Char)}
    (hbefore : Sealed before) (balanced : Mark.Balanced (marks text))
    (h : ofText? (before ++ wrap text) = some chain) : chain.rest = [] := by
  have sealed : Sealed (before ++ wrap text) := hbefore.append (Sealed.wrap balanced)
  rw [sealed, Option.some.injEq] at h
  rw [← h]

theorem exists_endsUnmatched {text : List Char} {chain : Chain (List Char)}
    (h : ofText? text = some chain) (hrest : chain.rest ≠ [])
    (ends : Shape.endsUnmatched text = true) :
    ∃ operand ∈ chain.operands, Shape.endsUnmatched operand = true := by
  obtain ⟨before, op, operand, hmem, rfl⟩ :
      ∃ (before : List Char) (op : Op) (operand : List Char),
        operand ∈ chain.operands ∧ text = before ++ op.symbol :: operand := by
    obtain ⟨first, rest⟩ := chain
    obtain ⟨links, last, rfl⟩ : ∃ links last, rest = links ++ [last] :=
      ⟨_, _, (List.dropLast_concat_getLast hrest).symm⟩
    refine ⟨first ++ links.flatMap fun link => link.1.symbol :: link.2, last.1, last.2,
      by simp [operands], ?_⟩
    rw [← flatten_of_ofText? h, flatten]
    simp
  refine ⟨operand, hmem, Shape.endsUnmatched_iff.2 ?_⟩
  obtain ⟨init, heq, unmatched⟩ := Shape.endsUnmatched_iff.1 ends
  cases hlast : operand.getLast? with
  | none =>
      rw [List.getLast?_eq_none_iff] at hlast
      subst hlast
      have closing := congrArg List.getLast? heq
      simp only [List.getLast?_concat, Option.some.injEq] at closing
      have hmark := op.mark_symbol
      rw [closing] at hmark
      simp [Mark.ofChar] at hmark
  | some c =>
      obtain ⟨rest, rfl⟩ := List.getLast?_eq_some_iff.1 hlast
      rw [← List.cons_append, ← List.append_assoc] at heq
      obtain ⟨rfl, hc⟩ := List.append_inj' heq rfl
      obtain rfl := List.singleton_inj.1 hc
      refine ⟨rest, rfl, fun o hpair => ?_⟩
      have shifted := (@Mark.paired_append_right (marks (before ++ [op.symbol])) _ _ _).2 hpair
      rw [← marks_append, List.append_assoc, List.singleton_append] at shifted
      refine unmatched _ (?_ : Mark.Paired _ ((marks (before ++ [op.symbol])).length + o) _)
      rw [show (before ++ op.symbol :: rest).length =
        (marks (before ++ [op.symbol])).length + rest.length by simp; omega]
      exact shifted

end Chain

namespace Expr

theorem parse_eq_ok_iff {text : String} {e : Expr} :
    parse text = .ok e ↔ ofChars? (removeBlanks text.toList) = some e := by
  rw [parse]
  split <;> simp [*]

theorem parse_eq_error_iff {text : String} {cause : ParseError} :
    parse text = .error cause ↔ ofChars? (removeBlanks text.toList) = none := by
  rw [parse]
  cases cause
  split <;> simp [*]

theorem ofChars?_wrap {text : List Char} (balanced : Mark.Balanced (marks text)) :
    ofChars? (wrap text) = ofChars? text := by
  rw [ofChars?_eq, ofChars?_eq text, unwrapAll_of_some (unwrap?_wrap balanced)]

theorem ofChars?_unwrapAll (text : List Char) : ofChars? (unwrapAll text) = ofChars? text := by
  rw [ofChars?_eq, ofChars?_eq text, unwrapAll_of_none (unwrap?_unwrapAll text)]

/-- A text that ends in a closing bracket of nothing cannot be read. -/
theorem ofChars?_of_endsUnmatched {text : List Char} (h : Shape.endsUnmatched text = true) :
    ofChars? text = none := by
  have bare : unwrap? text = none := by
    cases found : unwrap? text with
    | none => rfl
    | some inner =>
        obtain ⟨rfl, balanced⟩ := unwrap?_eq_some_iff.1 found
        rw [← List.nil_append (wrap inner), Shape.not_endsUnmatched_of_balanced [] balanced] at h
        simp at h
  simp only [ofChars?_eq, unwrapAll_of_none bare, Shape.ofText, if_pos h]

theorem ofChars?_call (fn : Func) {text : List Char} (balanced : Mark.Balanced (marks text)) :
    ofChars? (fn.name ++ wrap text) = (ofChars? text).map (.apply fn) := by
  have bare : unwrap? (fn.name ++ wrap text) = none := by
    cases fn <;> rfl
  rw [ofChars?_eq, unwrapAll_of_none bare, Shape.ofText,
    Shape.not_endsUnmatched_of_balanced fn.name balanced,
    Shape.call?_eq_some_iff.2 ⟨rfl, balanced⟩]
  rfl

theorem ofChars?_leaf {text : List Char} (bare : unwrap? text = none)
    (ends : Shape.endsUnmatched text = false)
    (nocall : Shape.call? text = none) (operators : hasOperators text = false) :
    ofChars? text = some (ofLeaf text) := by
  rw [ofChars?_eq, unwrapAll_of_none bare, Shape.ofText, ends, nocall, operators]
  rfl

/-- A text with operators, none of which it is cut at, cannot be read, if it is nothing else. -/
theorem ofChars?_uncut {text : List Char} (bare : unwrap? text = none)
    (nocall : Shape.call? text = none) (operators : hasOperators text = true)
    (uncut : ∀ chain, Chain.ofText? text = some chain → chain.rest = []) :
    ofChars? text = none := by
  cases ends : Shape.endsUnmatched text with
  | true => exact ofChars?_of_endsUnmatched ends
  | false =>
      rw [ofChars?_eq, unwrapAll_of_none bare, Shape.ofText, ends, nocall, operators]
      cases cut : Chain.ofText? text with
      | none => rfl
      | some chain => simp [uncut chain cut]

theorem ofChars?_plain {text : List Char} (brackets : hasBrackets text = false)
    (operators : hasOperators text = false) : ofChars? text = some (ofLeaf text) := by
  have open_end : ∀ init, text ≠ init ++ [')'] := by
    intro init heq
    simp only [hasBrackets, List.any_eq_false] at brackets
    exact brackets ')' (heq ▸ List.mem_append_right _ (List.mem_singleton_self _)) rfl
  have bare : unwrap? text = none := by
    cases found : unwrap? text with
    | none => rfl
    | some inner => exact absurd (unwrap?_eq_some_iff.1 found).1 (open_end ('(' :: inner))
  have nocall : Shape.call? text = none := by
    cases found : Shape.call? text with
    | none => rfl
    | some call =>
        have heq := (Shape.call?_eq_some_iff.1 found).1
        rw [wrap, ← List.cons_append, ← List.append_assoc] at heq
        exact absurd heq (open_end _)
  have ends : Shape.endsUnmatched text = false := by
    simp only [Bool.eq_false_iff, ne_eq, Shape.endsUnmatched_iff]
    intro h
    obtain ⟨init, heq, -⟩ := h
    exact open_end init heq
  exact ofChars?_leaf bare ends nocall operators

/-- A text with an operator outside all brackets is read operand by operand. -/
theorem ofChars?_chain {text : List Char} {chain : Chain (List Char)}
    (h : Chain.ofText? text = some chain) (hrest : chain.rest ≠ []) :
    ofChars? text = (chain.mapM? ofChars?).map (Chain.join .binary) := by
  have bare : unwrap? text = none := by
    cases found : unwrap? text with
    | none => rfl
    | some inner =>
        obtain ⟨rfl, balanced⟩ := unwrap?_eq_some_iff.1 found
        exact absurd (@Chain.rest_eq_nil_of_wrap [] inner chain rfl balanced h) hrest
  have nocall : Shape.call? text = none := by
    cases found : Shape.call? text with
    | none => rfl
    | some call =>
        obtain ⟨rfl, balanced⟩ := Shape.call?_eq_some_iff.1 found
        exact absurd (Chain.rest_eq_nil_of_wrap call.1.sealed_name balanced h) hrest
  have operators : hasOperators text = true := by
    obtain ⟨i, hop, -⟩ := (Chain.rest_ne_nil_iff h).1 hrest
    exact hasOperators_iff.2 ⟨i, hop⟩
  cases ends : Shape.endsUnmatched text with
  | false =>
      rw [ofChars?_eq, unwrapAll_of_none bare, Shape.ofText, ends, nocall, operators, h]
      simp [hrest]
  | true =>
      obtain ⟨operand, hmem, hends⟩ := Chain.exists_endsUnmatched h hrest ends
      simp only [ofChars?_of_endsUnmatched ends, Chain.mapM?_eq_none_iff.2
        ⟨operand, hmem, ofChars?_of_endsUnmatched hends⟩]
      rfl

end Expr

end Fluxion
