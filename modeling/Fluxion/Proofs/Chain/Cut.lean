import Fluxion.Chain
import Fluxion.Proofs.Bracket.Wrapping

/-! # Where a text is cut

An operator is exposed when no pair of brackets stands around it. Cutting with a depth counter cuts
at the exposed operators and at no others, and it fails only for an opening bracket that is never
closed. The operands are sealed: cut again, they stay whole.
-/

namespace Fluxion

theorem Op.mark_of_ofChar? {c : Char} {op : Op} (h : ofChar? c = some op) :
    Mark.ofChar c = .neither := by
  obtain rfl := symbol_of_ofChar? h
  cases op <;> rfl

theorem Op.mark_symbol (op : Op) : Mark.ofChar op.symbol = .neither :=
  mark_of_ofChar? (ofChar?_symbol op)

/-- The operator at a position, if one stands there. -/
def operatorAt? (text : List Char) (i : Nat) : Option Op := text[i]?.bind Op.ofChar?

@[simp] theorem operatorAt?_cons_zero (c : Char) (text : List Char) :
    operatorAt? (c :: text) 0 = Op.ofChar? c := rfl

theorem operatorAt?_append_left {text : List Char} {i : Nat} (h : i < text.length)
    (after : List Char) :
    operatorAt? (text ++ after) i = operatorAt? text i := by
  simp only [operatorAt?, List.getElem?_append_left h]

theorem operatorAt?_append_right (before text : List Char) (i : Nat) :
    operatorAt? (before ++ text) (before.length + i) = operatorAt? text i := by
  simp only [operatorAt?, List.getElem?_append_right (Nat.le_add_right _ _),
    Nat.add_sub_cancel_left]

theorem mark_of_operatorAt? {text : List Char} {i : Nat} (h : (operatorAt? text i).isSome) :
    (marks text)[i]? = some .neither := by
  obtain ⟨op, hop⟩ := Option.isSome_iff_exists.1 h
  obtain ⟨c, hc, hop⟩ := Option.bind_eq_some_iff.1 hop
  simp only [getElem?_marks, hc, Option.map_some, Op.mark_of_ofChar? hop]

theorem hasOperators_iff {text : List Char} :
    hasOperators text = true ↔ ∃ i, (operatorAt? text i).isSome := by
  simp only [hasOperators, List.any_eq_true, List.mem_iff_getElem?]
  constructor
  · intro h
    obtain ⟨c, ⟨i, hi⟩, hc⟩ := h
    exact ⟨i, by rw [operatorAt?, hi]; exact hc⟩
  · intro h
    obtain ⟨i, hi⟩ := h
    obtain ⟨op, hop⟩ := Option.isSome_iff_exists.1 hi
    obtain ⟨c, hc, hop⟩ := Option.bind_eq_some_iff.1 hop
    exact ⟨c, ⟨i, hc⟩, by rw [hop]; rfl⟩

/-- No pair of brackets stands around the position. -/
def Mark.Exposed (ms : List Mark) (i : Nat) : Prop :=
  ∀ o c, Paired ms o c → ¬ (o < i ∧ i < c)

instance (ms : List Mark) (o c : Nat) : Decidable (Mark.Paired ms o c) :=
  inferInstanceAs (Decidable (_ ∧ _))

instance (ms : List Mark) (i : Nat) : Decidable (Mark.Exposed ms i) :=
  decidable_of_iff (∀ o < i, ∀ c < ms.length, Mark.Paired ms o c → ¬ i < c) <| by
    constructor
    · intro h o c hpair inside
      exact h o inside.1 c hpair.lt_length hpair inside.2
    · intro h o hlt c _ hpair inside
      exact h o c hpair ⟨hlt, inside⟩

namespace Mark

theorem Paired.exists_outermost {ms : List Mark} {o c : Nat} (h : Paired ms o c) :
    ∃ o' c', o' ≤ o ∧ c ≤ c' ∧ Paired ms o' c' ∧ Exposed ms o' := by
  induction o using Nat.strongRecOn generalizing c with
  | ind o ih =>
      by_cases exposed : Exposed ms o
      · exact ⟨o, c, Nat.le_refl o, Nat.le_refl c, h, exposed⟩
      · obtain ⟨o', c', hpair, inside⟩ : ∃ o' c', Paired ms o' c' ∧ o' < o ∧ o < c' := by
          simpa [Exposed] using exposed
        obtain ⟨o'', c'', ho, hc, houter⟩ := ih o' inside.1 hpair
        have nested := h.nested hpair inside.1 inside.2
        exact ⟨o'', c'', by omega, by omega, houter⟩

theorem Exposed.openingsClosed_take {ms : List Mark} {i : Nat} (h : Exposed ms i)
    (closed : OpeningsClosed ms) (closing : ms[i]? ≠ some .closing) :
    OpeningsClosed (ms.take i) := by
  simp only [openingsClosed_iff, stillOpen_take_eq_zero_iff closed]
  intro o c hpair hlt
  have outside := h o c hpair
  have other : c ≠ i := by
    intro same
    subst same
    exact closing hpair.closing
  omega

end Mark

section

variable {left right : List Char}

theorem operatorAt?_symbol (left : List Char) (op : Op) (right : List Char) :
    operatorAt? (left ++ op.symbol :: right) left.length = some op := by
  have here := operatorAt?_append_right left (op.symbol :: right) 0
  rwa [operatorAt?_cons_zero, Op.ofChar?_symbol] at here

theorem paired_link_iff (closed : Mark.OpeningsClosed (marks left)) (op : Op) {o c : Nat} :
    Mark.Paired (marks (left ++ op.symbol :: right)) o c ↔
      Mark.Paired (marks left) o c ∨
        ∃ o' c', o = left.length + 1 + o' ∧ c = left.length + 1 + c' ∧
          Mark.Paired (marks right) o' c' := by
  simp only [marks_append, marks_cons, op.mark_symbol, Mark.paired_append_iff closed, length_marks]
  refine or_congr Iff.rfl ?_
  constructor
  · intro behind
    obtain ⟨o, c, rfl, rfl, hpair⟩ := behind
    have hlt := hpair.lt
    cases o with
    | zero =>
        have opening := hpair.opening
        simp at opening
    | succ o =>
        obtain ⟨c, rfl⟩ : ∃ k, c = k + 1 := ⟨c - 1, by omega⟩
        exact ⟨o, c, by omega, by omega, Mark.paired_cons_succ.1 hpair⟩
  · intro behind
    obtain ⟨o, c, rfl, rfl, hpair⟩ := behind
    exact ⟨o + 1, c + 1, by omega, by omega, Mark.paired_cons_succ.2 hpair⟩

theorem openingsClosed_link (hl : Mark.OpeningsClosed (marks left)) (op : Op)
    (hr : Mark.OpeningsClosed (marks right)) :
    Mark.OpeningsClosed (marks (left ++ op.symbol :: right)) := by
  rw [Mark.openingsClosed_iff] at hl hr ⊢
  simp only [marks_append, Mark.stillOpen_append, hl, marks_cons, op.mark_symbol]
  exact hr

end

namespace Chain

/-- Cuts a text at the operators whose positions satisfy `p`. -/
def cutAt (p : Nat → Bool) : List Char → Chain (List Char)
  | [] => ⟨[], []⟩
  | c :: text =>
      match Op.ofChar? c, p 0 with
      | some op, true => (cutAt (fun i => p (i + 1)) text).consOp op
      | _, _ => (cutAt (fun i => p (i + 1)) text).consChar c

theorem cutAt_cons_of_true {p : Nat → Bool} {c : Char} {op : Op} (hop : Op.ofChar? c = some op)
    (hp : p 0 = true) (text : List Char) :
    cutAt p (c :: text) = (cutAt (fun i => p (i + 1)) text).consOp op := by
  simp only [cutAt, hop, hp]

theorem cutAt_cons_of_false {p : Nat → Bool} {c : Char} (h : Op.ofChar? c = none ∨ p 0 = false)
    (text : List Char) : cutAt p (c :: text) = (cutAt (fun i => p (i + 1)) text).consChar c := by
  rw [cutAt]
  cases h with
  | inl other => rw [other]
  | inr kept =>
      rw [kept]
      cases Op.ofChar? c <;> rfl

theorem cutAt_congr {p q : Nat → Bool} {text : List Char}
    (h : ∀ i, (operatorAt? text i).isSome → p i = q i) : cutAt p text = cutAt q text := by
  induction text generalizing p q with
  | nil => rfl
  | cons c text ih =>
      have rest := ih fun i hi => h (i + 1) hi
      cases hop : Op.ofChar? c with
      | none => rw [cutAt_cons_of_false (.inl hop), cutAt_cons_of_false (.inl hop), rest]
      | some op =>
          have first := h 0 (by rw [operatorAt?_cons_zero, hop]; rfl)
          cases hp : p 0 with
          | false =>
              simp only [cutAt_cons_of_false (.inr hp), cutAt_cons_of_false (.inr (first ▸ hp)),
                rest]
          | true =>
              simp only [cutAt_cons_of_true hop hp, cutAt_cons_of_true hop (first ▸ hp), rest]

theorem rest_cutAt_ne_nil_iff {p : Nat → Bool} {text : List Char} :
    (cutAt p text).rest ≠ [] ↔ ∃ i, (operatorAt? text i).isSome ∧ p i = true := by
  induction text generalizing p with
  | nil => simp [cutAt, operatorAt?]
  | cons c text ih =>
      have split : (∃ i, (operatorAt? (c :: text) i).isSome ∧ p i = true) ↔
          ((Op.ofChar? c).isSome ∧ p 0 = true) ∨
            ∃ i, (operatorAt? text i).isSome ∧ p (i + 1) = true := by
        constructor
        · intro h
          obtain ⟨i, hi⟩ := h
          cases i with
          | zero => exact .inl hi
          | succ i => exact .inr ⟨i, hi⟩
        · intro h
          cases h with
          | inl first => exact ⟨0, first⟩
          | inr later =>
              obtain ⟨i, hi⟩ := later
              exact ⟨i + 1, hi⟩
      rw [split, ← ih]
      cases hop : Op.ofChar? c with
      | none => simp [cutAt_cons_of_false (.inl hop), consChar]
      | some op =>
          cases hp : p 0 with
          | false => simp [cutAt_cons_of_false (.inr hp), consChar]
          | true => simp [cutAt_cons_of_true hop hp, consOp]

theorem cut?_cons_opening (depth : Nat) (text : List Char) :
    cut? depth ('(' :: text) = (cut? (depth + 1) text).map (consChar '(') := by
  rw [cut?, show Mark.ofChar '(' = .opening from rfl]
  intro _ _ h
  simp [Op.ofChar?] at h

theorem cut?_cons_closing (depth : Nat) (text : List Char) :
    cut? depth (')' :: text) = (cut? (depth - 1) text).map (consChar ')') := by
  rw [cut?, show Mark.ofChar ')' = .closing from rfl]
  intro _ _ h
  simp [Op.ofChar?] at h

theorem cut?_cons_op {c : Char} {op : Op} (h : Op.ofChar? c = some op) (text : List Char) :
    cut? 0 (c :: text) = (cut? 0 text).map (consOp op) := by
  rw [cut?.eq_def]
  simp only [Op.mark_of_ofChar? h, h]

theorem cut?_cons_kept {depth : Nat} {c : Char} (hmark : Mark.ofChar c = .neither)
    (hop : ∀ op, depth = 0 → Op.ofChar? c = some op → False) (text : List Char) :
    cut? depth (c :: text) = (cut? depth text).map (consChar c) := by
  rw [cut?, hmark]
  exact hop

/-- The counter cuts where it stands at zero. -/
theorem cut?_eq (depth : Nat) (text : List Char) :
    cut? depth text =
      if Mark.stillOpen depth (marks text) = 0 then
        some (cutAt (fun i => Mark.stillOpen depth ((marks text).take i) == 0) text)
      else none := by
  fun_induction cut? depth text with
  | case1 => rfl
  | case2 depth hdepth => exact (if_neg hdepth).symm
  | case3 depth c text hmark ih =>
      obtain rfl := Mark.ofChar_eq_opening.1 hmark
      rw [ih, cutAt_cons_of_false (.inl rfl), marks_cons, hmark, Mark.stillOpen]
      split <;> rfl
  | case4 depth c text hmark ih =>
      obtain rfl := Mark.ofChar_eq_closing.1 hmark
      rw [ih, cutAt_cons_of_false (.inl rfl), marks_cons, hmark, Mark.stillOpen]
      split <;> rfl
  | case5 c text hmark op hop ih =>
      rw [ih, cutAt_cons_of_true hop rfl, marks_cons, hmark, Mark.stillOpen]
      split <;> rfl
  | case6 depth c text hmark hop ih =>
      have kept : Op.ofChar? c = none ∨ (depth == 0) = false := by
        cases depth with
        | succ depth => exact .inr rfl
        | zero =>
            cases h : Op.ofChar? c with
            | none => exact .inl rfl
            | some op => exact absurd h (hop op rfl)
      rw [ih, cutAt_cons_of_false (by simpa only [List.take_zero, Mark.stillOpen] using kept),
        marks_cons, hmark, Mark.stillOpen]
      split <;> rfl

/-- With every opening bracket closed, the text is cut at its exposed operators. -/
theorem ofText?_eq_cutAt {text : List Char} (closed : Mark.OpeningsClosed (marks text)) :
    ofText? text = some (cutAt (fun i => decide (Mark.Exposed (marks text) i)) text) := by
  simp only [ofText?, cut?_eq, if_pos (Mark.openingsClosed_iff.1 closed)]
  refine congrArg some (cutAt_congr fun i hop => ?_)
  rw [Bool.eq_iff_iff, beq_iff_eq, decide_eq_true_iff, Mark.stillOpen_take_eq_zero_iff closed]
  have here := mark_of_operatorAt? hop
  constructor
  · intro early o c hpair inside
    have := early o c hpair inside.1
    omega
  · intro exposed o c hpair hlt
    have outside := exposed o c hpair
    have other : c ≠ i := by
      intro same
      subst same
      rw [hpair.closing] at here
      simp at here
    omega

theorem isSome_ofText?_iff {text : List Char} :
    (ofText? text).isSome ↔ Mark.OpeningsClosed (marks text) := by
  simp only [ofText?, cut?_eq, Mark.openingsClosed_iff]
  split <;> simp [*]

theorem rest_ne_nil_iff {text : List Char} {chain : Chain (List Char)}
    (h : ofText? text = some chain) :
    chain.rest ≠ [] ↔ ∃ i, (operatorAt? text i).isSome ∧ Mark.Exposed (marks text) i := by
  have closed := isSome_ofText?_iff.1 (Option.isSome_iff_exists.2 ⟨chain, h⟩)
  simp only [ofText?_eq_cutAt closed, Option.some.injEq] at h
  simp only [← h, rest_cutAt_ne_nil_iff, decide_eq_true_iff]

/-- Cutting finds nothing to cut at. -/
def Sealed (text : List Char) : Prop := ofText? text = some ⟨text, []⟩

/-- The chain with more text in front of its first operand. -/
def prepend (text : List Char) (chain : Chain (List Char)) : Chain (List Char) :=
  ⟨text ++ chain.first, chain.rest⟩

/-- What nothing is cut from only lengthens the first operand of what follows. -/
theorem cut?_append {depth : Nat} {left : List Char} (h : cut? depth left = some ⟨left, []⟩)
    (right : List Char) : cut? depth (left ++ right) = (cut? 0 right).map (prepend left) := by
  have longer : ∀ c (text : List Char), consChar c ∘ prepend text = prepend (c :: text) :=
    fun _ _ => rfl
  have whole : ∀ {c : Char} {found : Option (Chain (List Char))} {text : List Char},
      found.map (consChar c) = some ⟨c :: text, []⟩ → found = some ⟨text, []⟩ := by
    intro c found text hfound
    obtain ⟨⟨first, rest⟩, rfl, heq⟩ := Option.map_eq_some_iff.1 hfound
    simp only [consChar, Chain.mk.injEq, List.cons.injEq, true_and] at heq
    obtain ⟨rfl, rfl⟩ := heq
    rfl
  fun_induction cut? depth left with
  | case1 => exact Option.map_id'.symm
  | case2 => simp at h
  | case3 depth c text hmark ih =>
      obtain rfl := Mark.ofChar_eq_opening.1 hmark
      simp only [List.cons_append, cut?_cons_opening, ih (whole h), Option.map_map, longer]
  | case4 depth c text hmark ih =>
      obtain rfl := Mark.ofChar_eq_closing.1 hmark
      simp only [List.cons_append, cut?_cons_closing, ih (whole h), Option.map_map, longer]
  | case5 c text hmark op hop ih =>
      obtain ⟨_, -, heq⟩ := Option.map_eq_some_iff.1 h
      simp [consOp] at heq
  | case6 depth c text hmark hop ih =>
      simp only [List.cons_append, cut?_cons_kept hmark hop, ih (whole h), Option.map_map, longer]

theorem sealed_of_cut? {depth : Nat} {text : List Char} {chain : Chain (List Char)}
    (h : cut? depth text = some chain) :
    cut? depth chain.first = some ⟨chain.first, []⟩ ∧ ∀ link ∈ chain.rest, Sealed link.2 := by
  fun_induction cut? depth text generalizing chain with
  | case1 =>
      obtain rfl := Option.some.inj h
      exact ⟨rfl, by simp⟩
  | case2 => simp at h
  | case3 depth c text hmark ih =>
      obtain ⟨tail, htail, rfl⟩ := Option.map_eq_some_iff.1 h
      obtain rfl := Mark.ofChar_eq_opening.1 hmark
      refine ⟨?_, (ih htail).2⟩
      simp only [consChar, cut?_cons_opening, (ih htail).1]
      rfl
  | case4 depth c text hmark ih =>
      obtain ⟨tail, htail, rfl⟩ := Option.map_eq_some_iff.1 h
      obtain rfl := Mark.ofChar_eq_closing.1 hmark
      refine ⟨?_, (ih htail).2⟩
      simp only [consChar, cut?_cons_closing, (ih htail).1]
      rfl
  | case5 c text hmark op hop ih =>
      obtain ⟨tail, htail, rfl⟩ := Option.map_eq_some_iff.1 h
      refine ⟨rfl, fun link hlink => ?_⟩
      cases List.mem_cons.1 hlink with
      | inl first =>
          subst first
          exact (ih htail).1
      | inr later => exact (ih htail).2 link later
  | case6 depth c text hmark hop ih =>
      obtain ⟨tail, htail, rfl⟩ := Option.map_eq_some_iff.1 h
      refine ⟨?_, (ih htail).2⟩
      simp only [consChar, cut?_cons_kept hmark hop, (ih htail).1]
      rfl

theorem sealed_of_mem_operands {text operand : List Char} {chain : Chain (List Char)}
    (h : ofText? text = some chain) (hmem : operand ∈ chain.operands) : Sealed operand := by
  obtain ⟨first, rest⟩ := sealed_of_cut? h
  cases List.mem_cons.1 hmem with
  | inl here =>
      subst here
      exact first
  | inr later =>
      obtain ⟨link, hlink, rfl⟩ := List.mem_map.1 later
      exact rest link hlink

theorem sealed_of_rest_eq_nil {text : List Char} {chain : Chain (List Char)}
    (h : ofText? text = some chain) (hrest : chain.rest = []) : Sealed text := by
  have hflat := flatten_of_ofText? h
  simp only [flatten, hrest, List.flatMap_nil, List.append_nil] at hflat
  simp only [Sealed, h]
  exact congrArg some (congr (congrArg Chain.mk hflat) hrest)

theorem sealed_iff {text : List Char} :
    Sealed text ↔ Mark.OpeningsClosed (marks text) ∧
      ∀ i, (operatorAt? text i).isSome → ¬ Mark.Exposed (marks text) i := by
  have uncut : ∀ chain : Chain (List Char), ofText? text = some chain →
      (chain.rest = [] ↔ ∀ i, (operatorAt? text i).isSome → ¬ Mark.Exposed (marks text) i) := by
    intro chain h
    rw [← Decidable.not_not (p := chain.rest = []), ← ne_eq, rest_ne_nil_iff h]
    simp
  constructor
  · intro h
    exact ⟨isSome_ofText?_iff.1 (Option.isSome_iff_exists.2 ⟨_, h⟩), (uncut _ h).1 rfl⟩
  · intro h
    obtain ⟨closed, hidden⟩ := h
    obtain ⟨chain, hchain⟩ := Option.isSome_iff_exists.1 (isSome_ofText?_iff.2 closed)
    exact sealed_of_rest_eq_nil hchain ((uncut chain hchain).2 hidden)

namespace Sealed

theorem openingsClosed {text : List Char} (h : Sealed text) : Mark.OpeningsClosed (marks text) :=
  (sealed_iff.1 h).1

theorem append {left right : List Char} (hl : Sealed left) (hr : Sealed right) :
    Sealed (left ++ right) := by
  simp only [Sealed, ofText?, cut?_append hl]
  simp only [Sealed, ofText?] at hr
  rw [hr]
  rfl

theorem of_not_hasOperators {text : List Char} (closed : Mark.OpeningsClosed (marks text))
    (h : hasOperators text = false) : Sealed text := by
  refine sealed_iff.2 ⟨closed, fun i hop => ?_⟩
  simp only [hasOperators_iff.2 ⟨i, hop⟩] at h
  simp at h

theorem wrap {text : List Char} (balanced : Mark.Balanced (marks text)) : Sealed (wrap text) := by
  simp only [sealed_iff, marks_wrap]
  refine ⟨balanced.wrap.openingsClosed, fun i hop exposed => ?_⟩
  have outer := (Mark.paired_wrap_iff balanced).2 (.inl ⟨rfl, rfl⟩)
  have outside := exposed _ _ outer
  have here := mark_of_operatorAt? hop
  rw [marks_wrap] at here
  have hlt := (List.getElem?_eq_some_iff.1 here).1
  simp only [List.length_cons, List.length_append, List.length_nil] at hlt
  have first : i ≠ 0 := by
    intro start
    subst start
    simp at here
  have last : i ≠ (marks text).length + 1 := by
    intro stop
    subst stop
    simp at here
  omega

end Sealed

theorem not_sealed_link {left : List Char} (closed : Mark.OpeningsClosed (marks left)) (op : Op)
    (right : List Char) :
    ¬ Sealed (left ++ op.symbol :: right) := by
  intro h
  refine (sealed_iff.1 h).2 left.length (by rw [operatorAt?_symbol]; rfl) ?_
  intro o c hpair inside
  cases (paired_link_iff closed op).1 hpair with
  | inl before =>
      have hlt := before.lt_length
      rw [length_marks] at hlt
      omega
  | inr behind =>
      obtain ⟨_, _, rfl, -, -⟩ := behind
      omega

theorem ofText?_link {left : List Char} (h : Sealed left) (op : Op) (right : List Char) :
    ofText? (left ++ op.symbol :: right) =
      (ofText? right).map fun tail => ⟨left, (op, tail.first) :: tail.rest⟩ := by
  simp only [ofText?, cut?_append h, cut?_cons_op (Op.ofChar?_symbol op), Option.map_map]
  congr 1
  funext tail
  simp [prepend, consOp]

end Chain

namespace Func

theorem hasOperators_name (fn : Func) : hasOperators fn.name = false := by
  cases fn <;> rfl

theorem hasBrackets_name (fn : Func) : hasBrackets fn.name = false := by
  cases fn <;> rfl

theorem balanced_name (fn : Func) : Mark.Balanced (marks fn.name) :=
  balanced_of_not_hasBrackets fn.hasBrackets_name

theorem sealed_name (fn : Func) : Chain.Sealed fn.name :=
  Chain.Sealed.of_not_hasOperators fn.balanced_name.openingsClosed fn.hasOperators_name

end Func

end Fluxion
