import Fluxion.Proofs.Chain.Cut
import Mathlib.Data.List.DropRight

/-! # Texts that can be read

Which texts are expressions can be told bracket by bracket, without reading anything. Three
conditions look at single brackets and at what stands next to them, and so they hold for a text in
brackets or between operators if and only if they hold for it alone.
-/

namespace Fluxion

/-- Neither an operator nor a bracket. -/
def isPlain (c : Char) : Bool := (Op.ofChar? c).isNone && !(Mark.ofChar c).isBracket

/-- An operand can start behind the text: the text is empty or ends in an operator or an
    opening bracket. -/
def StartsOperand (before : List Char) : Prop :=
  ∀ c ∈ before.getLast?, c = '(' ∨ (Op.ofChar? c).isSome

/-- Brackets can open behind the text: the last plain characters are none or the name of a function,
    and an operand starts with them. -/
def CanOpen (before : List Char) : Prop :=
  (before.rtakeWhile isPlain = [] ∨ ∃ fn : Func, before.rtakeWhile isPlain = fn.name) ∧
    StartsOperand (before.rdropWhile isPlain)

/-- An operand can end before the position: the text ends there, or an operator or a matched closing
    bracket follows. -/
def EndsOperand (text : List Char) (i : Nat) : Prop :=
  i = text.length ∨ (operatorAt? text i).isSome ∨
    text[i]? = some ')' ∧ Mark.Matched (marks text) i

/-- An operator stands strictly between the two positions. -/
def OperatorBetween (text : List Char) (o c : Nat) : Prop :=
  ∃ i, o < i ∧ i < c ∧ (operatorAt? text i).isSome

/-- The closing bracket at the position has a match, or it is neither last nor
    before an operator. -/
def ClosingFits (text : List Char) (c : Nat) : Prop :=
  text[c]? = some ')' → ¬ Mark.Matched (marks text) c →
    c + 1 ≠ text.length ∧ operatorAt? text (c + 1) = none

/-- If there is an operator in the pair of brackets, an operand ends behind the pair, and before it
    brackets can open. -/
def PairFits (text : List Char) (o c : Nat) : Prop :=
  OperatorBetween text o c → EndsOperand text (c + 1) ∧ CanOpen (text.take o)

/-- With an operator every opening bracket is closed, no unmatched closing bracket ends an
    operand, and brackets with an operator in them stand where an operand stands, or behind a
    function that does. -/
structure Acceptable (text : List Char) : Prop where
  openings : hasOperators text = false ∨ Mark.OpeningsClosed (marks text)
  closings : ∀ c, ClosingFits text c
  pairs : ∀ o c, Mark.Paired (marks text) o c → PairFits text o c

instance (before : List Char) : Decidable (StartsOperand before) :=
  decidable_of_iff (before.getLast?.all fun c => c == '(' || (Op.ofChar? c).isSome) <| by
    simp only [StartsOperand, Option.all_eq_true, Bool.or_eq_true, beq_iff_eq, Option.mem_def]

instance (before : List Char) : Decidable (CanOpen before) :=
  decidable_of_iff ((before.rtakeWhile isPlain = [] ∨
      ∃ fn ∈ Func.all, before.rtakeWhile isPlain = fn.name) ∧
    StartsOperand (before.rdropWhile isPlain)) <| by
    simp only [CanOpen, Func.mem_all, true_and]

instance (text : List Char) (i : Nat) : Decidable (EndsOperand text i) :=
  inferInstanceAs (Decidable (_ ∨ _ ∨ _ ∧ (Mark.matching? (marks text) i).isSome = true))

instance (text : List Char) (o c : Nat) : Decidable (OperatorBetween text o c) :=
  decidable_of_iff (∃ i < c, o < i ∧ (operatorAt? text i).isSome) <| by
    simp only [OperatorBetween, and_left_comm]

instance (text : List Char) (c : Nat) : Decidable (ClosingFits text c) :=
  inferInstanceAs (Decidable (_ → ¬ (Mark.matching? (marks text) c).isSome = true → _))

instance (text : List Char) (o c : Nat) : Decidable (PairFits text o c) :=
  inferInstanceAs (Decidable (_ → _))

instance (text : List Char) : Decidable (Acceptable text) :=
  decidable_of_iff ((hasOperators text = false ∨ Mark.stillOpen 0 (marks text) = 0) ∧
      (∀ c < text.length, ClosingFits text c) ∧
      ∀ o < text.length, ∀ c < text.length, Mark.Paired (marks text) o c → PairFits text o c) <| by
    rw [← Mark.openingsClosed_iff]
    constructor
    · intro h
      obtain ⟨openings, closings, pairs⟩ := h
      refine ⟨openings, fun c closing => ?_, fun o c hpair => ?_⟩
      · exact closings c (List.getElem?_eq_some_iff.1 closing).1 closing
      · have hlt := hpair.lt_length
        rw [length_marks] at hlt
        exact pairs o (Nat.lt_trans hpair.lt hlt) c hlt hpair
    · intro h
      exact ⟨h.openings, fun c _ => h.closings c, fun o _ c _ => h.pairs o c⟩

theorem isPlain_eq_false {c : Char} (h : c = '(' ∨ (Op.ofChar? c).isSome) : isPlain c = false := by
  cases h with
  | inl opening =>
      subst opening
      rfl
  | inr operator =>
      obtain ⟨op, hop⟩ := Option.isSome_iff_exists.1 operator
      simp only [isPlain, hop]
      rfl

theorem isPlain_of_mem_name {fn : Func} {c : Char} (h : c ∈ fn.name) : isPlain c = true := by
  have plain : fn.name.all isPlain = true := by cases fn <;> rfl
  exact List.all_eq_true.1 plain c h

namespace StartsOperand

variable {before : List Char}

theorem nil : StartsOperand [] := by
  intro c hc
  simp at hc

theorem concat {c : Char} (before : List Char) (h : c = '(' ∨ (Op.ofChar? c).isSome) :
    StartsOperand (before ++ [c]) := by
  intro c' hc
  simp only [List.getLast?_concat, Option.mem_some_iff] at hc
  rwa [← hc]

theorem cases_eq (h : StartsOperand before) :
    before = [] ∨ ∃ init c, before = init ++ [c] ∧ (c = '(' ∨ (Op.ofChar? c).isSome) := by
  cases last : before.getLast? with
  | none => exact .inl (List.getLast?_eq_none_iff.1 last)
  | some c =>
      obtain ⟨init, heq⟩ := List.getLast?_eq_some_iff.1 last
      exact .inr ⟨init, c, heq, h c last⟩

theorem append_iff (h : StartsOperand before) {text : List Char} :
    StartsOperand (before ++ text) ↔ StartsOperand text := by
  unfold StartsOperand
  rw [List.getLast?_append]
  cases last : text.getLast? with
  | none => simpa [StartsOperand] using h
  | some c => simp

theorem while_append (h : StartsOperand before) (text : List Char) :
    (before ++ text).rtakeWhile isPlain = text.rtakeWhile isPlain ∧
      (before ++ text).rdropWhile isPlain = before ++ text.rdropWhile isPlain := by
  induction text using List.reverseRecOn with
  | nil =>
      rw [List.append_nil]
      cases h.cases_eq with
      | inl empty =>
          subst empty
          exact ⟨rfl, rfl⟩
      | inr last =>
          obtain ⟨init, c, rfl, hc⟩ := last
          have plain := isPlain_eq_false hc
          rw [List.rtakeWhile_concat_neg _ _ _ (by simp [plain]),
            List.rdropWhile_concat_neg _ _ _ (by simp [plain])]
          simp
  | append_singleton text c ih =>
      rw [← List.append_assoc]
      cases plain : isPlain c with
      | true =>
          rw [List.rtakeWhile_concat_pos _ _ _ plain, List.rtakeWhile_concat_pos _ _ _ plain,
            List.rdropWhile_concat_pos _ _ _ plain, List.rdropWhile_concat_pos _ _ _ plain, ih.1,
            ih.2]
          exact ⟨rfl, rfl⟩
      | false =>
          rw [List.rtakeWhile_concat_neg _ _ _ (by simp [plain]),
            List.rtakeWhile_concat_neg _ _ _ (by simp [plain]),
            List.rdropWhile_concat_neg _ _ _ (by simp [plain]),
            List.rdropWhile_concat_neg _ _ _ (by simp [plain])]
          exact ⟨rfl, List.append_assoc ..⟩

theorem canOpen_append_iff (h : StartsOperand before) {text : List Char} :
    CanOpen (before ++ text) ↔ CanOpen text := by
  obtain ⟨taken, dropped⟩ := h.while_append text
  simp only [CanOpen, taken, dropped, h.append_iff]

end StartsOperand

theorem canOpen_nil : CanOpen [] := ⟨.inl rfl, StartsOperand.nil⟩

theorem canOpen_name (fn : Func) : CanOpen fn.name := by
  have plain : ∀ c ∈ fn.name, isPlain c = true := fun c hc => isPlain_of_mem_name hc
  refine ⟨.inr ⟨fn, List.rtakeWhile_eq_self_iff.2 plain⟩, ?_⟩
  rw [List.rdropWhile_eq_nil_iff.2 plain]
  exact StartsOperand.nil

/-- The middle of three parts can be judged alone: an operand starts with it and ends behind it, its
    opening brackets are closed in it, and none of its brackets has its match outside. A closing
    bracket may stand behind it only if it has no unmatched one itself. -/
structure Separate (before text after : List Char) : Prop where
  starts : StartsOperand before
  ends : EndsOperand (before ++ (text ++ after)) (before.length + text.length)
  closed : Mark.OpeningsClosed (marks text)
  closings : ∀ c, text[c]? = some ')' → ¬ Mark.Matched (marks text) c →
    after = [] ∨ (operatorAt? (before ++ (text ++ after)) (before.length + text.length)).isSome
  pairs : ∀ o c, c < text.length →
    Mark.Paired (marks (before ++ (text ++ after))) o (before.length + c) →
      ∃ o', o = before.length + o' ∧ Mark.Paired (marks text) o' c

namespace Separate

variable {before text after : List Char}

theorem paired {o c : Nat} (h : Mark.Paired (marks text) o c) :
    Mark.Paired (marks (before ++ (text ++ after))) (before.length + o) (before.length + c) := by
  rw [marks_append, marks_append, ← length_marks before]
  exact Mark.paired_append_right.2 (h.append _)

theorem getElem?_eq {i : Nat} (hlt : i < text.length) :
    (before ++ (text ++ after))[before.length + i]? = text[i]? := by
  simp only [List.getElem?_append_right (Nat.le_add_right _ _), Nat.add_sub_cancel_left,
    List.getElem?_append_left hlt]

theorem operatorAt?_eq {i : Nat} (hlt : i < text.length) :
    operatorAt? (before ++ (text ++ after)) (before.length + i) = operatorAt? text i := by
  simp only [operatorAt?_append_right, operatorAt?_append_left hlt]

theorem matched_iff (h : Separate before text after) {c : Nat} (closing : text[c]? = some ')') :
    Mark.Matched (marks (before ++ (text ++ after))) (before.length + c) ↔
      Mark.Matched (marks text) c := by
  have hlt : c < text.length := (List.getElem?_eq_some_iff.1 closing).1
  simp only [Mark.matched_closing_iff (getElem?_marks_closing.2 closing),
    Mark.matched_closing_iff (getElem?_marks_closing.2 ((getElem?_eq hlt).trans closing))]
  constructor
  · intro hpair
    obtain ⟨o, hpair⟩ := hpair
    obtain ⟨o', -, inside⟩ := h.pairs o c hlt hpair
    exact ⟨o', inside⟩
  · intro hpair
    obtain ⟨o, hpair⟩ := hpair
    exact ⟨before.length + o, paired hpair⟩

theorem endsOperand_iff (h : Separate before text after) {i : Nat} (hle : i ≤ text.length) :
    EndsOperand (before ++ (text ++ after)) (before.length + i) ↔ EndsOperand text i := by
  by_cases last : i = text.length
  · subst last
    exact iff_of_true h.ends (.inl rfl)
  · have hlt : i < text.length := by omega
    unfold EndsOperand
    simp only [operatorAt?_eq hlt, getElem?_eq hlt]
    refine or_congr ?_ (or_congr Iff.rfl (and_congr_right fun closing => h.matched_iff closing))
    simp only [List.length_append]
    omega

theorem operatorBetween_iff {o c : Nat} (hle : c ≤ text.length) :
    OperatorBetween (before ++ (text ++ after)) (before.length + o) (before.length + c) ↔
      OperatorBetween text o c := by
  constructor
  · intro between
    obtain ⟨i, ho, hc, operator⟩ := between
    obtain ⟨i, rfl⟩ : ∃ k, i = before.length + k := ⟨i - before.length, by omega⟩
    rw [operatorAt?_eq (by omega)] at operator
    exact ⟨i, by omega, by omega, operator⟩
  · intro between
    obtain ⟨i, ho, hc, operator⟩ := between
    refine ⟨before.length + i, by omega, by omega, ?_⟩
    rwa [operatorAt?_eq (by omega)]

theorem pairFits_iff (h : Separate before text after) {o c : Nat}
    (hpair : Mark.Paired (marks text) o c) :
    PairFits (before ++ (text ++ after)) (before.length + o) (before.length + c) ↔
      PairFits text o c := by
  have hoc := hpair.lt
  have hlt := hpair.lt_length
  rw [length_marks] at hlt
  have taken : (before ++ (text ++ after)).take (before.length + o) = before ++ text.take o := by
    rw [List.take_length_add_append, List.take_append_of_le_length (by omega)]
  simp only [PairFits, operatorBetween_iff (Nat.le_of_lt hlt), Nat.add_assoc, h.endsOperand_iff hlt,
    taken, h.starts.canOpen_append_iff]

/-- A closing bracket at the end of the part fits in neither text, unless it has a match. -/
theorem closingFits_iff (h : Separate before text after) {c : Nat} (hlt : c < text.length) :
    ClosingFits (before ++ (text ++ after)) (before.length + c) ↔ ClosingFits text c := by
  unfold ClosingFits
  rw [getElem?_eq hlt]
  refine imp_congr_right fun closing => ?_
  rw [h.matched_iff closing]
  refine imp_congr_right fun unmatched => ?_
  rw [Nat.add_assoc]
  by_cases last : c + 1 = text.length
  · refine iff_of_false ?_ (by simp [last])
    rw [last]
    intro fits
    cases h.closings c closing unmatched with
    | inl empty =>
        subst empty
        simp at fits
    | inr operator =>
        rw [fits.2] at operator
        simp at operator
  · rw [operatorAt?_eq (by omega)]
    refine and_congr_left fun _ => ?_
    simp only [List.length_append]
    omega

/-- A part of an acceptable text that can be judged alone is acceptable. -/
theorem acceptable (h : Separate before text after)
    (whole : Acceptable (before ++ (text ++ after))) : Acceptable text := by
  refine ⟨.inr h.closed, fun c closing => ?_, fun o c hpair => ?_⟩
  · have hlt : c < text.length := (List.getElem?_eq_some_iff.1 closing).1
    exact (h.closingFits_iff hlt).1 (whole.closings _) closing
  · exact (h.pairFits_iff hpair).1 (whole.pairs _ _ (paired hpair))

end Separate

/-- What may stand before brackets around a whole text. -/
def IsCallee (word : List Char) : Prop := word = [] ∨ ∃ fn : Func, word = fn.name

namespace IsCallee

variable {word text : List Char}

theorem canOpen (h : IsCallee word) : CanOpen word := by
  cases h with
  | inl empty =>
      subst empty
      exact canOpen_nil
  | inr named =>
      obtain ⟨fn, rfl⟩ := named
      exact canOpen_name fn

theorem hasBrackets_eq (h : IsCallee word) : hasBrackets word = false := by
  cases h with
  | inl empty =>
      subst empty
      rfl
  | inr named =>
      obtain ⟨fn, rfl⟩ := named
      exact fn.hasBrackets_name

theorem balanced (h : IsCallee word) : Mark.Balanced (marks word) :=
  balanced_of_not_hasBrackets h.hasBrackets_eq

theorem not_paired (h : IsCallee word) (o c : Nat) : ¬ Mark.Paired (marks word) o c := by
  intro hpair
  have neither := hasBrackets_eq_false_iff.1 h.hasBrackets_eq _
    (List.mem_of_getElem? hpair.opening)
  simp at neither

theorem paired_iff (h : IsCallee word) (balanced : Mark.Balanced (marks text)) {o c : Nat} :
    Mark.Paired (marks (word ++ wrap text)) o c ↔
      (o = word.length ∧ c = word.length + 1 + text.length) ∨
        ∃ o' c', o = word.length + 1 + o' ∧ c = word.length + 1 + c' ∧
          Mark.Paired (marks text) o' c' := by
  simp only [marks_append, marks_wrap, Mark.paired_append_iff h.balanced.openingsClosed]
  simp only [Mark.paired_wrap_iff balanced, length_marks]
  constructor
  · intro hpair
    cases hpair with
    | inl before => exact absurd before (h.not_paired o c)
    | inr behind =>
        obtain ⟨o', c', rfl, rfl, hpair⟩ := behind
        cases hpair with
        | inl outer => exact .inl (by omega)
        | inr inner =>
            obtain ⟨o, c, rfl, rfl, hpair⟩ := inner
            exact .inr ⟨o, c, by omega, by omega, hpair⟩
  · intro hpair
    refine .inr ?_
    cases hpair with
    | inl outer =>
        obtain ⟨rfl, rfl⟩ := outer
        exact ⟨0, text.length + 1, by omega, by omega, .inl ⟨rfl, rfl⟩⟩
    | inr inner =>
        obtain ⟨o, c, rfl, rfl, hpair⟩ := inner
        exact ⟨o + 1, c + 1, by omega, by omega, .inr ⟨o, c, rfl, rfl, hpair⟩⟩

theorem wrap_eq (word text : List Char) :
    word ++ wrap text = (word ++ ['(']) ++ (text ++ [')']) := by
  simp [wrap]

theorem closingFits_of_balanced (balanced : Mark.Balanced (marks text)) (c : Nat) :
    ClosingFits text c := by
  intro closing unmatched
  exact absurd (balanced.matched_closing (getElem?_marks_closing.2 closing)) unmatched

theorem separate (h : IsCallee word) (balanced : Mark.Balanced (marks text)) :
    Separate (word ++ ['(']) text [')'] := by
  have closing : ((word ++ ['(']) ++ (text ++ [')']))[(word ++ ['(']).length + text.length]? =
      some ')' := by
    simp only [List.getElem?_append_right (Nat.le_add_right _ _), Nat.add_sub_cancel_left,
      List.getElem?_concat_length]
  have matched : Mark.Matched (marks ((word ++ ['(']) ++ (text ++ [')'])))
      ((word ++ ['(']).length + text.length) := by
    rw [Mark.matched_closing_iff (getElem?_marks_closing.2 closing), ← wrap_eq]
    exact ⟨word.length, (h.paired_iff balanced).2 (.inl ⟨rfl, by simp⟩)⟩
  refine ⟨StartsOperand.concat word (.inl rfl), .inr (.inr ⟨closing, matched⟩),
    balanced.openingsClosed, fun c inside unmatched => ?_, fun o c hlt hpair => ?_⟩
  · exact absurd (balanced.matched_closing (getElem?_marks_closing.2 inside)) unmatched
  · rw [← wrap_eq, h.paired_iff balanced, List.length_append, List.length_singleton] at hpair
    cases hpair with
    | inl outer => omega
    | inr inner =>
        obtain ⟨o', c', rfl, hc, hpair⟩ := inner
        obtain rfl : c = c' := by omega
        exact ⟨o', by simp, hpair⟩

end IsCallee

/-- Brackets around a balanced text change nothing, with or without the name of a
    function before them. -/
theorem acceptable_wrap_iff {word text : List Char} (hword : IsCallee word)
    (balanced : Mark.Balanced (marks text)) :
    Acceptable (word ++ wrap text) ↔ Acceptable text := by
  have separate := hword.separate balanced
  have whole : Mark.Balanced (marks (word ++ wrap text)) := by
    simp only [marks_append, marks_wrap]
    exact hword.balanced.append balanced.wrap
  constructor
  · intro h
    rw [IsCallee.wrap_eq] at h
    exact separate.acceptable h
  · intro h
    refine ⟨.inr whole.openingsClosed, IsCallee.closingFits_of_balanced whole, fun o c hpair => ?_⟩
    cases (hword.paired_iff balanced).1 hpair with
    | inl outer =>
        obtain ⟨rfl, rfl⟩ := outer
        intro _
        refine ⟨.inl ?_, ?_⟩
        · simp only [List.length_append, length_wrap]
          omega
        · rw [List.take_left]
          exact hword.canOpen
    | inr inner =>
        obtain ⟨o, c, rfl, rfl, inside⟩ := inner
        have fits := (separate.pairFits_iff inside).2 (h.pairs o c inside)
        rwa [← IsCallee.wrap_eq, List.length_append, List.length_singleton] at fits

section

variable {left right : List Char}

theorem separate_left (closed : Mark.OpeningsClosed (marks left)) (op : Op) (right : List Char) :
    Separate [] left (op.symbol :: right) := by
  have operator : (operatorAt? (left ++ op.symbol :: right) (0 + left.length)).isSome := by
    simp only [Nat.zero_add, operatorAt?_symbol]
    rfl
  refine ⟨StartsOperand.nil, .inr (.inl operator), closed, fun _ _ _ => .inr operator,
    fun o c hlt hpair => ?_⟩
  simp only [List.nil_append, List.length_nil, Nat.zero_add, paired_link_iff closed] at hpair
  cases hpair with
  | inl inside => exact ⟨o, (Nat.zero_add o).symm, inside⟩
  | inr behind =>
      obtain ⟨_, _, -, rfl, -⟩ := behind
      omega

theorem link_eq (left : List Char) (op : Op) (right : List Char) :
    left ++ op.symbol :: right = (left ++ [op.symbol]) ++ (right ++ []) := by
  simp

theorem separate_right (hl : Mark.OpeningsClosed (marks left)) (op : Op)
    (hr : Mark.OpeningsClosed (marks right)) : Separate (left ++ [op.symbol]) right [] := by
  refine ⟨StartsOperand.concat left (.inr ?_),
    .inl (by simp only [List.append_nil, List.length_append]),
    hr, fun _ _ _ => .inl rfl, fun o c _ hpair => ?_⟩
  · rw [Op.ofChar?_symbol]
    rfl
  · rw [← link_eq, paired_link_iff hl, List.length_append, List.length_singleton] at hpair
    cases hpair with
    | inl before =>
        have hlt := before.lt_length
        rw [length_marks] at hlt
        omega
    | inr inside =>
        obtain ⟨o', c', rfl, hc, hpair⟩ := inside
        obtain rfl : c = c' := by omega
        exact ⟨o', by simp, hpair⟩

/-- An operator splits a text into two parts, if no bracket stays open in either. -/
theorem acceptable_link_iff (hl : Mark.OpeningsClosed (marks left)) (op : Op)
    (hr : Mark.OpeningsClosed (marks right)) :
    Acceptable (left ++ op.symbol :: right) ↔ Acceptable left ∧ Acceptable right := by
  have before := separate_left hl op right
  have behind := separate_right hl op hr
  have size : (left ++ [op.symbol]).length = left.length + 1 := List.length_append
  constructor
  · intro h
    exact ⟨before.acceptable h, behind.acceptable (link_eq left op right ▸ h)⟩
  · intro h
    obtain ⟨first, second⟩ := h
    refine ⟨.inr (openingsClosed_link hl op hr), fun c closing => ?_, fun o c hpair => ?_⟩
    · have hlt := (List.getElem?_eq_some_iff.1 closing).1
      simp only [List.length_append, List.length_cons] at hlt
      by_cases small : c < left.length
      · have fits := (before.closingFits_iff small).2 (first.closings c)
        simp only [List.length_nil, Nat.zero_add] at fits
        exact fits closing
      · by_cases here : c = left.length
        · subst here
          simp only [List.getElem?_append_right (Nat.le_refl _), Nat.sub_self,
            List.getElem?_cons_zero, Option.some.injEq] at closing
          have mark := op.mark_symbol
          rw [closing] at mark
          simp [Mark.ofChar] at mark
        · obtain ⟨c, rfl⟩ : ∃ k, c = left.length + 1 + k := ⟨c - left.length - 1, by omega⟩
          have fits := (behind.closingFits_iff (by omega)).2 (second.closings c)
          rw [← link_eq, size] at fits
          exact fits closing
    · cases (paired_link_iff hl op).1 hpair with
      | inl inside =>
          have fits := (before.pairFits_iff inside).2 (first.pairs o c inside)
          rwa [List.length_nil, Nat.zero_add, Nat.zero_add] at fits
      | inr inside =>
          obtain ⟨o, c, rfl, rfl, inside⟩ := inside
          have fits := (behind.pairFits_iff inside).2 (second.pairs o c inside)
          rwa [← link_eq, size] at fits

end

theorem acceptable_flatten_iff {chain : Chain (List Char)}
    (closed : ∀ operand ∈ chain.operands, Mark.OpeningsClosed (marks operand)) :
    Acceptable chain.flatten ↔ ∀ operand ∈ chain.operands, Acceptable operand := by
  have both : Mark.OpeningsClosed (marks chain.flatten) ∧
      (Acceptable chain.flatten ↔ ∀ operand ∈ chain.operands, Acceptable operand) := by
    obtain ⟨first, rest⟩ := chain
    have hfirst := closed first List.mem_cons_self
    induction rest generalizing first with
    | nil => simpa [Chain.flatten, Chain.operands] using hfirst
    | cons head rest ih =>
        have later : ∀ operand ∈ (Chain.mk head.2 rest).operands,
            Mark.OpeningsClosed (marks operand) :=
          fun operand hmem => closed operand (List.mem_cons_of_mem _ hmem)
        obtain ⟨tail, htail⟩ := ih head.2 later (later head.2 List.mem_cons_self)
        have flat : (Chain.mk first (head :: rest)).flatten =
            first ++ head.1.symbol :: (Chain.mk head.2 rest).flatten := rfl
        simp only [flat, acceptable_link_iff hfirst head.1 tail, htail]
        refine ⟨openingsClosed_link hfirst head.1 tail, ?_⟩
        simp only [Chain.operands, List.map_cons, List.forall_mem_cons]
  exact both.2

end Fluxion
