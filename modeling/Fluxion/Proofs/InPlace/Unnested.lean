import Fluxion.Proofs.InPlace.Operators

/-! # The search jumps from one unnested operator to the next

The search for operators never stands inside a pair of brackets: it starts before all pairs, goes
over a pair in one jump, and passes over everything else byte by byte. So it comes to every
opening bracket that has no match, and to every operator with no pair around it, whatever closing
brackets are left over.
-/

namespace Fluxion

namespace Mark

variable {ms : List Mark} {i o c : Nat}

/-- No pair of brackets reaches over the position. -/
def Clear (ms : List Mark) (i : Nat) : Prop := ∀ o c, Paired ms o c → o < i → c < i

theorem clear_zero (ms : List Mark) :
    Clear ms 0 := fun _ _ _ before => absurd before (Nat.not_lt_zero _)

namespace Clear

theorem exposed (h : Clear ms i) : Exposed ms i := by
  intro o c pair around
  have := h o c pair around.1
  omega

theorem behind (h : Clear ms i) (pair : Paired ms i c) : Clear ms (c + 1) := by
  intro o' c' pair' before
  have ends := pair.lt
  rcases Nat.lt_trichotomy o' i with outside | rfl | inside
  · have := h o' c' pair' outside
    omega
  · have := pair'.closing_unique pair
    omega
  · have other := pair'.opening_ne_closing pair
    have := pair'.nested pair inside (by omega)
    omega

theorem next (h : Clear ms i) (other : ms[i]? ≠ some .opening) : Clear ms (i + 1) := by
  intro o c pair before
  have opens : o ≠ i := fun same => other (same ▸ pair.opening)
  have := h o c pair (by omega)
  omega

end Clear

theorem Paired.exists_closing (h : Paired ms i c) (opening : ms[o]? = some .opening) (after : i < o)
    (before : o < c) :
    ∃ c', Paired ms o c' := by
  obtain ⟨front, inner, rest, rfl, balanced, rfl, rfl⟩ := paired_iff_split.1 h
  obtain ⟨k, rfl⟩ : ∃ k, o = front.length + (k + 1) := ⟨o - front.length - 1, by omega⟩
  rw [List.getElem?_append_right (Nat.le_add_right _ _), Nat.add_sub_cancel_left,
    List.getElem?_cons_succ, List.getElem?_append_left (by omega)] at opening
  obtain ⟨c', pair⟩ := balanced.openingsClosed k opening
  exact ⟨_, paired_append_right.2 (paired_cons_succ.2 (pair.append _))⟩

end Mark

theorem Op.ofByte?_eq_some_iff {b : UInt8} {op : Op} :
    ofByte? b = some op ↔ b = op.symbol.toUInt8 := by
  constructor
  · intro h
    have same := ofUInt8_eq_iff.1 (symbol_of_ofChar? h).symm
    have symbol : op.symbol.toUInt8.toNat = op.symbol.toNat := by cases op <;> rfl
    rw [← UInt8.toNat_inj, same, symbol]
  · intro h
    rw [h, ofByte?_symbol]

namespace InPlace

open Mark (Paired Clear Exposed)

variable {text : String} {level : Level} {i c : Nat} {found : List Nat}

/-- An operator of the level stands at the offset. -/
def OperatorOf (level : Level) (text : String) (i : Nat) : Prop :=
  ∃ op : Op, op.level = level ∧ text.toUTF8.data.toList[i]? = some op.symbol.toUInt8

theorem operatorOf_iff {b : UInt8} (here : text.toUTF8.data.toList[i]? = some b) :
    OperatorOf level text i ↔ (Op.ofByte? b).map Op.level = some level := by
  simp only [OperatorOf, here, Option.some.injEq, ← Op.ofByte?_eq_some_iff, Option.map_eq_some_iff,
    and_comm]

theorem OperatorOf.mark (h : OperatorOf level text i) : (byteMarks text)[i]? = some .neither := by
  obtain ⟨op, -, here⟩ := h
  refine getElem?_byteMarks.2 ⟨_, here, ?_⟩
  rw [Mark.ofByte, op.ofUInt8_symbol, op.mark_symbol]

/-- The offsets, in order, of the operators of a level from one offset on that stand in no
    pair of brackets. -/
structure Lists (level : Level) (text : String) (i : Nat) (found : List Nat) : Prop where
  ordered : found.Pairwise (· < ·)
  mem_iff : ∀ j, j ∈ found ↔ i ≤ j ∧ OperatorOf level text j ∧ Exposed (byteMarks text) j

namespace Lists

theorem finish (finished : text.utf8ByteSize ≤ i) : Lists level text i [] where
  ordered := .nil
  mem_iff j := by
    simp only [List.not_mem_nil, false_iff, not_and]
    intro onwards operator
    have inside := (List.getElem?_eq_some_iff.1 operator.mark).1
    rw [length_byteMarks] at inside
    omega

/-- Nothing is missed by a jump: its ends are brackets, and a pair stands around what is
    between them. -/
theorem jump (pair : Paired (byteMarks text) i c) (h : Lists level text (c + 1) found) :
    Lists level text i found where
  ordered := h.ordered
  mem_iff j := by
    rw [h.mem_iff]
    constructor
    · intro behind
      have := pair.lt
      exact ⟨by omega, behind.2⟩
    · intro here
      obtain ⟨onwards, operator, exposed⟩ := here
      have first : j ≠ i := by
        intro same
        have mark := operator.mark
        rw [same, pair.opening] at mark
        simp at mark
      have last : j ≠ c := by
        intro same
        have mark := operator.mark
        rw [same, pair.closing] at mark
        simp at mark
      have outside := exposed i c pair
      exact ⟨by omega, operator, exposed⟩

theorem find (operator : OperatorOf level text i) (clear : Clear (byteMarks text) i)
    (h : Lists level text (i + 1) found) : Lists level text i (i :: found) where
  ordered := List.pairwise_cons.2 ⟨fun j later => ((h.mem_iff j).1 later).1, h.ordered⟩
  mem_iff j := by
    rw [List.mem_cons, h.mem_iff]
    constructor
    · rintro (rfl | later)
      · exact ⟨Nat.le_refl _, operator, clear.exposed⟩
      · exact ⟨by omega, later.2⟩
    · intro here
      by_cases same : j = i
      · exact .inl same
      · exact .inr ⟨by omega, here.2⟩

theorem pass (other : ¬ OperatorOf level text i) (h : Lists level text (i + 1) found) :
    Lists level text i found where
  ordered := h.ordered
  mem_iff j := by
    rw [h.mem_iff]
    constructor
    · intro later
      exact ⟨by omega, later.2⟩
    · intro here
      have first : j ≠ i := fun same => other (same ▸ here.2.1)
      exact ⟨by omega, here.2⟩

end Lists

/-- How a search from an offset ends: at an opening bracket without a match, or with all that
    is to be found. -/
inductive Ends (level : Level) (text : String) (i : Nat) : Except Stop (List Nat) → Prop where
  | stuck {o : Nat} (onwards : i ≤ o) (opening : (byteMarks text)[o]? = some .opening)
      (unmatched : matchingBracket? text o = none) : Ends level text i (.error .malformed)
  | done {found : List Nat}
      (matched : ∀ o, i ≤ o → (byteMarks text)[o]? = some .opening →
        ∃ c, Paired (byteMarks text) o c)
      (lists : Lists level text i found) : Ends level text i (.ok found)

namespace Ends

variable {result : Except Stop (List Nat)}

theorem jump (pair : Paired (byteMarks text) i c) (h : Ends level text (c + 1) result) :
    Ends level text i result := by
  have ends := pair.lt
  cases h with
  | stuck onwards opening unmatched => exact .stuck (by omega) opening unmatched
  | done matched lists =>
      refine .done (fun o onwards opening => ?_) (lists.jump pair)
      rcases Nat.lt_trichotomy o c with before | rfl | behind
      · by_cases first : o = i
        · exact ⟨c, first ▸ pair⟩
        · exact pair.exists_closing opening (by omega) before
      · rw [pair.closing] at opening
        simp at opening
      · exact matched o behind opening

theorem byte {b : UInt8} (here : text.toUTF8.data.toList[i]? = some b)
    (other : (byteMarks text)[i]? ≠ some .opening)
    (clear : Clear (byteMarks text) i) (h : Ends level text (i + 1) result) :
    Ends level text i
      (result.map fun later => if (Op.ofByte? b).map Op.level = some level then i ::
        later else later) := by
  cases h with
  | stuck onwards opening unmatched => exact .stuck (by omega) opening unmatched
  | done matched lists =>
      refine .done (fun o onwards opening => ?_) ?_
      · have next : o ≠ i := fun same => other (same ▸ opening)
        exact matched o (by omega) opening
      · split
        · next operator => exact lists.find ((operatorOf_iff here).2 operator) clear
        · next plain => exact lists.pass (mt (operatorOf_iff here).1 plain)

end Ends

/-- By induction on what is left of the text: one step of the search, and then the search from
    where it leads. -/
theorem ends_operators (level : Level) (clear : Clear (byteMarks text) i) :
    Ends level text i (operators text level i) := by
  induction left : text.utf8ByteSize - i using Nat.strongRecOn generalizing i with
  | ind n ih =>
      subst left
      cases here : text.toUTF8.data.toList[i]? with
      | none =>
          have finished : text.utf8ByteSize ≤ i := by
            rw [utf8ByteSize_eq, ← length_bytes]
            exact List.getElem?_eq_none_iff.1 here
          rw [operators, if_neg (Nat.not_lt_of_le finished)]
          refine .done (fun o onwards opening => ?_) (.finish finished)
          have inside := (List.getElem?_eq_some_iff.1 opening).1
          rw [length_byteMarks] at inside
          omega
      | some b =>
          have inside := lt_utf8ByteSize here
          have mark : (byteMarks text)[i]? = some (Mark.ofByte b) :=
            getElem?_byteMarks.2 ⟨b, here, rfl⟩
          by_cases opening : Mark.ofByte b = .opening
          · cases partner : matchingBracket? text i with
            | none =>
                rw [operators_stuck here opening (by rw [matching_eq, partner])]
                exact .stuck (Nat.le_refl i) (opening ▸ mark) partner
            | some c =>
                have pair : Paired (byteMarks text) i c := ⟨opening ▸ mark, partner⟩
                have onwards := pair.lt
                rw [operators_jump here opening (by rw [matching_eq, partner])
                  (Nat.le_of_lt onwards)]
                exact (ih _ (by omega) (clear.behind pair) rfl).jump pair
          · have other : (byteMarks text)[i]? ≠ some .opening :=
              fun opens => opening (Option.some.inj (mark.symm.trans opens))
            rw [operators_byte here opening]
            exact (ih _ (by omega) (clear.next other) rfl).byte here other clear

/-- Where the operators of a level among some links stand, if the links start at an offset. -/
def offsetsOf (level : Level) : Nat → List (Op × List Char) → List Nat :=
  offsetsWhere (·.level = level)

/-- Of all the operators at which the text is cut, the search finds those of its level. -/
theorem operators_of_ofText? {before rest : List Char} {chain : Chain (List Char)}
    (h : text.toList = before ++ rest) (cut : Chain.ofText? rest = some chain) :
    operators text level (size before) =
      .ok (offsetsOf level (size before + size chain.first) chain.rest) := by
  induction length : rest.length using Nat.strongRecOn generalizing before rest chain with
  | ind n ih =>
      subst length
      cases step level h with
      | finish result =>
          obtain rfl := Option.some.inj cut
          exact result
      | fail open_end =>
          exact absurd (Chain.isSome_ofText?_iff.1 (Option.isSome_iff_exists.2 ⟨chain, cut⟩))
            open_end
      | @find op rest result =>
          have next : text.toList = (before ++ [op.symbol]) ++ rest := by
            rw [h, List.append_assoc]; rfl
          obtain ⟨tail, behind, rfl⟩ :=
            Option.map_eq_some_iff.1 ((Chain.cut?_cons_op op.ofChar?_symbol rest).symm.trans cut)
          have found := ih _ (Nat.lt_succ_self _) next behind rfl
          rw [size_append, size_cons, op.utf8Size_symbol, size_nil] at result found
          rw [result, found]
          rfl
      | @pass region rest some_chars sealed result =>
          have next : text.toList = (before ++ region) ++ rest := by rw [h, List.append_assoc]
          obtain ⟨tail, behind, rfl⟩ :=
            Option.map_eq_some_iff.1 ((Chain.cut?_append sealed rest).symm.trans cut)
          rw [result, ih _ (length_lt_append some_chars rest) next behind rfl, Chain.prepend,
            size_append, size_append, Nat.add_assoc]

theorem exposed_byteMarks_iff :
    Exposed (byteMarks text) i ↔ ∀ o c, matchingBracket? text o = some c → ¬ (o < i ∧ i < c) := by
  constructor
  · intro exposed o c partner around
    cases Mark.matching?_eq_some_iff.1 partner with
    | inl pair => exact exposed o c pair around
    | inr pair =>
        have := pair.lt
        omega
  · intro outside o c pair
    exact outside o c pair.2

theorem getElem?_byteMarks_opening :
    (byteMarks text)[i]? = some .opening ↔ text.toUTF8.data.toList[i]? = some '('.toUInt8 := by
  simp only [getElem?_byteMarks, Mark.ofByte_eq_opening, exists_eq_right]

theorem operators_eq_malformed_iff :
    operators text level 0 = .error .malformed ↔
      ∃ o, text.toUTF8.data.toList[o]? = some '('.toUInt8 ∧ matchingBracket? text o = none := by
  have ends := ends_operators level (Mark.clear_zero (byteMarks text))
  generalize operators text level 0 = result at ends ⊢
  cases ends with
  | stuck onwards opening unmatched =>
      exact iff_of_true rfl ⟨_, getElem?_byteMarks_opening.1 opening, unmatched⟩
  | done matched lists =>
      refine iff_of_false (by simp) ?_
      rintro ⟨o, opening, unmatched⟩
      obtain ⟨c, pair⟩ := matched o (Nat.zero_le o) (getElem?_byteMarks_opening.2 opening)
      have found : matchingBracket? text o = some c := pair.2
      rw [unmatched] at found
      simp at found

theorem exists_lists
    (matched : ∀ o, text.toUTF8.data.toList[o]? = some '('.toUInt8 →
      (matchingBracket? text o).isSome) :
    ∃ found, operators text level 0 = .ok found ∧ Lists level text 0 found := by
  have ends := ends_operators level (Mark.clear_zero (byteMarks text))
  generalize operators text level 0 = result at ends ⊢
  cases ends with
  | stuck onwards opening unmatched =>
      have found := matched _ (getElem?_byteMarks_opening.1 opening)
      rw [unmatched] at found
      simp at found
  | done matched lists => exact ⟨_, rfl, lists⟩

theorem operators_eq_of_ofText? (text : String) (level : Level) :
    operators text level 0 =
      match Chain.ofText? text.toList with
      | some chain => .ok (offsetsOf level (size chain.first) chain.rest)
      | none => .error .malformed := by
  cases cut : Chain.ofText? text.toList with
  | some chain =>
      have found := @operators_of_ofText? text level [] text.toList chain rfl cut
      rwa [size_nil, Nat.zero_add] at found
  | none =>
      refine @operators_of_open text level [] text.toList rfl fun closed => ?_
      have some_chain := Chain.isSome_ofText?_iff.2 closed
      rw [cut] at some_chain
      simp at some_chain

/-- The search fails for an opening bracket without a match, whatever the level, and for nothing
    else. Otherwise it finds, in order, the operators of its level that stand in no pair of
    brackets, and these are the operators of its level at which the text is cut. -/
theorem operators_unnested (text : String) (level : Level) :
    let bytes := text.toUTF8.data.toList
    (operators text level 0 = .error .malformed ↔
      ∃ o, bytes[o]? = some '('.toUInt8 ∧ matchingBracket? text o = none) ∧
    ((∀ o, bytes[o]? = some '('.toUInt8 → (matchingBracket? text o).isSome) →
      ∃ found, operators text level 0 = .ok found ∧ found.Pairwise (· < ·) ∧
        ∀ i, i ∈ found ↔
          (∃ op : Op, op.level = level ∧ bytes[i]? = some op.symbol.toUInt8) ∧
            ∀ o c, matchingBracket? text o = some c → ¬ (o < i ∧ i < c)) ∧
    operators text level 0 =
      match Chain.ofText? text.toList with
      | some chain => .ok (offsetsOf level (size chain.first) chain.rest)
      | none => .error .malformed := by
  intro bytes
  refine ⟨operators_eq_malformed_iff, fun matched => ?_, operators_eq_of_ofText? text level⟩
  obtain ⟨found, result, lists⟩ := exists_lists matched
  refine ⟨found, result, lists.ordered, fun i => ?_⟩
  rw [lists.mem_iff, exposed_byteMarks_iff]
  exact and_iff_right (Nat.zero_le i)

/-- The minus between the brackets of a pair is left out, and a closing bracket without a match
    hides nothing. -/
theorem operators_unnested_leftover :
    let text := "x)+(y*2-z)^3-1"
    let bytes := text.toUTF8.data.toList
    matchingBracket? text 1 = none ∧
      (∀ o, bytes[o]? = some '('.toUInt8 → (matchingBracket? text o).isSome) ∧
      operators text .additive 0 = .ok [2, 12] ∧
      ∀ i, i ∈ [2, 12] ↔
        (∃ op : Op, op.level = .additive ∧ bytes[i]? = some op.symbol.toUInt8) ∧
          ∀ o c, matchingBracket? text o = some c → ¬ (o < i ∧ i < c) := by
  intro text bytes
  have matched : ∀ o, bytes[o]? = some '('.toUInt8 → (matchingBracket? text o).isSome := by
    have inside : ∀ o < bytes.length, bytes[o]? = some '('.toUInt8 →
        (matchingBracket? text o).isSome := by decide
    intro o opening
    exact inside o (List.getElem?_eq_some_iff.1 opening).1 opening
  have cut : Chain.ofText? text.toList =
      some ⟨"x)".toList, [(.add, "(y*2-z)".toList), (.pow, "3".toList), (.sub, "1".toList)]⟩ := by
        decide
  have result : operators text .additive 0 = .ok [2, 12] := by
    rw [(operators_unnested text .additive).2.2, cut]
    rfl
  obtain ⟨found, same, -, mem⟩ := (operators_unnested text .additive).2.1 matched
  obtain rfl := Except.ok.inj (result.symm.trans same)
  exact ⟨by decide, matched, result, mem⟩

end InPlace

end Fluxion
