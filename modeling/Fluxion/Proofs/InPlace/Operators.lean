import Fluxion.Proofs.Expr.Loosest
import Fluxion.Proofs.InPlace.Brackets

/-! # Operators by byte offsets

The search for the operators of a level goes byte by byte, also through characters of more than one
byte, and over a bracketed region in one jump. Where every opening bracket is closed it finds the
operators of that level at which the text is cut, and otherwise it fails.
-/

namespace Fluxion

theorem Op.ofByte?_of_le {b : UInt8} (h : 128 ≤ b.toNat) : ofByte? b = none := by
  cases found : ofByte? b with
  | none => rfl
  | some op =>
      have same := ofUInt8_eq_iff.1 (symbol_of_ofChar? found).symm
      rw [same] at h
      cases op <;> exact absurd h (by decide)

theorem Op.utf8Size_symbol (op : Op) : op.symbol.utf8Size = 1 := by
  cases op <;> rfl

theorem Op.utf8EncodeChar_symbol (op : Op) :
    String.utf8EncodeChar op.symbol = [op.symbol.toUInt8] := by
  cases op <;> rfl

theorem Op.ofUInt8_symbol (op : Op) : Char.ofUInt8 op.symbol.toUInt8 = op.symbol := by
  cases op <;> rfl

theorem Op.ofByte?_symbol (op : Op) : ofByte? op.symbol.toUInt8 = some op := by
  rw [ofByte?, op.ofUInt8_symbol, op.ofChar?_symbol]

namespace InPlace

open Chain (CutsOnly Sealed)

variable {text : String} {level : Level} {before rest : List Char}

theorem operators_end (h : text.toList = before) : operators text level (size before) = .ok [] := by
  rw [operators, if_neg (by rw [utf8ByteSize_eq, h]; exact Nat.lt_irrefl _)]

section

variable {offset : Nat} {b : UInt8}

theorem lt_utf8ByteSize (here : text.toUTF8.data.toList[offset]? = some b) :
    offset < text.utf8ByteSize := by
  rw [utf8ByteSize_eq, ← length_bytes]
  exact (List.getElem?_eq_some_iff.1 here).1

theorem operators_byte (here : text.toUTF8.data.toList[offset]? = some b)
    (other : Mark.ofByte b ≠ .opening) :
    operators text level offset =
      (operators text level (offset + 1)).map fun later =>
        if (Op.ofByte? b).map Op.level = some level then offset :: later else later := by
  have first : byte text offset = .ok b := by rw [byte, here]
  rw [operators, if_pos (lt_utf8ByteSize here), first, ok_bind, if_neg other]
  cases operators text level (offset + 1) <;> rfl

theorem operators_jump (here : text.toUTF8.data.toList[offset]? = some b)
    (opening : Mark.ofByte b = .opening)
    {closing : Nat} (partner : matching text offset = .ok (some closing))
    (onwards : offset ≤ closing) :
    operators text level offset = operators text level (closing + 1) := by
  have first : byte text offset = .ok b := by rw [byte, here]
  rw [operators, if_pos (lt_utf8ByteSize here), first, ok_bind, if_pos opening, partner, ok_bind]
  exact if_pos (Nat.lt_succ_of_le onwards)

theorem operators_stuck (here : text.toUTF8.data.toList[offset]? = some b)
    (opening : Mark.ofByte b = .opening) (unmatched : matching text offset = .ok none) :
    operators text level offset = .error .malformed := by
  have first : byte text offset = .ok b := by rw [byte, here]
  rw [operators, if_pos (lt_utf8ByteSize here), first, ok_bind, if_pos opening, unmatched, ok_bind]

end

/-- Bytes that are neither operators nor opening brackets are passed over. -/
theorem operators_skip {front bytes behind : List UInt8}
    (split : text.toUTF8.data.toList = front ++ bytes ++ behind)
    (plain : ∀ b ∈ bytes, Mark.ofByte b ≠ .opening ∧ Op.ofByte? b = none) :
    operators text level front.length = operators text level (front.length + bytes.length) := by
  induction bytes generalizing front with
  | nil => rfl
  | cons b bytes ih =>
      obtain ⟨⟨other, none⟩, plain⟩ := List.forall_mem_cons.1 plain
      have here : text.toUTF8.data.toList[front.length]? = some b := by
        rw [split]
        simp
      have next := @ih (front ++ [b]) (by rw [split]; simp) plain
      rw [List.length_append, List.length_singleton] at next
      rw [operators_byte here other, next, none, List.length_cons, Nat.add_assoc, Nat.add_comm 1]
      cases operators text level (front.length + (bytes.length + 1)) <;> rfl

theorem operators_char {c : Char} (h : text.toList = before ++ c :: rest)
    (other : Mark.ofChar c ≠ .opening) (none : Op.ofChar? c = none) :
    operators text level (size before) = operators text level (size (before ++ [c])) := by
  have split : text.toUTF8.data.toList = utf8 before ++ String.utf8EncodeChar c ++ utf8 rest := by
    rw [toList_toUTF8, h, utf8_append, utf8_cons, List.append_assoc]
  rw [size, operators_skip split, size_append, size_cons, ← String.length_utf8EncodeChar]
  · rfl
  · intro b hb
    by_cases low : b.toNat < 128
    · obtain ⟨rfl, -⟩ := eq_of_mem_utf8EncodeChar hb low
      exact ⟨other, none⟩
    · have high := Nat.le_of_not_lt low
      rw [Mark.ofByte_of_le high]
      exact ⟨by simp, Op.ofByte?_of_le high⟩

theorem getElem?_bytes {c : Char} {b : UInt8} (h : text.toList = before ++ c :: rest)
    (single : String.utf8EncodeChar c = [b]) : text.toUTF8.data.toList[size before]? = some b := by
  rw [toList_toUTF8, h, utf8_append, utf8_cons, single, size]
  simp

theorem byte_eq {c : Char} {b : UInt8} (h : text.toList = before ++ c :: rest)
    (single : String.utf8EncodeChar c = [b]) : byte text (size before) = .ok b := by
  rw [byte, getElem?_bytes h single]

theorem operators_symbol {op : Op} (h : text.toList = before ++ op.symbol :: rest) :
    operators text level (size before) =
      (operators text level (size (before ++ [op.symbol]))).map fun later =>
        if op.level = level then size before :: later else later := by
  have other : Mark.ofByte op.symbol.toUInt8 ≠ .opening := by
    rw [Mark.ofByte, op.ofUInt8_symbol, op.mark_symbol]
    simp
  rw [operators_byte (getElem?_bytes h op.utf8EncodeChar_symbol) other, size_append, size_cons,
    op.utf8Size_symbol, size_nil, op.ofByte?_symbol, Option.map_some]
  simp only [Option.some.injEq, Nat.add_zero]

theorem operators_region {inner : List Char} (h : text.toList = before ++ (wrap inner ++ rest))
    (partner : matching text (size before) = .ok (some (size before + 1 + size inner))) :
    operators text level (size before) = operators text level (size (before ++ wrap inner)) := by
  have behind : size before + 1 + size inner + 1 = size (before ++ wrap inner) := by
    rw [size_append, size_wrap]
    omega
  rw [operators_jump (getElem?_bytes h rfl) rfl partner (by omega), behind]

/-- What the search does with the characters that are left: it has come to the end, it fails at a
    bracket, it finds an operator, or it passes over characters between which nothing is cut. -/
inductive Step (text : String) (level : Level) (before : List Char) : List Char → Prop where
  | finish (result : operators text level (size before) = .ok []) : Step text level before []
  | fail {rest : List Char} (open_end : ¬ Mark.OpeningsClosed (marks rest))
      (result : operators text level (size before) = .error .malformed) :
        Step text level before rest
  | find (op : Op) {rest : List Char}
      (result : operators text level (size before) =
        (operators text level (size (before ++ [op.symbol]))).map fun later =>
          if op.level = level then size before :: later else later) :
      Step text level before (op.symbol :: rest)
  | pass {region rest : List Char} (some_chars : region ≠ []) (sealed : Sealed region)
      (result : operators text level (size before) =
        operators text level (size (before ++ region))) :
      Step text level before (region ++ rest)

theorem step (level : Level) (h : text.toList = before ++ rest) : Step text level before rest := by
  cases rest with
  | nil => exact .finish (operators_end (h.trans (List.append_nil _)))
  | cons c rest =>
      by_cases opening : Mark.ofChar c = .opening
      · obtain rfl := Mark.ofChar_eq_opening.1 opening
        rcases matching_opening h with ⟨inner, after, split, balanced, partner⟩ | ⟨unclosed,
          unmatched⟩
        · rw [split] at h ⊢
          exact .pass (List.cons_ne_nil _ _) (.wrap balanced) (operators_region h partner)
        · exact .fail unclosed (operators_stuck (getElem?_bytes h rfl) rfl unmatched)
      · cases found : Op.ofChar? c with
        | some op =>
            obtain rfl := Op.symbol_of_ofChar? found
            exact .find op (operators_symbol h)
        | none =>
            have plain : Sealed [c] := by
              refine .of_not_hasOperators ?_ (by simp [hasOperators, found])
              rw [Mark.openingsClosed_iff, marks_cons, marks_nil]
              cases mark : Mark.ofChar c <;> simp_all [Mark.stillOpen]
            exact .pass (List.cons_ne_nil c []) plain (operators_char h opening found)

/-- Where the wanted operators among some links stand, if the links start at an offset. -/
def offsetsWhere (wanted : Op → Prop) [DecidablePred wanted] :
    Nat → List (Op × List Char) → List Nat
  | _, [] => []
  | start, link :: links =>
      let later := offsetsWhere wanted (start + 1 + size link.2) links
      if wanted link.1 then start :: later else later

/-- Where all the operators of some links stand. -/
def offsets : Nat → List (Op × List Char) → List Nat := offsetsWhere fun _ => True

theorem offsets_nil (start : Nat) : offsets start [] = [] := rfl

theorem offsets_cons (start : Nat) (link : Op × List Char) (links : List (Op × List Char)) :
    offsets start (link :: links) = start :: offsets (start + 1 + size link.2) links := rfl

theorem length_lt_append {region : List Char} (some_chars : region ≠ []) (rest : List Char) :
    rest.length < (region ++ rest).length := by
  rw [List.length_append]
  exact Nat.lt_add_of_pos_left (List.length_pos_iff.2 some_chars)

theorem operators_of_open (h : text.toList = before ++ rest)
    (open_end : ¬ Mark.OpeningsClosed (marks rest)) :
    operators text level (size before) = .error .malformed := by
  induction length : rest.length using Nat.strongRecOn generalizing before rest with
  | ind n ih =>
      subst length
      cases step level h with
      | finish => exact absurd (Mark.openingsClosed_iff.2 rfl) open_end
      | fail _ result => exact result
      | @find op rest result =>
          have next : text.toList = (before ++ [op.symbol]) ++ rest := by
            rw [h, List.append_assoc]; rfl
          have behind : ¬ Mark.OpeningsClosed (marks rest) := fun closed =>
            open_end (CutsOnly.cons_iff.2 ⟨trivial, .of_openingsClosed closed⟩).openingsClosed
          rw [result, ih _ (Nat.lt_succ_self _) next behind rfl]
          rfl
      | @pass region rest some_chars sealed result =>
          have next : text.toList = (before ++ region) ++ rest := by rw [h, List.append_assoc]
          have behind : ¬ Mark.OpeningsClosed (marks rest) := fun closed =>
            open_end ((CutsOnly.append_iff sealed).2 (.of_openingsClosed closed)).openingsClosed
          rw [result, ih _ (length_lt_append some_chars rest) next behind rfl]

/-- Where no looser operator is cut at, the search splits the text at the operators of its level. -/
theorem operators_eq (h : text.toList = before ++ rest)
    (loosest : CutsOnly (fun op => level.tightness ≤ op.tightness) rest) :
    ∃ first links, Chain.flatten ⟨first, links⟩ = rest ∧
      CutsOnly (fun op => level.tightness < op.tightness) first ∧
      (∀ link ∈ links, link.1.level = level ∧
        CutsOnly (fun op => level.tightness < op.tightness) link.2) ∧
      operators text level (size before) = .ok (offsets (size before + size first) links) := by
  induction length : rest.length using Nat.strongRecOn generalizing before rest with
  | ind n ih =>
      subst length
      cases step level h with
      | finish result => exact ⟨[], [], rfl, .of_sealed rfl, by simp, result⟩
      | fail open_end => exact absurd loosest.openingsClosed open_end
      | @find op rest result =>
          have next : text.toList = (before ++ [op.symbol]) ++ rest := by
            rw [h, List.append_assoc]; rfl
          obtain ⟨here, loosest⟩ := CutsOnly.cons_iff.1 loosest
          obtain ⟨first, links, rfl, tight, same, found⟩ :=
            ih _ (Nat.lt_succ_self _) next loosest rfl
          rw [found, size_append, size_cons, op.utf8Size_symbol, size_nil] at result
          by_cases hlevel : op.level = level
          · refine ⟨[], (op, first) :: links, rfl, .of_sealed rfl,
              List.forall_mem_cons.2 ⟨⟨hlevel, tight⟩, same⟩, ?_⟩
            rw [result]
            simp [Except.map, hlevel, offsets_cons]
          · have tighter : level.tightness < op.tightness :=
              Nat.lt_of_le_of_ne here fun equal => hlevel (Level.tightness_injective equal).symm
            refine ⟨op.symbol :: first, links, rfl, CutsOnly.cons_iff.2 ⟨tighter, tight⟩, same, ?_⟩
            rw [result, size_cons, op.utf8Size_symbol]
            simp [Except.map, hlevel, Nat.add_assoc]
      | @pass region rest some_chars sealed result =>
          have next : text.toList = (before ++ region) ++ rest := by rw [h, List.append_assoc]
          obtain ⟨first, links, rfl, tight, same, found⟩ :=
            ih _ (length_lt_append some_chars rest) next ((CutsOnly.append_iff sealed).1 loosest)
              rfl
          refine ⟨region ++ first, links, by simp [Chain.flatten],
            (CutsOnly.append_iff sealed).2 tight, same, ?_⟩
          rw [result, found, size_append, size_append, Nat.add_assoc]

end InPlace

end Fluxion
