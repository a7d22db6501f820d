import Fluxion.Proofs.Expr.Reading
import Fluxion.Proofs.InPlace.Parts

/-! # Brackets by byte offsets

The counter of the search is never taken below zero, because the search has stopped before: it finds
the matching bracket from every offset. So the brackets around a text, and those of a call, are
found where its characters have them.
-/

namespace Fluxion.InPlace

open Mark (closer?)

variable {text : String}

theorem closes_eq {turn : Mark → Mark} {offsets : List Nat} {ms : List Mark}
    (h : offsets.map (fun offset => (byteMarks text)[offset]?.map turn) = ms.map some)
    (depth : Nat) :
    closes text turn (depth + 1) offsets = .ok ((closer? depth ms).bind (offsets[·]?)) := by
  induction offsets generalizing ms depth with
  | nil =>
      obtain rfl := List.map_eq_nil_iff.1 h.symm
      rfl
  | cons offset later ih =>
      obtain ⟨m, ms, rfl, here, behind⟩ := List.map_eq_cons_iff.1 h.symm
      obtain ⟨m', hm', rfl⟩ := Option.map_eq_some_iff.1 here.symm
      obtain ⟨b, hb, rfl⟩ := getElem?_byteMarks.1 hm'
      have first : byte text offset = .ok b := by rw [byte, hb]
      rw [closes, first, ok_bind]
      cases turn (Mark.ofByte b) with
      | opening =>
          rw [depthBehind, ok_bind, if_neg (Nat.succ_ne_zero _), ih behind.symm, closer?]
          cases closer? (depth + 1) ms <;> rfl
      | neither =>
          rw [depthBehind, ok_bind, if_neg (Nat.succ_ne_zero _), ih behind.symm, closer?]
          cases closer? depth ms <;> rfl
      | closing =>
          rw [depthBehind, minus_of_le (Nat.le_add_left 1 depth), Nat.add_sub_cancel, ok_bind]
          cases depth with
          | zero => rfl
          | succ depth =>
              rw [if_neg (Nat.succ_ne_zero _), ih behind.symm, closer?]
              cases closer? depth ms <;> rfl

theorem closer?_bind_getElem? {depth : Nat} {ms : List Mark} {offsets : List Nat} {f : Nat → Nat}
    (h : ∀ k < ms.length, offsets[k]? = some (f k)) :
    (closer? depth ms).bind (offsets[·]?) = (closer? depth ms).map f := by
  cases found : closer? depth ms with
  | none => rfl
  | some k => exact h k (List.getElem?_eq_some_iff.1 (Mark.closer?_eq_some_iff.1 found).2).1

theorem closes_bracket {turn : Mark → Mark} {offset : Nat} {m : Mark} {later : List Nat}
    (here : (byteMarks text)[offset]? = some m) (opening : turn m = .opening) :
    closes text turn 0 (offset :: later) = closes text turn 1 later := by
  obtain ⟨b, hb, rfl⟩ := getElem?_byteMarks.1 here
  have first : byte text offset = .ok b := by rw [byte, hb]
  rw [closes, first, ok_bind, opening, depthBehind, ok_bind, if_neg (Nat.succ_ne_zero _)]

theorem length_byteMarks (text : String) : (byteMarks text).length = text.utf8ByteSize := by
  rw [byteMarks_eq, length_utf8Marks, utf8ByteSize_eq]

theorem closes_forwards {start : Nat} (inside : start ≤ text.utf8ByteSize) :
    closes text id 1 (List.range' start (text.utf8ByteSize - start)) =
      .ok ((closer? 0 ((byteMarks text).drop start)).map (start + ·)) := by
  have bytes := length_byteMarks text
  have visits :
      (List.range' start (text.utf8ByteSize - start)).map
        (fun offset => (byteMarks text)[offset]?.map id) =
      ((byteMarks text).drop start).map some := by
    refine List.ext_getElem (by simp [bytes]) fun k hk hk' => ?_
    simp only [List.length_map, List.length_range'] at hk
    simp [List.getElem?_eq_getElem (show start + k < (byteMarks text).length by omega)]
  rw [closes_eq visits, closer?_bind_getElem?]
  intro k hk
  rw [List.length_drop] at hk
  rw [List.getElem?_range' (by omega), Nat.one_mul]

theorem closes_backwards {stop : Nat} (inside : stop ≤ text.utf8ByteSize) :
    closes text Mark.flip 1 (List.range stop).reverse =
      .ok
        ((closer? 0 (((byteMarks text).take stop).reverse.map Mark.flip)).map (stop - 1 - ·)) := by
  have bytes := length_byteMarks text
  have visits :
      (List.range stop).reverse.map (fun offset => (byteMarks text)[offset]?.map Mark.flip) =
      (((byteMarks text).take stop).reverse.map Mark.flip).map some := by
    rw [List.map_reverse, List.map_reverse, List.map_reverse]
    refine congrArg List.reverse (List.ext_getElem (by simp [bytes, inside]) fun k hk hk' => ?_)
    simp only [List.length_map, List.length_range] at hk
    simp [List.getElem?_eq_getElem (show k < (byteMarks text).length by omega)]
  rw [closes_eq visits, closer?_bind_getElem?]
  intro k hk
  simp only [List.length_map, List.length_reverse, List.length_take] at hk
  rw [List.getElem?_reverse (by simp; omega), List.length_range, List.getElem?_range (by omega)]

/-- From every offset the search finds the matching bracket, if there is one, and
    nothing goes wrong. -/
theorem matching_eq (text : String) (offset : Nat) :
    matching text offset = .ok (matchingBracket? text offset) := by
  have mark : text.toUTF8.data.toList[offset]?.map Mark.ofByte = (byteMarks text)[offset]? :=
    List.getElem?_map.symm
  change _ = Except.ok (Mark.matching? (byteMarks text) offset)
  rw [matching, mark]
  cases here : (byteMarks text)[offset]? with
  | none => simp only [Mark.matching?, here]
  | some m =>
      have size := length_byteMarks text
      have inside := (List.getElem?_eq_some_iff.1 here).1
      cases m with
      | neither => simp only [Mark.matching?, here]
      | opening =>
          have next : text.utf8ByteSize - offset = text.utf8ByteSize - (offset + 1) + 1 := by omega
          simp only [Mark.matching?, here]
          rw [next, List.range'_succ, closes_bracket here rfl, closes_forwards (by omega)]
      | closing =>
          simp only [Mark.matching?, here]
          rw [List.range_succ, List.reverse_append, List.reverse_singleton, List.singleton_append,
            closes_bracket here rfl, closes_backwards (by omega)]

variable {before inner rest init : List Char}

theorem matchingBracket?_wrap {after : List Char} (h : text.toList = before ++ wrap inner ++ after)
    (balanced : Mark.Balanced (marks inner)) :
    matchingBracket? text (size before) = some (size before + 1 + size inner) ∧
      matchingBracket? text (size before + 1 + size inner) = some (size before) := by
  have pair : Mark.Paired (byteMarks text) (size before) (size before + 1 + size inner) :=
    paired_byteMarks_iff.2 ⟨before, inner, after, h, balanced, rfl, rfl⟩
  exact ⟨pair.2, Mark.matching?_eq_some_iff.2 (.inr pair)⟩

theorem eq_of_size_eq {left left' right right' : List Char} (h : left ++ right = left' ++ right')
    (same : size left = size left') : left = left' := by
  rcases List.append_eq_append_iff.1 h with ⟨more, rfl, -⟩ | ⟨more, rfl, -⟩
  · rw [size_append] at same
    rw [size_eq_zero_iff.1 (show size more = 0 by omega), List.append_nil]
  · rw [size_append] at same
    rw [size_eq_zero_iff.1 (show size more = 0 by omega), List.append_nil]

/-- An opening bracket stands before a balanced text and a closing bracket, or it is
    never closed. -/
theorem matching_opening (h : text.toList = before ++ '(' :: rest) :
    (∃ inner after, '(' :: rest = wrap inner ++ after ∧ Mark.Balanced (marks inner) ∧
        matching text (size before) = .ok (some (size before + 1 + size inner))) ∨
      (¬ Mark.OpeningsClosed (marks ('(' :: rest)) ∧ matching text (size before) = .ok none) := by
  rw [matching_eq]
  cases found : matchingBracket? text (size before) with
  | some partner =>
      left
      have opening := getElem?_byteMarks_of_split h (utf8Marks_opening rest)
      obtain ⟨before', inner, after, split, balanced, same, rfl⟩ :=
        paired_byteMarks_iff.1 ⟨opening, found⟩
      rw [List.append_assoc] at split
      obtain rfl := eq_of_size_eq (split.symm.trans h) same
      exact ⟨inner, after, List.append_cancel_left (h.symm.trans split), balanced, rfl⟩
  | none =>
      right
      refine ⟨fun closed => ?_, rfl⟩
      obtain ⟨c, pair⟩ := closed 0 rfl
      obtain ⟨nothing, inner, after, split, balanced, empty, -⟩ := paired_marks_iff.1 pair
      obtain rfl := List.eq_nil_of_length_eq_zero empty
      have whole : text.toList = before ++ wrap inner ++ after := by
        rw [h, split, List.nil_append, List.append_assoc]
      rw [(matchingBracket?_wrap whole balanced).1] at found
      simp at found

theorem matching_last (h : text.toList = init ++ [')']) :
    (∃ before inner, text.toList = before ++ wrap inner ∧ Mark.Balanced (marks inner) ∧
        matching text (size init) = .ok (some (size before))) ∨
      (Shape.endsUnmatched text.toList = true ∧ matching text (size init) = .ok none) := by
  rw [matching_eq]
  cases found : matchingBracket? text (size init) with
  | some partner =>
      left
      have closing := getElem?_byteMarks_of_split h (utf8Marks_closing [])
      obtain ⟨before, inner, after, split, balanced, rfl, last⟩ :=
        paired_byteMarks_iff.1 ((Mark.matching?_closing_iff closing).1 found)
      have sizes := congrArg size (split.symm.trans h)
      rw [size_append, size_append, size_wrap, size_concat_closing] at sizes
      obtain rfl : after = [] := size_eq_zero_iff.1 (by omega)
      exact ⟨before, inner, by rw [split, List.append_nil], balanced, rfl⟩
  | none =>
      right
      refine ⟨Shape.endsUnmatched_iff.2 ⟨init, h, fun o pair => ?_⟩, rfl⟩
      obtain ⟨before, inner, after, split, balanced, rfl, last⟩ := paired_marks_iff.1 pair
      have lengths := congrArg List.length (split.symm.trans h)
      simp only [List.length_append, length_wrap, List.length_cons, List.length_nil] at lengths
      obtain rfl : after = [] := List.eq_nil_of_length_eq_zero (by omega)
      have sizes := congrArg size (split.symm.trans h)
      rw [size_append, size_append, size_wrap, size_nil, size_concat_closing] at sizes
      obtain last : size init = size before + 1 + size inner := by omega
      rw [last, (matchingBracket?_wrap split balanced).2] at found
      simp at found

theorem minus_one_of_concat {c : Char} (single : c.utf8Size = 1) (h : text.toList = init ++ [c]) :
    minus text.utf8ByteSize 1 = .ok (size init) := by
  have bytes : text.utf8ByteSize = size init + 1 := by
    rw [utf8ByteSize_eq, h, size_append, size_cons, single, size_nil]
  rw [bytes, minus_of_le (Nat.le_add_left 1 _), Nat.add_sub_cancel]

theorem matching_ne_last (bare : unwrap? text.toList = none)
    (first : text.toList.head? = some '(') :
    matching text 0 ≠ .ok (some (text.utf8ByteSize - 1)) := by
  intro last
  obtain ⟨rest, h⟩ := List.head?_eq_some_iff.1 first
  have open_end := @matching_opening text [] rest h
  rw [size_nil, last] at open_end
  rcases open_end with ⟨inner, after, split, balanced, partner⟩ | ⟨-, unmatched⟩
  · have partner := Option.some.inj (Except.ok.inj partner)
    rw [utf8ByteSize_eq, h, split, size_append, size_wrap] at partner
    obtain rfl : after = [] := size_eq_zero_iff.1 (by omega)
    rw [h, split, List.append_nil, unwrap?_wrap balanced] at bare
    simp at bare
  · simp at unmatched

/-- The brackets around the text are taken off as they are from its characters. -/
theorem strip_eq (text : String) :
    ∃ le, strip text = .ok ⟨String.ofList (unwrapAll text.toList), le⟩ := by
  generalize h : text.toList = chars
  fun_induction unwrapAll chars generalizing text with
  | case1 chars inner unwrapped ih =>
      subst h
      obtain ⟨h, balanced⟩ := unwrap?_eq_some_iff.1 unwrapped
      have opened : size ('(' :: inner) = 1 + size inner := size_cons '(' inner
      have last : minus text.utf8ByteSize 1 = .ok (1 + size inner) :=
        opened ▸ minus_one_of_concat rfl h
      have partner : matching text 0 = .ok (some (1 + size inner)) := by
        have found := (@matchingBracket?_wrap text [] inner [] (by simp [h]) balanced).1
        rw [matching_eq, ← size_nil, found, size_nil, Nat.zero_add]
      have part : slice text 1 (1 + size inner) = .ok (String.ofList inner) :=
        @slice_eq text ['('] inner [')'] h
      have shorter : (String.ofList inner).utf8ByteSize < text.utf8ByteSize := by
        rw [utf8ByteSize_eq, String.toList_ofList, utf8ByteSize_eq, h, size_wrap]
        omega
      obtain ⟨le, stripped⟩ := ih (String.ofList inner) String.toList_ofList
      refine ⟨Nat.le_trans le (Nat.le_of_lt shorter), ?_⟩
      rw [strip, if_pos (by rw [h]; rfl), partner, ok_bind, last, ok_bind, if_pos rfl, part,
        ok_bind, dif_pos shorter, stripped]
      rfl
  | case2 chars bare =>
      subst h
      refine ⟨Nat.le_of_eq (by rw [String.ofList_toList]), ?_⟩
      simp only [String.ofList_toList]
      by_cases first : text.toList.head? = some '('
      · have some_bytes : 1 ≤ text.utf8ByteSize := by
          obtain ⟨rest, h⟩ := List.head?_eq_some_iff.1 first
          rw [utf8ByteSize_eq, h, size_cons]
          exact Nat.le_add_right 1 _
        have open_end := matching_ne_last bare first
        rw [matching_eq] at open_end
        rw [strip, if_pos first, matching_eq, ok_bind, minus_of_le some_bytes, ok_bind,
          if_neg fun last => open_end (congrArg Except.ok last)]
      · rw [strip, if_neg first]

theorem callee?_eq_some_iff {name : List Char} {fn : Func} :
    callee? name = some fn ↔ name = fn.name := by
  constructor
  · intro h
    rw [callee?] at h
    split at h
    · simp at h
    · have same := List.find?_some h
      exact (eq_of_beq same).symm
  · intro h
    subst h
    cases fn <;> rfl

theorem wrap_unique {before before' inner inner' : List Char}
    (h : before ++ wrap inner = before' ++ wrap inner')
    (balanced : Mark.Balanced (marks inner)) (balanced' : Mark.Balanced (marks inner')) :
    before = before' ∧ inner = inner' := by
  have lengths := congrArg List.length h
  simp only [List.length_append, length_wrap] at lengths
  have pair : Mark.Paired (marks (before ++ wrap inner)) before.length
      (before.length + 1 + inner.length) :=
    paired_marks_iff.2 ⟨before, inner, [], (List.append_nil _).symm, balanced, rfl, rfl⟩
  have pair' : Mark.Paired (marks (before ++ wrap inner)) before'.length
      (before.length + 1 + inner.length) :=
    paired_marks_iff.2 ⟨before', inner', [], by rw [h, List.append_nil], balanced', rfl, by omega⟩
  obtain ⟨rfl, same⟩ := List.append_inj h (pair.opening_unique pair')
  exact ⟨rfl, List.append_cancel_right (List.cons.inj same).2⟩

theorem call?_append_wrap (before : List Char) {inner : List Char}
    (balanced : Mark.Balanced (marks inner)) :
    Shape.call? (before ++ wrap inner) = (callee? before).map (·, inner) := by
  refine Option.ext fun call => ?_
  obtain ⟨fn, argument⟩ := call
  rw [Shape.call?_eq_some_iff, Option.map_eq_some_iff]
  constructor
  · intro h
    obtain ⟨rfl, rfl⟩ := wrap_unique h.1 balanced h.2
    exact ⟨fn, callee?_eq_some_iff.2 rfl, rfl⟩
  · intro h
    obtain ⟨fn', callee, same⟩ := h
    obtain ⟨rfl, rfl⟩ := Prod.mk.inj same
    exact ⟨by rw [callee?_eq_some_iff.1 callee], balanced⟩

/-- A call is found where the characters have it, with its argument in brackets. -/
theorem call?_eq (text : String) :
    call? text =
      if Shape.endsUnmatched text.toList then .error .malformed
      else .ok
        ((Shape.call? text.toList).map fun call => (call.1, String.ofList (wrap call.2))) := by
  by_cases last : text.toList.getLast? = some ')'
  · obtain ⟨init, h⟩ := List.getLast?_eq_some_iff.1 last
    rw [call?, if_pos last, minus_one_of_concat rfl h, ok_bind]
    rcases matching_last h with ⟨before, inner, split, balanced, found⟩ | ⟨ends, unmatched⟩
    · have name : slice text 0 (size before) = .ok (String.ofList before) := by
        have part := @slice_eq text [] before (wrap inner) split
        rwa [size_nil, Nat.zero_add] at part
      have argument :
          slice text (size before) text.utf8ByteSize = .ok (String.ofList (wrap inner)) := by
        rw [utf8ByteSize_eq, split, size_append]
        exact slice_eq (split.trans (List.append_nil _).symm)
      rw [found, ok_bind]
      simp only [name, ok_bind, argument, String.toList_ofList]
      rw [split, Shape.not_endsUnmatched_of_balanced before balanced, if_neg Bool.false_ne_true,
        call?_append_wrap before balanced, Option.map_map]
      rfl
    · rw [unmatched, ok_bind, if_pos ends]
  · have closed : Shape.endsUnmatched text.toList = false := by
      refine Bool.eq_false_iff.2 fun ends => last ?_
      obtain ⟨init, h, -⟩ := Shape.endsUnmatched_iff.1 ends
      rw [h, List.getLast?_concat]
    have nocall : Shape.call? text.toList = none := by
      refine Option.eq_none_iff_forall_ne_some.2 fun call h => last ?_
      rw [(Shape.call?_eq_some_iff.1 h).1, wrap, ← List.cons_append, ← List.append_assoc,
        List.getLast?_concat]
    rw [call?, if_neg last, closed, if_neg Bool.false_ne_true, nocall]
    rfl

end Fluxion.InPlace
