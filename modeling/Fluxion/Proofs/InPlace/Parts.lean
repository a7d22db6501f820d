import Fluxion.InPlace
import Fluxion.Proofs.Bracket.Matching

/-! # Offsets and parts

An offset behind some characters is the size of these characters. Between two such offsets a text
has the part that its characters say, and its brackets are matched at the offsets where its
characters are matched.
-/

namespace Fluxion

/-- How many bytes a text takes. -/
def size (text : List Char) : Nat := (utf8 text).length

@[simp] theorem size_nil : size [] = 0 := rfl

@[simp] theorem size_cons (c : Char) (text : List Char) :
    size (c :: text) = c.utf8Size + size text := by
  rw [size, utf8_cons, List.length_append, String.length_utf8EncodeChar, size]

@[simp] theorem size_append (left right : List Char) :
    size (left ++ right) = size left + size right := by
  rw [size, utf8_append, List.length_append, size, size]

@[simp] theorem size_wrap (text : List Char) : size (wrap text) = size text + 2 := by
  simp only [wrap, size_cons, size_append, size_nil]
  change 1 + (size text + (1 + 0)) = size text + 2
  omega

theorem size_concat_closing (text : List Char) : size (text ++ [')']) = size text + 1 :=
  size_append text [')']

theorem size_eq_zero_iff {text : List Char} : size text = 0 ↔ text = [] := by
  cases text with
  | nil => simp
  | cons c text =>
      have := c.utf8Size_pos
      simp
      omega

theorem length_bytes (text : String) : text.toUTF8.data.toList.length = size text.toList := by
  rw [toList_toUTF8, size]

theorem utf8ByteSize_eq (text : String) : text.utf8ByteSize = size text.toList := by
  rw [← length_bytes]
  rfl

namespace InPlace

variable {text : String} {before part after inner : List Char}

@[simp] theorem ok_bind {α β : Type} (a : α) (f : α → Except Stop β) :
    (Except.ok a >>= f) = f a := rfl

@[simp] theorem minus_of_le {n k : Nat} (h : k ≤ n) : minus n k = .ok (n - k) := if_pos h

private theorem extract_middle (before part after : ByteArray) :
    (before ++ part ++ after).extract before.size (before.size + part.size) = part := by
  have nothing : before.extract before.size (before.size + part.size) = .empty :=
    ByteArray.extract_eq_empty_iff.2 (Nat.min_le_right _ _)
  simp [ByteArray.extract_append, nothing]

/-- A part is cut out where its characters start and stop. -/
theorem slice_eq (h : text.toList = before ++ part ++ after) :
    slice text (size before) (size before + size part) = .ok (String.ofList part) := by
  obtain rfl : text = String.ofList before ++ String.ofList part ++ String.ofList after := by
    rw [← String.toList_inj, h]
    simp
  have first : (String.ofList before).utf8ByteSize = size before := by
    rw [utf8ByteSize_eq, String.toList_ofList]
  have second : (String.ofList part).utf8ByteSize = size part := by
    rw [utf8ByteSize_eq, String.toList_ofList]
  rw [← first, ← second, slice, dif_pos]
  · refine congrArg Except.ok (String.toByteArray_inj.1 ?_)
    rw [String.toByteArray_extract, String.toByteArray_append, String.toByteArray_append]
    exact extract_middle _ _ _
  · refine ⟨Nat.le_add_right _ _, ?_, ?_⟩
    · exact String.Pos.Raw.isValid_iff_exists_append.2 ⟨_, _, String.append_assoc, rfl⟩
    · refine String.Pos.Raw.isValid_iff_exists_append.2 ⟨_, _, rfl, ?_⟩
      rw [← String.utf8ByteSize_append]
      rfl

/-- The bracket at a low byte splits the text. -/
theorem exists_split_of_mark {m : Mark} (bracket : m.isBracket = true) {offset : Nat}
    {text : List Char} (here : ((utf8 text).map Mark.ofByte)[offset]? = some m) :
    ∃ before c after, text = before ++ c :: after ∧ Mark.ofChar c = m ∧ size before = offset := by
  rw [List.getElem?_map] at here
  obtain ⟨b, hb, rfl⟩ := Option.map_eq_some_iff.1 here
  have low : b.toNat < 128 := by
    refine Nat.lt_of_not_le fun long => ?_
    rw [Mark.ofByte_of_le long] at bracket
    simp [Mark.isBracket] at bracket
  obtain ⟨before, after, rfl, -, offset⟩ := exists_split_of_low hb low
  exact ⟨before, _, after, rfl, rfl, offset⟩

/-- The marks of the bytes that the characters take. -/
def utf8Marks (text : List Char) : List Mark := (utf8 text).map Mark.ofByte

theorem byteMarks_eq (text : String) : byteMarks text = utf8Marks text.toList := by
  rw [byteMarks, toList_toUTF8, utf8Marks]

@[simp] theorem length_utf8Marks (text : List Char) : (utf8Marks text).length = size text :=
  List.length_map _

theorem utf8Marks_append (left right : List Char) :
    utf8Marks (left ++ right) = utf8Marks left ++ utf8Marks right := by
  rw [utf8Marks, utf8_append, List.map_append, utf8Marks, utf8Marks]

theorem utf8Marks_opening (text : List Char) :
    utf8Marks ('(' :: text) = .opening :: utf8Marks text := rfl

theorem utf8Marks_closing (text : List Char) :
    utf8Marks (')' :: text) = .closing :: utf8Marks text := rfl

theorem utf8Marks_wrap (inner after : List Char) :
    utf8Marks (wrap inner ++ after) =
      .opening :: (utf8Marks inner ++ .closing :: utf8Marks after) := by
  rw [wrap, List.cons_append, utf8Marks_opening, List.append_assoc, utf8Marks_append,
    List.singleton_append, utf8Marks_closing]

theorem balanced_utf8Marks_iff {text : List Char} :
    Mark.Balanced (utf8Marks text) ↔ Mark.Balanced (marks text) := by
  have same := @balanced_byteMarks_iff (String.ofList text)
  rwa [byteMarks_eq, String.toList_ofList] at same

theorem getElem?_byteMarks_of_split {m : Mark} {behind : List Mark}
    (h : text.toList = before ++ after)
    (here : utf8Marks after = m :: behind) : (byteMarks text)[size before]? = some m := by
  rw [byteMarks_eq, h, utf8Marks_append, here, ← length_utf8Marks]
  simp

theorem balanced_of_paired {before inner after : List Mark}
    (h : Mark.Paired (before ++ .opening :: (inner ++ .closing :: after)) before.length
      (before.length + 1 + inner.length)) : Mark.Balanced inner := by
  obtain ⟨before', inner', after', split, balanced, start, stop⟩ := Mark.paired_iff_split.1 h
  obtain ⟨-, split⟩ := List.append_inj split start.symm
  obtain ⟨rfl, -⟩ := List.append_inj (List.cons.inj split).2 (by omega)
  exact balanced

theorem paired_byteMarks_iff {o c : Nat} :
    Mark.Paired (byteMarks text) o c ↔
      ∃ before inner after, text.toList = before ++ wrap inner ++ after ∧
        Mark.Balanced (marks inner) ∧
        size before = o ∧ o + 1 + size inner = c := by
  rw [byteMarks_eq]
  constructor
  · intro pair
    have closing := pair.closing
    obtain ⟨before, _, rest, split, mark, rfl⟩ := exists_split_of_mark rfl pair.opening
    obtain rfl := Mark.ofChar_eq_opening.1 mark
    obtain ⟨k, rfl⟩ : ∃ k, c = size before + (k + 1) :=
      ⟨c - size before - 1, by have := pair.lt; omega⟩
    rw [split] at pair closing ⊢
    change (utf8Marks _)[_]? = _ at closing
    rw [utf8Marks_append, utf8Marks_opening, ← length_utf8Marks,
      List.getElem?_append_right (Nat.le_add_right _ _), Nat.add_sub_cancel_left,
      List.getElem?_cons_succ] at closing
    obtain ⟨inner, _, after, rfl, mark, rfl⟩ := exists_split_of_mark rfl closing
    obtain rfl := Mark.ofChar_eq_closing.1 mark
    refine ⟨before, inner, after, by simp [wrap], ?_, rfl, by omega⟩
    rw [utf8Marks_append, utf8Marks_opening, utf8Marks_append, utf8Marks_closing,
      Nat.add_comm (size inner), ← Nat.add_assoc, ← length_utf8Marks, ← length_utf8Marks] at pair
    exact balanced_utf8Marks_iff.1 (balanced_of_paired pair)
  · intro split
    obtain ⟨before, inner, after, split, balanced, rfl, rfl⟩ := split
    refine Mark.paired_iff_split.2 ⟨utf8Marks before, utf8Marks inner, utf8Marks after, ?_,
      balanced_utf8Marks_iff.2 balanced, length_utf8Marks before, by rw [length_utf8Marks]⟩
    rw [split, List.append_assoc, utf8Marks_append, utf8Marks_wrap]

end InPlace

end Fluxion
