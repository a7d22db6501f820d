import Fluxion.Op

/-! # Characters of one byte

In UTF-8 a byte below 128 is a character of its own, and the bytes of all other characters are not
below 128. So a text can be split at every such byte.
-/

namespace Fluxion

/-- The bytes of a text in UTF-8. -/
def utf8 (text : List Char) : List UInt8 := text.flatMap String.utf8EncodeChar

theorem toList_toUTF8 (text : String) : text.toUTF8.data.toList = utf8 text.toList := by
  rw [String.toUTF8, ← String.utf8Encode_toList, List.utf8Encode, List.toList_data_toByteArray,
    utf8]

theorem utf8_cons (c : Char) (text : List Char) :
    utf8 (c :: text) = String.utf8EncodeChar c ++ utf8 text :=
  List.flatMap_cons

theorem utf8_append (left right : List Char) : utf8 (left ++ right) = utf8 left ++ utf8 right :=
  List.flatMap_append

theorem ofUInt8_eq_iff {b : UInt8} {c : Char} : Char.ofUInt8 b = c ↔ b.toNat = c.toNat := by
  rw [Char.ext_iff, ← UInt32.toNat_inj]
  rfl

theorem utf8EncodeChar_of_lt {c : Char} (h : c.toNat < 128) :
    String.utf8EncodeChar c = [UInt8.ofNat c.toNat] :=
  if_pos (Nat.le_of_lt_succ h)

private theorem le_toNat_ofNat {n : Nat} (low : 128 ≤ n) (high : n < 256) :
    128 ≤ (UInt8.ofNat n).toNat := by
  rwa [UInt8.toNat_ofNat_of_lt' high]

theorem le_of_mem_utf8EncodeChar {c : Char} (h : 128 ≤ c.toNat) {b : UInt8}
    (hb : b ∈ String.utf8EncodeChar c) :
    128 ≤ b.toNat := by
  have long : ¬ c.val.toNat ≤ 127 := Nat.not_le_of_lt h
  revert b
  simp only [String.utf8EncodeChar, if_neg long]
  split
  · simp only [List.forall_mem_cons]
    refine ⟨le_toNat_ofNat ?_ ?_, le_toNat_ofNat ?_ ?_, by simp⟩ <;> omega
  · split
    · simp only [List.forall_mem_cons]
      refine ⟨le_toNat_ofNat ?_ ?_, le_toNat_ofNat ?_ ?_, le_toNat_ofNat ?_ ?_, by simp⟩ <;> omega
    · simp only [List.forall_mem_cons]
      refine ⟨le_toNat_ofNat ?_ ?_, le_toNat_ofNat ?_ ?_, le_toNat_ofNat ?_ ?_,
        le_toNat_ofNat ?_ ?_, by simp⟩ <;> omega

theorem eq_of_mem_utf8EncodeChar {c : Char} {b : UInt8} (hb : b ∈ String.utf8EncodeChar c)
    (low : b.toNat < 128) :
    c = Char.ofUInt8 b ∧ String.utf8EncodeChar c = [b] := by
  have short : c.toNat < 128 := by
    refine Nat.lt_of_not_le fun long => ?_
    have := le_of_mem_utf8EncodeChar long hb
    omega
  have size : (UInt8.ofNat c.toNat).toNat = c.toNat :=
    UInt8.toNat_ofNat_of_lt' (Nat.lt_trans short (by decide))
  rw [utf8EncodeChar_of_lt short] at hb ⊢
  obtain rfl := List.mem_singleton.1 hb
  exact ⟨(ofUInt8_eq_iff.2 size).symm, rfl⟩

/-- The text is split at the character that a low byte is. -/
theorem exists_split_of_low {text : List Char} {i : Nat} {b : UInt8} (h : (utf8 text)[i]? = some b)
    (low : b.toNat < 128) :
    ∃ before after, text = before ++ Char.ofUInt8 b :: after ∧
      String.utf8EncodeChar (Char.ofUInt8 b) = [b] ∧
      (utf8 before).length = i := by
  induction text generalizing i with
  | nil => simp [utf8] at h
  | cons c text ih =>
      rw [utf8_cons] at h
      by_cases here : i < (String.utf8EncodeChar c).length
      · rw [List.getElem?_append_left here] at h
        obtain ⟨rfl, single⟩ := eq_of_mem_utf8EncodeChar (List.mem_of_getElem? h) low
        rw [single, List.length_singleton] at here
        exact ⟨[], text, rfl, single, by simp [utf8]; omega⟩
      · rw [List.getElem?_append_right (Nat.le_of_not_lt here)] at h
        obtain ⟨before, after, rfl, single, size⟩ := ih h
        refine ⟨c :: before, after, rfl, single, ?_⟩
        rw [utf8_cons, List.length_append, size]
        omega

theorem mem_of_mem_utf8 {text : List Char} {b : UInt8} (h : b ∈ utf8 text) (low : b.toNat < 128) :
    Char.ofUInt8 b ∈ text := by
  obtain ⟨i, hi⟩ := List.mem_iff_getElem?.1 h
  obtain ⟨before, after, rfl, -, -⟩ := exists_split_of_low hi low
  exact List.mem_append_right _ List.mem_cons_self

theorem getLast?_of_utf8 {text : List Char} {b : UInt8} (h : (utf8 text).getLast? = some b)
    (low : b.toNat < 128) : text.getLast? = some (Char.ofUInt8 b) := by
  rw [List.getLast?_eq_getElem?] at h
  obtain ⟨before, after, rfl, single, size⟩ := exists_split_of_low h low
  cases after with
  | nil => exact List.getLast?_concat
  | cons c after =>
      have some_bytes : 0 < (String.utf8EncodeChar c).length :=
        List.length_pos_iff.2 String.utf8EncodeChar_ne_nil
      simp only [utf8_append, utf8_cons, List.length_append, single, List.length_singleton] at size
      omega

end Fluxion
