import Fluxion.Proofs.Bracket.Surplus
import Fluxion.Proofs.Bracket.Wrapping
import Fluxion.Proofs.Text.Utf8
import Fluxion.Text.Blank

/-! # The matching of brackets

From either bracket of a pair the search finds the other one, two pairs stand apart or one inside
the other, and every bracket is in a pair exactly when the brackets balance. Only the brackets
count for their balance, so it is the same for the characters of a text, with or without its
blanks, and for its bytes.
-/

namespace Fluxion

namespace Mark

/-- The marks without those that are no brackets. -/
def brackets (ms : List Mark) : List Mark := ms.filter isBracket

theorem brackets_append (left right : List Mark) :
    brackets (left ++ right) = brackets left ++ brackets right :=
  List.filter_append ..

theorem depthAfter?_brackets (depth : Nat) (ms : List Mark) :
    depthAfter? depth (brackets ms) = depthAfter? depth ms := by
  fun_induction depthAfter? depth ms with
  | case1 => rfl
  | case2 depth rest ih => exact ih
  | case3 rest => rfl
  | case4 depth rest ih => exact ih
  | case5 depth rest ih => exact ih

theorem balanced_brackets_iff {ms : List Mark} : Balanced (brackets ms) ↔ Balanced ms := by
  simp only [balanced_iff, depthAfter?_brackets]

theorem balanced_congr {left right : List Mark} (h : brackets left = brackets right) :
    Balanced left ↔ Balanced right := by
  rw [← balanced_brackets_iff, h, balanced_brackets_iff]

variable {ms : List Mark} {p q o c o' c' : Nat}

theorem matching?_eq_some_iff : matching? ms p = some q ↔ Paired ms p q ∨ Paired ms q p := by
  constructor
  · intro found
    cases here : ms[p]? with
    | none => simp [matching?, here] at found
    | some m =>
        cases m with
        | opening => exact .inl ⟨here, found⟩
        | closing => exact .inr ((matching?_closing_iff here).1 found)
        | neither => simp [matching?, here] at found
  · intro hpair
    cases hpair with
    | inl forwards => exact forwards.2
    | inr backwards => exact (matching?_closing_iff backwards.closing).2 backwards

namespace Paired

theorem opening_ne_closing (h : Paired ms o c) (h' : Paired ms o' c') : o ≠ c' := by
  intro same
  have here := h.opening
  rw [same, h'.closing] at here
  simp at here

/-- Of two pairs, one stands before the other or inside it. -/
theorem apart (h : Paired ms o c) (h' : Paired ms o' c') (other : o ≠ o') :
    c < o' ∨ c' < o ∨ (o < o' ∧ c' < c) ∨ (o' < o ∧ c < c') := by
  have first := h.opening_ne_closing h'
  have second := h'.opening_ne_closing h
  by_cases hlt : o < o'
  · by_cases inside : o' < c
    · exact .inr (.inr (.inl ⟨hlt, h'.nested h hlt inside⟩))
    · exact .inl (by omega)
  · by_cases inside : o < c'
    · exact .inr (.inr (.inr ⟨by omega, h.nested h' (by omega) inside⟩))
    · exact .inr (.inl (by omega))

end Paired

theorem Paired.count_take_le (h : Paired ms o c)
    (before : (ms.take o).count .closing ≤ (ms.take o).count .opening) :
    (ms.take (c + 1)).count .closing ≤ (ms.take (c + 1)).count .opening := by
  obtain ⟨front, inner, after, rfl, balanced, rfl, rfl⟩ := paired_iff_split.1 h
  have total := balanced.2
  have split : front ++ Mark.opening :: (inner ++ .closing :: after) =
      (front ++ .opening :: (inner ++ [.closing])) ++ after := by simp
  rw [List.take_left] at before
  rw [split, List.take_left' (by simp; omega)]
  simp only [List.count_append, List.count_cons, List.count_nil, beq_self_eq_true, reduceCtorEq,
    beq_iff_eq, if_false, if_true]
  omega

/-- Where every closing bracket has a match, no prefix closes more than it opens. The induction goes
    from the end of a pair to the marks before it. -/
theorem count_closing_take_le (matched : ∀ c, ms[c]? = some .closing → Matched ms c) (n : Nat) :
    (ms.take n).count .closing ≤ (ms.take n).count .opening := by
  induction n using Nat.strongRecOn with
  | ind n ih =>
      cases n with
      | zero => simp
      | succ n =>
          have before := ih n (Nat.lt_succ_self n)
          cases here : ms[n]? with
          | none => simpa [List.take_add_one, here] using before
          | some m =>
              cases m with
              | opening =>
                  simp only [List.take_add_one, here, Option.toList_some, List.count_append,
                    List.count_singleton, beq_self_eq_true, reduceCtorEq, beq_iff_eq, if_false,
                    if_true]
                  omega
              | neither => simpa [List.take_add_one, here] using before
              | closing =>
                  obtain ⟨o, hpair⟩ := (matched_closing_iff here).1 (matched n here)
                  exact hpair.count_take_le (ih o (by have := hpair.lt; omega))

/-- Brackets balance if and only if each of them has a match. -/
theorem balanced_iff_matched :
    Balanced ms ↔ ∀ p m, ms[p]? = some m → m.isBracket = true → Matched ms p := by
  constructor
  · intro balanced p m here bracket
    cases m with
    | opening =>
        obtain ⟨c, hpair⟩ := balanced.openingsClosed p here
        exact Option.isSome_iff_exists.2 ⟨c, hpair.2⟩
    | closing => exact balanced.matched_closing here
    | neither => simp [isBracket] at bracket
  · intro matched
    have openings : OpeningsClosed ms := by
      intro o here
      obtain ⟨c, hc⟩ := Option.isSome_iff_exists.1 (matched o _ here rfl)
      exact ⟨c, here, hc⟩
    have closings := count_closing_take_le (fun c here => matched c _ here rfl) ms.length
    rw [List.take_length] at closings
    exact openings.balanced_iff_count.2 (Nat.le_antisymm closings openings.count_le)

end Mark

theorem isBlank_of_isBracket {c : Char} (h : (Mark.ofChar c).isBracket = true) :
    isBlank c = false := by
  cases mark : Mark.ofChar c with
  | opening =>
      obtain rfl := Mark.ofChar_eq_opening.1 mark
      rfl
  | closing =>
      obtain rfl := Mark.ofChar_eq_closing.1 mark
      rfl
  | neither =>
      rw [mark] at h
      simp [Mark.isBracket] at h

theorem brackets_marks_removeBlanks (text : List Char) :
    Mark.brackets (marks (removeBlanks text)) = Mark.brackets (marks text) := by
  simp only [Mark.brackets, marks, removeBlanks, List.filter_map, List.filter_filter]
  congr 1
  refine List.filter_congr fun c _ => ?_
  cases bracket : (Mark.ofChar c).isBracket with
  | true => simp [isBlank_of_isBracket bracket, bracket]
  | false => simp [bracket]

theorem balanced_removeBlanks_iff {text : List Char} :
    Mark.Balanced (marks (removeBlanks text)) ↔ Mark.Balanced (marks text) :=
  Mark.balanced_congr (brackets_marks_removeBlanks text)

/-- The marks of a text, byte by byte. -/
def byteMarks (text : String) : List Mark := text.toUTF8.data.toList.map Mark.ofByte

namespace Mark

theorem ofByte_eq_opening {b : UInt8} : ofByte b = .opening ↔ b = '('.toUInt8 := by
  rw [ofByte, ofChar_eq_opening, ofUInt8_eq_iff, ← UInt8.toNat_inj]
  rfl

theorem ofByte_eq_closing {b : UInt8} : ofByte b = .closing ↔ b = ')'.toUInt8 := by
  rw [ofByte, ofChar_eq_closing, ofUInt8_eq_iff, ← UInt8.toNat_inj]
  rfl

theorem ofByte_of_le {b : UInt8} (h : 128 ≤ b.toNat) : ofByte b = .neither := by
  cases hmark : ofByte b with
  | neither => rfl
  | opening =>
      rw [ofByte_eq_opening.1 hmark] at h
      exact absurd h (by decide)
  | closing =>
      rw [ofByte_eq_closing.1 hmark] at h
      exact absurd h (by decide)

theorem ofByte_ofNat_toNat {c : Char} (h : c.toNat < 128) :
    ofByte (UInt8.ofNat c.toNat) = ofChar c := by
  have size : (UInt8.ofNat c.toNat).toNat = c.toNat :=
    UInt8.toNat_ofNat_of_lt' (by rw [UInt8.size]; omega)
  rw [ofByte, ofUInt8_eq_iff.2 size]

theorem ofChar_of_le {c : Char} (h : 128 ≤ c.toNat) : ofChar c = .neither := by
  cases hmark : ofChar c with
  | neither => rfl
  | opening =>
      rw [ofChar_eq_opening.1 hmark] at h
      simp at h
  | closing =>
      rw [ofChar_eq_closing.1 hmark] at h
      simp at h

theorem brackets_utf8EncodeChar (c : Char) :
    brackets ((String.utf8EncodeChar c).map ofByte) = brackets [ofChar c] := by
  by_cases short : c.toNat < 128
  · rw [utf8EncodeChar_of_lt short, List.map_singleton, ofByte_ofNat_toNat short]
  · have long := Nat.le_of_not_lt short
    have none : ∀ m ∈ (String.utf8EncodeChar c).map ofByte, m = .neither := by
      intro m hm
      obtain ⟨b, hb, rfl⟩ := List.mem_map.1 hm
      exact ofByte_of_le (le_of_mem_utf8EncodeChar long hb)
    rw [ofChar_of_le long]
    exact List.filter_eq_nil_iff.2 fun m hm => by simp [none m hm, isBracket]

end Mark

theorem brackets_byteMarks (text : String) :
    Mark.brackets (byteMarks text) = Mark.brackets (marks text.toList) := by
  rw [byteMarks, toList_toUTF8]
  generalize text.toList = chars
  induction chars with
  | nil => rfl
  | cons c chars ih =>
      rw [utf8_cons, List.map_append, Mark.brackets_append, ih,
        Mark.brackets_utf8EncodeChar, ← Mark.brackets_append]
      rfl

theorem balanced_byteMarks_iff {text : String} :
    Mark.Balanced (byteMarks text) ↔ Mark.Balanced (marks text.toList) :=
  Mark.balanced_congr (brackets_byteMarks text)

theorem isBracket_ofByte_iff {b : UInt8} :
    (Mark.ofByte b).isBracket = true ↔ b = '('.toUInt8 ∨ b = ')'.toUInt8 := by
  rw [← Mark.ofByte_eq_opening, ← Mark.ofByte_eq_closing]
  cases Mark.ofByte b <;> simp [Mark.isBracket]

theorem getElem?_byteMarks {text : String} {i : Nat} {m : Mark} :
    (byteMarks text)[i]? = some m ↔
      ∃ b, text.toUTF8.data.toList[i]? = some b ∧ Mark.ofByte b = m := by
  rw [byteMarks, List.getElem?_map, Option.map_eq_some_iff]

/-- Both searches find the pairs of one matching. Its pairs do not cross, and it leaves no bracket
    out if and only if the brackets balance. -/
theorem matchingBracket?_matching (text : String) :
    (∀ p q, matchingBracket? text p = some q →
      p ≠ q ∧ text.toUTF8.data.toList[min p q]? = some '('.toUInt8 ∧
        text.toUTF8.data.toList[max p q]? = some ')'.toUInt8 ∧ matchingBracket? text q = some p) ∧
    (∀ p q p' q', matchingBracket? text p = some q → matchingBracket? text p' = some q' →
      p' ≠ p → p' ≠ q →
        max p q < min p' q' ∨ max p' q' < min p q ∨
          (min p q < min p' q' ∧ max p' q' < max p q) ∨
            (min p' q' < min p q ∧ max p q < max p' q')) ∧
    ((∀ p b, text.toUTF8.data.toList[p]? = some b → b = '('.toUInt8 ∨ b = ')'.toUInt8 →
        (matchingBracket? text p).isSome) ↔
      Mark.Balanced (marks text.toList)) := by
  have pairs : ∀ {p q}, matchingBracket? text p = some q →
      ∃ o c, Mark.Paired (byteMarks text) o c ∧ (p = o ∧ q = c ∨ p = c ∧ q = o) := by
    intro p q found
    cases Mark.matching?_eq_some_iff.1 found with
    | inl forwards => exact ⟨p, q, forwards, .inl ⟨rfl, rfl⟩⟩
    | inr backwards => exact ⟨q, p, backwards, .inr ⟨rfl, rfl⟩⟩
  have span : ∀ {p q o c}, Mark.Paired (byteMarks text) o c → (p = o ∧ q = c ∨ p = c ∧ q = o) →
      min p q = o ∧ max p q = c := by
    intro p q o c hpair ends
    have := hpair.lt
    omega
  refine ⟨fun p q found => ?_, fun p q p' q' found found' hp hq => ?_, ?_⟩
  · obtain ⟨o, c, hpair, ends⟩ := pairs found
    obtain ⟨lower, upper⟩ := span hpair ends
    have distinct := hpair.lt
    obtain ⟨b, hb, opening⟩ := getElem?_byteMarks.1 hpair.opening
    obtain ⟨b', hb', closing⟩ := getElem?_byteMarks.1 hpair.closing
    rw [lower, upper, hb, hb', Mark.ofByte_eq_opening.1 opening, Mark.ofByte_eq_closing.1 closing]
    exact ⟨by omega, rfl, rfl,
      Mark.matching?_eq_some_iff.2 (Mark.matching?_eq_some_iff.1 found).symm⟩
  · obtain ⟨o, c, hpair, ends⟩ := pairs found
    obtain ⟨o', c', hpair', ends'⟩ := pairs found'
    rw [(span hpair ends).1, (span hpair ends).2, (span hpair' ends').1, (span hpair' ends').2]
    refine hpair.apart hpair' fun same => ?_
    subst same
    have := hpair.closing_unique hpair'
    omega
  · rw [← balanced_byteMarks_iff, Mark.balanced_iff_matched]
    constructor
    · intro matched p m here bracket
      obtain ⟨b, hb, rfl⟩ := getElem?_byteMarks.1 here
      exact matched p b hb (isBracket_ofByte_iff.1 bracket)
    · intro matched p b hb bracket
      exact matched p _ (getElem?_byteMarks.2 ⟨b, hb, rfl⟩) (isBracket_ofByte_iff.2 bracket)

end Fluxion
