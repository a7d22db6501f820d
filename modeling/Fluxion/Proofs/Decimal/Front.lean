import Fluxion.Proofs.Decimal.Value

/-! # The front of a literal

A literal may have any number of points, and it is read up to the second one. What is read are
digits with at most one point among them, and every digit counts by its place: ones, tens and so on
before the point, tenths and so on behind it. Digits that are missing count as zero.
-/

namespace Fluxion.Decimal

open Numeral (Digits)

theorem ofLiteral_second_point {whole fraction : List Char} (hw : '.' ∉ whole) (hf : '.' ∉ fraction)
    (rest : List Char) :
    ofLiteral (whole ++ '.' :: (fraction ++ '.' :: rest)) =
      ofLiteral (whole ++ '.' :: fraction) := by
  have ends := ne_point_of_not_mem hf
  rw [ofLiteral_point hw, ofLiteral_point hw, List.takeWhile_append_of_pos ends,
    List.takeWhile_eq_self_iff.2 ends]
  simp

theorem count_point {whole fraction : List Char} (hw : '.' ∉ whole) (hf : '.' ∉ fraction) :
    (whole ++ '.' :: fraction).count '.' = 1 := by
  rw [List.count_append, List.count_cons_self, List.count_eq_zero.2 hw, List.count_eq_zero.2 hf]

theorem exists_first_point {text : List Char} (some_point : 0 < text.count '.') :
    ∃ whole rest, text = whole ++ '.' :: rest ∧ '.' ∉ whole ∧
      text.count '.' = rest.count '.' + 1 := by
  obtain ⟨whole, rest, rfl, absent⟩ := List.eq_append_cons_of_mem (List.count_pos_iff.1 some_point)
  refine ⟨whole, rest, rfl, absent, ?_⟩
  rw [List.count_append, List.count_cons_self, List.count_eq_zero.2 absent, Nat.zero_add]

theorem exists_point {text : List Char} (one : text.count '.' = 1) :
    ∃ whole fraction, text = whole ++ '.' :: fraction ∧ '.' ∉ whole ∧ '.' ∉ fraction := by
  obtain ⟨whole, fraction, split, absent, points⟩ := exists_first_point (one ▸ Nat.one_pos)
  exact ⟨whole, fraction, split, absent, List.count_eq_zero.1 (by omega)⟩

/-- The part of a text before its second point, or the whole text if it has fewer than two. -/
inductive Front : List Char → List Char → Prop where
  | whole {text : List Char} (few : text.count '.' ≤ 1) : Front text text
  | cut {front : List Char} (one : front.count '.' = 1) (rest : List Char) :
    Front (front ++ '.' :: rest) front

theorem Front.of_second_point {whole fraction : List Char} (hw : '.' ∉ whole) (hf : '.' ∉ fraction)
    (rest : List Char) :
    Front (whole ++ '.' :: (fraction ++ '.' :: rest)) (whole ++ '.' :: fraction) := by
  rw [← List.cons_append, ← List.append_assoc]
  exact .cut (count_point hw hf) rest

theorem exists_front (text : List Char) : ∃ front, Front text front := by
  by_cases few : text.count '.' ≤ 1
  · exact ⟨text, .whole few⟩
  · obtain ⟨whole, behind, rfl, absent, points⟩ :=
      exists_first_point (by omega : 0 < text.count '.')
    obtain ⟨fraction, rest, rfl, absent', -⟩ := exists_first_point (by omega : 0 < behind.count '.')
    exact ⟨_, .of_second_point absent absent' rest⟩

namespace Front

variable {text front : List Char}

theorem count_le (h : Front text front) : front.count '.' ≤ 1 := by
  cases h with
  | whole few => exact few
  | cut one _ => exact one.le

theorem isPrefix (h : Front text front) : front <+: text := by
  cases h with
  | whole _ => exact List.prefix_refl text
  | cut _ rest => exact List.prefix_append front _

/-- The front is the longest part with at most one point that a text starts with. -/
theorem longest (h : Front text front) {other : List Char} (starts : other <+: text)
    (few : other.count '.' ≤ 1) :
    other <+: front := by
  cases h with
  | whole _ => exact starts
  | cut one rest =>
      have point : front ++ ['.'] <+: front ++ '.' :: rest := ⟨rest, by simp⟩
      cases List.prefix_or_prefix_of_prefix starts point with
      | inr beyond =>
          have points := beyond.sublist.count_le '.'
          rw [List.count_append, List.count_singleton_self] at points
          omega
      | inl within =>
          cases List.prefix_concat_iff.1 within with
          | inr inside => exact inside
          | inl all =>
              rw [all, List.count_append, List.count_singleton_self] at few
              omega

theorem unique {other : List Char} (h : Front text front) (h' : Front text other) : other = front :=
  (h.longest h'.isPrefix h'.count_le).eq_of_length_le (h'.longest h.isPrefix h.count_le).length_le

theorem ofLiteral_eq (h : Front text front) : ofLiteral text = ofLiteral front := by
  cases h with
  | whole _ => rfl
  | cut one rest =>
      obtain ⟨whole, fraction, rfl, absent, absent'⟩ := exists_point one
      rw [List.append_assoc, List.cons_append, ofLiteral_second_point absent absent']

theorem isLiteral (h : Front text front) (literal : isLiteral text = true) :
    Decimal.isLiteral front = true := by
  cases h with
  | whole _ => exact literal
  | cut _ rest =>
      rw [isLiteral_append, Bool.and_eq_true] at literal
      exact literal.1

end Front

theorem digits_of_isLiteral {text : List Char} (literal : isLiteral text = true)
    (absent : '.' ∉ text) :
    Digits text := by
  intro c hc
  have hc' := List.all_eq_true.1 literal c hc
  rw [Bool.or_eq_true, beq_iff_eq] at hc'
  exact hc'.resolve_right fun point => absent (point ▸ hc)

theorem exists_parts {text : List Char} (literal : isLiteral text = true)
    (few : text.count '.' ≤ 1) :
    ∃ whole fraction, Parts text whole fraction := by
  cases few.lt_or_eq with
  | inl none =>
      have absent := List.count_eq_zero.1 (Nat.lt_one_iff.1 none)
      exact ⟨text, [], .whole (digits_of_isLiteral literal absent)⟩
  | inr one =>
      obtain ⟨whole, fraction, rfl, absent, absent'⟩ := exists_point one
      rw [isLiteral_append, Bool.and_eq_true] at literal
      have behind : isLiteral fraction = true := literal.2
      exact ⟨whole, fraction,
        .point (digits_of_isLiteral literal.1 absent) (digits_of_isLiteral behind absent')⟩

/-- The sum of some digits, of which the first counts so much and each further one a tenth of
    the one before. -/
def digitsValue : ℚ → List Char → ℚ
  | _, [] => 0
  | unit, c :: digits => (c.toNat - '0'.toNat : Nat) * unit + digitsValue (unit / 10) digits

/-- The number that digits with at most one point stand for. A digit before the point counts ten
    times as much for every further digit before it. -/
def literalValue : List Char → ℚ
  | [] => 0
  | c :: text =>
      if c = '.' then digitsValue (1 / 10) text
      else (c.toNat - '0'.toNat : Nat) * 10 ^ (text.takeWhile Char.isDigit).length +
        literalValue text

theorem ofDigitChars_cons_zero (c : Char) (digits : List Char) :
    Nat.ofDigitChars 10 (c :: digits) 0 =
      10 ^ digits.length * (c.toNat - '0'.toNat) + Nat.ofDigitChars 10 digits 0 := by
  rw [Nat.ofDigitChars_cons, Nat.ofDigitChars_eq_ofDigitChars_zero, Nat.mul_zero, Nat.zero_add]

theorem digitsValue_eq (unit : ℚ) (digits : List Char) :
    digitsValue unit digits = unit * 10 * Nat.ofDigitChars 10 digits 0 / 10 ^ digits.length := by
  induction digits generalizing unit with
  | nil => simp [digitsValue]
  | cons c digits ih =>
      rw [digitsValue, ih, ofDigitChars_cons_zero, List.length_cons, pow_succ]
      push_cast
      field_simp

theorem literalValue_append {whole rest : List Char} (all : Digits whole)
    (ends : ∀ c ∈ rest.head?, c.isDigit = false) :
    literalValue (whole ++ rest) = Nat.ofDigitChars 10 whole 0 + literalValue rest := by
  induction whole with
  | nil => simp
  | cons c whole ih =>
      have first : c ≠ '.' := bne_iff_ne.1 (not_point (all c List.mem_cons_self))
      have behind : Digits whole := fun d hd => all d (List.mem_cons_of_mem c hd)
      rw [List.cons_append, literalValue, if_neg first, (behind.takeWhile ends).1, ih behind,
        ofDigitChars_cons_zero]
      push_cast
      ring

namespace Parts

variable {text whole fraction : List Char}

theorem literalValue_eq (h : Parts text whole fraction) :
    literalValue text = (ofDigits whole fraction).value := by
  rw [value_ofDigits]
  cases h with
  | whole all =>
      have sum := @literalValue_append _ [] all (by simp)
      rw [List.append_nil] at sum
      rw [sum]
      simp [literalValue]
  | point before behind =>
      rw [literalValue_append before (by simp), literalValue, if_pos rfl, digitsValue_eq]
      norm_num

theorem forall_point_iff (h : Parts text whole fraction) :
    (∀ c ∈ text, c = '.') ↔ whole = [] ∧ fraction = [] := by
  have empty : ∀ digits : List Char, Digits digits → (∀ c ∈ digits, c = '.') → digits = [] := by
    intro digits all points
    refine List.eq_nil_iff_forall_not_mem.2 fun c hc => ?_
    have digit := all c hc
    rw [points c hc] at digit
    exact absurd digit (by decide)
  cases h with
  | whole all =>
      constructor
      · exact fun points => ⟨empty text all points, rfl⟩
      · rintro ⟨rfl, -⟩
        simp
  | point before behind =>
      simp only [List.forall_mem_append, List.forall_mem_cons, true_and]
      constructor
      · exact fun points => ⟨empty whole before points.1, empty fraction behind points.2⟩
      · rintro ⟨rfl, rfl⟩
        simp

end Parts

end Fluxion.Decimal
