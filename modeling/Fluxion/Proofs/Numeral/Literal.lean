import Fluxion.Proofs.Binary64.Bits
import Fluxion.Proofs.Decimal.Front
import Fluxion.Proofs.Numeral.Scaled

/-! # Literals as numerals

The front of a literal is a numeral if it has a digit, and no numeral if it has none. In either case
the literal is read as the double that is nearest to the number its front stands for, and without a
digit that number is zero.
-/

namespace Fluxion

namespace Numeral

open Decimal (Parts)

variable {text whole fraction : List Char}

theorem unsigned_of_isLiteral (literal : Decimal.isLiteral text = true) : Unsigned text := by
  intro c first
  have range := toNat_of_mem_literal literal (List.mem_of_head? first)
  refine ⟨?_, ?_⟩ <;> rintro rfl <;> simp at range

theorem not_word_of_isLiteral (literal : Decimal.isLiteral text = true) :
    String.ofList (text.map Char.toLower) ∉ ["inf", "infinity", "nan"] := by
  intro word
  -- every word has an `n`, and a literal has no letter
  have letter : 'n' ∈ (String.ofList (text.map Char.toLower)).toList := by
    simp only [List.mem_cons, List.not_mem_nil, or_false] at word
    rcases word with h | h | h <;> rw [h] <;> decide
  rw [String.toList_ofList, List.mem_map] at letter
  obtain ⟨c, hc, lower⟩ := letter
  have alpha : c.isAlpha = true := by
    rw [← Char.isAlpha_toLower_eq_isAlpha, lower]
    rfl
  cases toNat_of_mem_literal literal hc with
  | inl digit =>
      simp only [Char.isAlpha, Char.isUpper, Char.isLower, Bool.or_eq_true, Bool.and_eq_true,
        decide_eq_true_eq, ge_iff_le, UInt32.le_iff_toNat_le, Char.toNat_val,
        Char.reduceToNat] at alpha
      omega
  | inr point =>
      rw [point] at alpha
      exact absurd alpha (by decide)

theorem magnitude?_of_parts (h : Parts text whole fraction) :
    magnitude? text =
      if whole = [] ∧
        fraction = [] then none else some (Decimal.ofDigits whole fraction).nearest := by
  unfold magnitude?
  dsimp only
  cases h with
  | whole all =>
      obtain ⟨digits, rest⟩ := @Digits.takeWhile text [] all (by simp)
      rw [List.append_nil] at digits rest
      rw [digits, rest]
      simp only [exponent?, Option.map_some, Decimal.nearestScaled_zero]
  | point before behind =>
      obtain ⟨digits, rest⟩ := @Digits.takeWhile whole ('.' :: fraction) before (by simp)
      obtain ⟨decimals, last⟩ := @Digits.takeWhile fraction [] behind (by simp)
      rw [List.append_nil] at decimals last
      rw [digits, rest]
      simp only [decimals, last, exponent?, Option.map_some, Decimal.nearestScaled_zero]

theorem read?_of_parts (h : Parts text whole fraction) :
    read? text =
      if whole = [] ∧ fraction = [] then none
      else some (.number false (Decimal.ofDigits whole fraction).nearest) := by
  have word := not_word_of_isLiteral h.isLiteral
  simp only [List.mem_cons, List.not_mem_nil, or_false, not_or] at word
  unfold read?
  rw [splitSign_of_unsigned (unsigned_of_isLiteral h.isLiteral)]
  dsimp only
  rw [if_neg (not_or.2 ⟨word.1, word.2.1⟩), if_neg word.2.2, magnitude?_of_parts h]
  split <;> rfl

end Numeral

namespace Decimal

section

variable {front : List Char} (literal : isLiteral front = true) (few : front.count '.' ≤ 1)

include literal few

theorem isNearest_ofLiteral :
    Binary64.IsNearest (ofLiteral front).nearest (literalValue front) := by
  obtain ⟨whole, fraction, parts⟩ := exists_parts literal few
  rw [parts.literalValue_eq, parts.ofLiteral_eq, ← nearest_eq_iff]

theorem read?_eq_none_iff : Numeral.read? front = none ↔ ∀ c ∈ front, c = '.' := by
  obtain ⟨whole, fraction, parts⟩ := exists_parts literal few
  rw [parts.forall_point_iff, Numeral.read?_of_parts parts]
  split <;> simp_all

/-- Where the reader of numerals fails, zero stands in for the number, and otherwise its
    number is kept. -/
theorem toFloat_ofLiteral_eq_elim :
    (ofLiteral front).toFloat = (Numeral.read? front).elim 0 Binary64.toFloat := by
  obtain ⟨whole, fraction, parts⟩ := exists_parts literal few
  rw [Numeral.read?_of_parts parts, parts.ofLiteral_eq]
  split
  · next empty =>
      obtain ⟨rfl, rfl⟩ := empty
      exact toFloat_ofLiteral_nil
  · rfl

theorem literalValue_eq_zero (points : ∀ c ∈ front, c = '.') : literalValue front = 0 := by
  obtain ⟨whole, fraction, parts⟩ := exists_parts literal few
  obtain ⟨rfl, rfl⟩ := parts.forall_point_iff.1 points
  rw [parts.literalValue_eq, value_ofDigits]
  simp

theorem toFloat_ofLiteral_eq_zero (points : ∀ c ∈ front, c = '.') :
    (ofLiteral front).toFloat = 0 := by
  rw [toFloat_ofLiteral_eq_elim literal few, (read?_eq_none_iff literal few).2 points]
  rfl

end

/-- A literal is read as the double nearest to the number that its front stands for, which is
    infinity from halfway behind the last finite double on. It is the number that the front is as a
    numeral, or zero if the front has no digit, and no other part of the literal matters. -/
theorem toFloat_ofLiteral_front {text : List Char} (literal : isLiteral text = true) :
    (∃! front, Front text front) ∧
      ∀ front, Front text front → ∃ index,
        Binary64.ofFloat (ofLiteral text).toFloat = .number false index ∧
        Binary64.IsNearest index (literalValue front) ∧
        (index = Binary64.infinity ↔ 2 ^ 1024 - 2 ^ 970 ≤ literalValue front) ∧
        (ofLiteral text).toFloat = (Numeral.read? front).elim 0 Binary64.toFloat ∧
        (Numeral.read? front = none ↔ ∀ c ∈ front, c = '.') ∧
        ((∀ c ∈ front, c = '.') → literalValue front = 0 ∧ (ofLiteral text).toFloat = 0) ∧
        ∀ other, Front other front → (ofLiteral other).toFloat = (ofLiteral text).toFloat := by
  constructor
  · obtain ⟨front, h⟩ := exists_front text
    exact ⟨front, h, fun _ h' => h.unique h'⟩
  · intro front h
    have literal := h.isLiteral literal
    have few := h.count_le
    have nearest := isNearest_ofLiteral literal few
    rw [h.ofLiteral_eq]
    refine ⟨(ofLiteral front).nearest,
      Binary64.ofFloat_toFloat false (Binary64.nearest_le_infinity _ _), nearest, ?_,
      toFloat_ofLiteral_eq_elim literal few, read?_eq_none_iff literal few, fun points =>
        ⟨literalValue_eq_zero literal few points, toFloat_ofLiteral_eq_zero literal few points⟩,
          fun other h' => ?_⟩
    · rw [← Binary64.isNearest_infinity_iff]
      exact ⟨fun infinite => infinite ▸ nearest, nearest.unique⟩
    · rw [h'.ofLiteral_eq]

/-- The number before the second point is halfway between two doubles, and the first of
    them is even. -/
theorem toFloat_ofLiteral_front_halfway :
    Binary64.ofFloat (ofLiteral "9007199254740993.0.1".toList).toFloat =
      .number false (1076 * 2 ^ 52) := by
  have one : "9007199254740993.0".toList.count '.' = 1 := by decide
  have front : Front "9007199254740993.0.1".toList "9007199254740993.0".toList := .cut one ['1']
  have number : literalValue "9007199254740993.0".toList = 2 ^ 53 + 1 := by
    simp [literalValue, digitsValue]
    norm_num
  obtain ⟨index, read, nearest, -⟩ := (toFloat_ofLiteral_front (by decide)).2 _ front
  have halfway : Binary64.IsNearest (1075 * 2 ^ 52 + 2 ^ 52) (2 ^ 53 + 1) := by
    refine Binary64.isNearest_of_halfway (by decide) (by decide) ?_
    rw [Nat.add_assoc, Binary64.value_shift (.inr (by decide)) (by decide),
      Binary64.value_shift (.inr (by decide)) (by decide)]
    norm_num
  rw [read, nearest.unique (number ▸ halfway)]
  rfl

end Decimal

end Fluxion
