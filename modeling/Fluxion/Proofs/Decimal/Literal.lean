import Fluxion.Decimal
import Fluxion.Op
import Fluxion.Proofs.Bracket.Wrapping
import Fluxion.Proofs.Numeral.Grammar
import Fluxion.Text.Blank
import Mathlib.Data.List.TakeWhile

/-! # Literals

The text of a decimal is a literal of digits with at most one point, and its digits are read on both
sides of the point. A literal has no brackets, no operators and no blanks.
-/

namespace Fluxion

namespace Decimal

open Numeral (Digits)

theorem isLiteral_append (left right : List Char) :
    isLiteral (left ++ right) = (isLiteral left && isLiteral right) :=
  List.all_append

theorem isLiteral_of_isDigit {text : List Char} (h : ∀ c ∈ text, c.isDigit = true) :
    isLiteral text = true := by
  simp only [isLiteral, List.all_eq_true]
  intro c hc
  rw [h c hc]
  rfl

theorem isDigit_of_mem_toDigits {n : Nat} {c : Char} (hc : c ∈ Nat.toDigits 10 n) :
    c.isDigit = true :=
  Nat.isDigit_of_mem_toDigits (by decide) (by decide) hc

theorem fractionDigits_lt {places rest : Nat} (h : rest < Nat.pow 10 (places + 1)) :
    rest / Nat.pow 10 places < 10 := by
  have positive : 0 < Nat.pow 10 places := Nat.pow_pos (by decide)
  rw [Nat.div_lt_iff_lt_mul positive]
  simpa [Nat.pow_succ, Nat.mul_comm] using h

theorem isDigit_of_mem_fractionDigits {places rest : Nat} (h : rest < Nat.pow 10 places) {c : Char}
    (hc : c ∈ fractionDigits places rest) : c.isDigit = true := by
  induction places generalizing rest with
  | zero => simp [fractionDigits] at hc
  | succ places ih =>
      rw [fractionDigits] at hc
      split at hc
      · simp at hc
      · cases List.mem_cons.1 hc with
        | inl head =>
            rw [head, Nat.isDigit_digitChar]
            exact decide_eq_true (fractionDigits_lt h)
        | inr tail => exact ih (Nat.mod_lt rest (Nat.pow_pos (by decide))) tail

/-- A text of digits before and behind a point, or of digits only. -/
inductive Parts : List Char → List Char → List Char → Prop where
  | whole {digits : List Char} (all : Digits digits) : Parts digits digits []
  | point {whole fraction : List Char} (before : Digits whole) (behind : Digits fraction) :
      Parts (whole ++ '.' :: fraction) whole fraction

theorem not_point {c : Char} (h : c.isDigit = true) : (c != '.') = true := by
  rw [bne_iff_ne]
  intro point
  subst point
  simp at h

theorem ne_point_of_not_mem {text : List Char} (h : '.' ∉ text) :
    ∀ c ∈ text, (c != '.') = true := by
  intro c mem
  rw [bne_iff_ne]
  rintro rfl
  exact h mem

theorem ofLiteral_point {whole : List Char} (h : '.' ∉ whole) (rest : List Char) :
    ofLiteral (whole ++ '.' :: rest) = ofDigits whole (rest.takeWhile (· != '.')) := by
  rw [ofLiteral, List.takeWhile_append_of_pos (ne_point_of_not_mem h),
    List.dropWhile_append_of_pos (ne_point_of_not_mem h)]
  simp

namespace Parts

variable {text whole fraction : List Char}

theorem isLiteral (h : Parts text whole fraction) : isLiteral text = true := by
  cases h with
  | whole all => exact isLiteral_of_isDigit all
  | point before behind =>
      rw [isLiteral_append, isLiteral_of_isDigit before, Decimal.isLiteral, List.all_cons]
      exact isLiteral_of_isDigit behind

theorem ofLiteral_eq (h : Parts text whole fraction) :
    ofLiteral text = ofDigits whole fraction := by
  cases h with
  | whole all =>
      have points := fun c hc => not_point (all c hc)
      rw [ofLiteral, List.takeWhile_eq_self_iff.2 points, List.dropWhile_eq_nil_iff.2 points]
      rfl
  | point before behind =>
      have absent : '.' ∉ whole := fun point => absurd (before '.' point) (by decide)
      rw [ofLiteral_point absent, List.takeWhile_eq_self_iff.2 fun c hc => not_point (behind c hc)]

end Parts

theorem parts_text (d : Decimal) :
    Parts d.text (Nat.toDigits 10 (d.coefficient / Nat.pow 10 d.places))
      (fractionDigits d.places (d.coefficient % Nat.pow 10 d.places)) := by
  have small := Nat.mod_lt d.coefficient (Nat.pow_pos (by decide) : 0 < Nat.pow 10 d.places)
  have whole : Digits (Nat.toDigits 10 (d.coefficient / Nat.pow 10 d.places)) :=
    fun c hc => isDigit_of_mem_toDigits hc
  rw [text]
  split
  · next none =>
      have nothing : fractionDigits d.places 0 = [] := by cases d.places <;> rfl
      rw [none, nothing]
      exact .whole whole
  · exact .point whole fun c hc => isDigit_of_mem_fractionDigits small hc

theorem isLiteral_text (d : Decimal) : isLiteral d.text = true := (parts_text d).isLiteral

theorem toFloat_ofLiteral_nil : (ofLiteral []).toFloat = 0 := by
  have zero : (ofLiteral []).nearest = 0 := by
    simp [ofLiteral, ofDigits, nearest, Binary64.nearest, roundDiv]
  rw [toFloat, zero]
  decide

end Decimal

section

variable {text : List Char}

theorem toNat_of_mem_literal (h : Decimal.isLiteral text = true) {c : Char} (hc : c ∈ text) :
    (48 ≤ c.toNat ∧ c.toNat ≤ 57) ∨ c = '.' := by
  have hc := List.all_eq_true.1 h c hc
  simp only [Bool.or_eq_true, beq_iff_eq] at hc
  cases hc with
  | inl digit =>
      simp only [Char.isDigit, Bool.and_eq_true, decide_eq_true_eq, ge_iff_le,
        UInt32.le_iff_toNat_le] at digit
      exact .inl digit
  | inr point => exact .inr point

theorem hasBrackets_of_isLiteral (h : Decimal.isLiteral text = true) :
    hasBrackets text = false := by
  simp only [hasBrackets, List.any_eq_false]
  intro c hc bracket
  have range := toNat_of_mem_literal h hc
  cases hmark : Mark.ofChar c with
  | opening =>
      obtain rfl := Mark.ofChar_eq_opening.1 hmark
      simp at range
  | closing =>
      obtain rfl := Mark.ofChar_eq_closing.1 hmark
      simp at range
  | neither =>
      rw [hmark] at bracket
      simp [Mark.isBracket] at bracket

theorem hasOperators_of_isLiteral (h : Decimal.isLiteral text = true) :
    hasOperators text = false := by
  simp only [hasOperators, List.any_eq_false]
  intro c hc operator
  have range := toNat_of_mem_literal h hc
  obtain ⟨op, hop⟩ := Option.isSome_iff_exists.1 operator
  obtain rfl := Op.symbol_of_ofChar? hop
  cases op <;> simp [Op.symbol] at range

theorem removeBlanks_of_isLiteral (h : Decimal.isLiteral text = true) :
    removeBlanks text = text := by
  simp only [removeBlanks, List.filter_eq_self]
  intro c hc
  cases toNat_of_mem_literal h hc with
  | inl digit =>
      simp only [isBlank, blankRanges, List.any_cons, List.any_nil]
      simp
      omega
  | inr point =>
      subst point
      rfl

end

end Fluxion
