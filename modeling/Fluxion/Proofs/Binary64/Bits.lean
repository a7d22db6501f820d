import Fluxion.Binary64
import Mathlib

/-! # Doubles and their bits

Every bit pattern but those of NaN is kept by the double that it makes, so a sign and an index make
a double with that sign and that index. Negation exchanges the sign and keeps the index.
-/

namespace Fluxion

open Float.Model

theorem not_isNaNBits {bits : UInt64} (h : bits.toNat % Nat.pow 2 63 ≤ Binary64.infinity) :
    @UnpackedFloat.isNaNBits Format.binary64 bits.toBitVec = false := by
  simp only [UnpackedFloat.isNaNBits, decide_eq_false_iff_not, not_and, not_not]
  intro all_ones
  have exponent : bits.toNat >>> 52 % 2 ^ 11 = 2047 := by
    have same := congrArg BitVec.toNat all_ones
    rwa [UnpackedFloat.unpackExponent_def, BitVec.extractLsb'_toNat] at same
  apply BitVec.eq_of_toNat_eq
  rw [UnpackedFloat.unpackMantissa_def, BitVec.extractLsb'_toNat]
  change bits.toNat >>> 0 % 2 ^ 52 = 0
  simp only [Nat.shiftRight_eq_div_pow, Binary64.infinity, Nat.pow_eq] at h exponent ⊢
  omega

theorem toBits_ofBits {bits : UInt64} (h : bits.toNat % Nat.pow 2 63 ≤ Binary64.infinity) :
    (Float.ofBits bits).toBits = bits := by
  apply UInt64.toBitVec_inj.1
  refine (@UnpackedFloat.pack_unpack Format.binary64 bits.toBitVec (by decide)).trans ?_
  rw [not_isNaNBits h]
  rfl

namespace Binary64

theorem toNat_mod {bits : UInt64} {negative : Bool} {index : Nat} (h : index ≤ infinity)
    (pattern : bits.toNat = (if negative then Nat.pow 2 63 else 0) + index) :
    bits.toNat % Nat.pow 2 63 = index := by
  have range : infinity < Nat.pow 2 63 := by decide
  rw [pattern]
  split
  · rw [Nat.add_mod_left, Nat.mod_eq_of_lt (by omega)]
  · rw [Nat.zero_add, Nat.mod_eq_of_lt (by omega)]

theorem ofFloat_of_toBits {x : Float} {negative : Bool} {index : Nat} (h : index ≤ infinity)
    (pattern : x.toBits.toNat = (if negative then Nat.pow 2 63 else 0) + index) :
    ofFloat x = .number negative index := by
  have range : infinity < Nat.pow 2 63 := by decide
  have sign : decide (Nat.pow 2 63 ≤ x.toBits.toNat) = negative := by
    rw [pattern]
    cases negative with
    | true => exact decide_eq_true (Nat.le_add_right _ _)
    | false => exact decide_eq_false (by simp only [Bool.false_eq_true, if_false]; omega)
  rw [ofFloat, toNat_mod h pattern, sign, if_neg (Nat.not_lt.2 h)]

theorem ofFloat_ofBits {bits : UInt64} {negative : Bool} {index : Nat} (h : index ≤ infinity)
    (pattern : bits.toNat = (if negative then Nat.pow 2 63 else 0) + index) :
    ofFloat (Float.ofBits bits) = .number negative index := by
  refine ofFloat_of_toBits h ?_
  rw [toBits_ofBits ((toNat_mod h pattern).symm ▸ h), pattern]

theorem ofFloat_toFloat (negative : Bool) {index : Nat} (h : index ≤ infinity) :
    ofFloat (number negative index).toFloat = .number negative index := by
  refine ofFloat_ofBits h (UInt64.toNat_ofNat_of_lt' ?_)
  have range : infinity < Nat.pow 2 63 := by decide
  have size : UInt64.size = Nat.pow 2 63 + Nat.pow 2 63 := by decide
  split <;> omega

theorem le_infinity_of_ofFloat {x : Float} {negative : Bool} {index : Nat}
    (h : ofFloat x = .number negative index) : index ≤ infinity := by
  simp only [ofFloat] at h
  split at h
  · simp at h
  · next bounded =>
      obtain ⟨-, rfl⟩ := Binary64.number.inj h
      exact Nat.le_of_not_lt bounded

theorem toNat_toBits {x : Float} {negative : Bool} {index : Nat}
    (h : ofFloat x = .number negative index) :
    x.toBits.toNat = (if negative then Nat.pow 2 63 else 0) + index := by
  have size : x.toBits.toNat < Nat.pow 2 63 + Nat.pow 2 63 := x.toBits.toNat_lt
  simp only [ofFloat] at h
  split at h
  · simp at h
  · obtain ⟨rfl, rfl⟩ := Binary64.number.inj h
    generalize Nat.pow 2 63 = half at size ⊢
    by_cases sign : half ≤ x.toBits.toNat
    · rw [decide_eq_true sign, if_pos rfl, Nat.mod_eq_sub_mod sign, Nat.mod_eq_of_lt (by omega)]
      omega
    · rw [decide_eq_false sign, Nat.mod_eq_of_lt (by omega)]
      simp

theorem toFloat_ofFloat {x : Float} {negative : Bool} {index : Nat}
    (h : ofFloat x = .number negative index) : (number negative index).toFloat = x := by
  rw [toFloat, ← toNat_toBits h, UInt64.ofNat_toNat, Float.ofBits_toBits]

/-- Negation exchanges the sign and keeps the other fields. -/
theorem exists_packComponents {f : UnpackedFloat} (h : f ≠ .notANumber) :
    ∃ sign exponent mantissa,
      f.pack Format.binary64 = UnpackedFloat.packComponents Format.binary64 sign exponent mantissa ∧
        f.neg.pack Format.binary64 = UnpackedFloat.packComponents Format.binary64 (-sign)
          exponent mantissa := by
  cases f with
  | notANumber => exact absurd rfl h
  | infinity sign => exact ⟨sign, _, _, rfl, rfl⟩
  | zero sign => exact ⟨sign, _, _, rfl, rfl⟩
  | finite sign mantissa exponent positive =>
      simp only [UnpackedFloat.neg, UnpackedFloat.pack]
      split
      · exact ⟨sign, _, _, rfl, rfl⟩
      · split <;> exact ⟨sign, _, _, rfl, rfl⟩

theorem toNat_packComponents (sign : UnpackedFloat.Sign) (exponent : BitVec 11)
    (mantissa : BitVec 52) :
    (UnpackedFloat.packComponents Format.binary64 sign exponent mantissa).toNat =
      (if sign == .negative then Nat.pow 2 63 else 0) + (exponent ++ mantissa).toNat := by
  change ((sign.toBitVec ++ exponent) ++ mantissa).toNat = _
  rw [BitVec.append_assoc, BitVec.toNat_cast, BitVec.toNat_append,
    ← Nat.shiftLeft_add_eq_or_of_lt (exponent ++ mantissa).isLt]
  cases sign <;> rfl

theorem ofFloat_neg {x : Float} {negative : Bool} {index : Nat}
    (h : ofFloat x = .number negative index) :
    ofFloat (-x) = .number (!negative) index := by
  have bounded := le_infinity_of_ofFloat h
  have pattern := toNat_toBits h
  have number : UnpackedFloat.unpack Format.binary64 x.toBits.toBitVec ≠ .notANumber := by
    intro nan
    have bits := (UnpackedFloat.unpack_eq_notANumber_iff_of_valid x.toModel.valid).1 nan
    have value : x.toBits.toNat = 0x7ff8000000000000 := congrArg BitVec.toNat bits
    rw [value] at pattern
    simp only [infinity, Nat.pow_eq] at bounded
    cases negative <;> simp at pattern <;> omega
  obtain ⟨sign, exponent, mantissa, bits, opposite⟩ := exists_packComponents number
  have packed : (UnpackedFloat.unpack Format.binary64 x.toBits.toBitVec).pack Format.binary64 =
      x.toBits.toBitVec :=
    UnpackedFloat.pack_unpack_of_valid x.toModel.valid
  rw [packed] at bits
  have fields : x.toBits.toNat = _ :=
    (congrArg BitVec.toNat bits).trans (toNat_packComponents sign exponent mantissa)
  have same : (exponent ++ mantissa).toNat = index ∧ (sign == .negative) = negative := by
    have small : (exponent ++ mantissa).toNat < 2 ^ 63 := (exponent ++ mantissa).isLt
    have whole := pattern.symm.trans fields
    simp only [infinity, Nat.pow_eq] at bounded whole
    cases sign <;> cases negative <;> simp at whole ⊢ <;> omega
  obtain ⟨rfl, rfl⟩ := same
  refine ofFloat_of_toBits bounded ?_
  refine ((congrArg BitVec.toNat opposite).trans
    (toNat_packComponents (-sign) exponent mantissa)).trans ?_
  cases sign <;> rfl

end Binary64

end Fluxion
