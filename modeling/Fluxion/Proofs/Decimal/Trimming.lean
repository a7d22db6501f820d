import Fluxion.Expr.Printer
import Fluxion.Proofs.Decimal.Literal
import Mathlib.Data.List.DropRight

/-! # Trimming a text with a fixed number of places

With all its places a decimal has the digits of its shortest text and then zeros. Cutting these
off stops at the last digit of the fraction, or else at the point, which is cut off as well. The
digits before the point stay, also if they end in zeros. So what is left of the text of a constant
is a sign and the shortest text of its decimal, and the words for infinity and for what is no
number are not touched.
-/

namespace Fluxion

namespace Decimal

theorem fractionDigits_eq_nil_iff {places rest : Nat} (h : rest < Nat.pow 10 places) :
    fractionDigits places rest = [] ↔ rest = 0 := by
  cases places with
  | zero => simpa [fractionDigits] using h
  | succ places =>
      rw [fractionDigits]
      split <;> simp [*]

theorem getLast?_fractionDigits {places rest : Nat} (h : rest < Nat.pow 10 places) :
    (fractionDigits places rest).getLast? ≠ some '0' := by
  induction places generalizing rest with
  | zero => simp [fractionDigits]
  | succ places ih =>
      have positive : 0 < Nat.pow 10 places := Nat.pow_pos (by decide)
      have behind := ih (Nat.mod_lt rest positive)
      rw [fractionDigits]
      split
      · simp
      · next nonzero =>
          cases tail : fractionDigits places (rest % Nat.pow 10 places) with
          | cons c digits =>
              rw [List.getLast?_cons_cons, ← tail]
              exact behind
          | nil =>
              -- nothing is left, so the digit is all that there was
              have none := (fractionDigits_eq_nil_iff (Nat.mod_lt rest positive)).1 tail
              rw [List.getLast?_singleton, ne_eq, Option.some.injEq, Nat.digitChar_eq_zero]
              intro zero
              have whole := Nat.div_add_mod rest (Nat.pow 10 places)
              rw [none, zero] at whole
              exact nonzero whole.symm

theorem placedDigits_zero (places : Nat) : placedDigits places 0 = List.replicate places '0' := by
  induction places with
  | zero => rfl
  | succ places ih =>
      rw [placedDigits, Nat.zero_div, Nat.zero_mod, ih, List.replicate_succ]
      rfl

theorem placedDigits_eq {places rest : Nat} (h : rest < Nat.pow 10 places) :
    ∃ zeros, placedDigits places rest =
      fractionDigits places rest ++ List.replicate zeros '0' := by
  induction places generalizing rest with
  | zero => exact ⟨0, rfl⟩
  | succ places ih =>
      rw [fractionDigits]
      split
      · next none => exact ⟨places + 1, by rw [none, placedDigits_zero, List.nil_append]⟩
      · obtain ⟨zeros, digits⟩ := ih (Nat.mod_lt rest (Nat.pow_pos (by decide)))
        exact ⟨zeros, by rw [placedDigits, digits, List.cons_append]⟩

theorem trimEnd_isPrefix (c : Char) (text : List Char) : trimEnd c text <+: text :=
  List.rdropWhile_prefix _ text

theorem trimEnd_of_getLast? {c : Char} {text : List Char} (h : text.getLast? ≠ some c) :
    trimEnd c text = text := by
  refine List.rdropWhile_eq_self_iff.2 fun some_char last => h ?_
  rw [List.getLast?_eq_some_getLast some_char, beq_iff_eq.1 last]

theorem trimEnd_replicate (c : Char) (text : List Char) (n : Nat) :
    trimEnd c (text ++ List.replicate n c) = trimEnd c text := by
  induction n with
  | zero => rw [List.replicate_zero, List.append_nil]
  | succ n ih =>
      rw [List.replicate_succ', ← List.append_assoc, ← ih]
      exact List.rdropWhile_concat_pos _ _ _ (beq_self_eq_true c)

theorem trimEnd_append_of_getLast? {c : Char} (front : List Char) {back : List Char}
    (some_char : back ≠ []) (h : back.getLast? ≠ some c) :
    trimEnd c (front ++ back) = front ++ back := by
  apply trimEnd_of_getLast?
  rwa [List.getLast?_append_of_ne_nil _ some_char]

theorem getLast?_ne_of_isDigit {text : List Char} (all : ∀ c ∈ text, c.isDigit = true) :
    text.getLast? ≠ some '.' := by
  intro last
  exact absurd (all '.' (List.mem_of_getLast? last)) (by decide)

theorem trimPlaces_of_not_mem {text : List Char} (absent : '.' ∉ text) : trimPlaces text = text :=
  if_neg fun point => absent (List.contains_iff_mem.1 point)

theorem trimPlaces_of_mem {text kept : List Char} (point : '.' ∈ text)
    (h : trimEnd '.' (trimEnd '0' text) = kept) : trimPlaces text = kept := by
  have starts := (trimEnd_isPrefix '.' (trimEnd '0' text)).trans (trimEnd_isPrefix '0' text)
  rw [trimPlaces, if_pos (List.contains_iff_mem.2 point), ← List.prefix_iff_eq_take.1 starts, h]

/-- Only the zeros behind the point go, and the point if no digit is left behind it. -/
theorem trimPlaces_fullText (sign : List Char) {d : Decimal} (places : d.places ≠ 0) :
    trimPlaces (sign ++ d.fullText) = sign ++ d.text := by
  have small : d.coefficient % Nat.pow 10 d.places < Nat.pow 10 d.places :=
    Nat.mod_lt _ (Nat.pow_pos (by decide))
  obtain ⟨zeros, digits⟩ := placedDigits_eq small
  have full : sign ++ d.fullText = sign ++ Nat.toDigits 10 (d.coefficient / Nat.pow 10 d.places) ++
      '.' :: fractionDigits d.places (d.coefficient % Nat.pow 10 d.places) ++
        List.replicate zeros '0' := by
    rw [fullText, if_neg places, digits]
    simp only [List.append_assoc, List.cons_append]
  have last := getLast?_fractionDigits small
  have nothing := fractionDigits_eq_nil_iff small
  refine trimPlaces_of_mem (by rw [full]; simp) ?_
  rw [full, trimEnd_replicate, text]
  cases fraction : fractionDigits d.places (d.coefficient % Nat.pow 10 d.places) with
  | nil =>
      -- nothing but zeros: the point goes, and what stands before it ends in a digit
      have whole := getLast?_ne_of_isDigit fun c
        (hc : c ∈ Nat.toDigits 10 (d.coefficient / Nat.pow 10 d.places)) =>
        isDigit_of_mem_toDigits hc
      rw [if_pos (nothing.1 fraction), trimEnd_append_of_getLast? _ (by simp) (by simp)]
      exact (trimEnd_replicate '.' _ 1).trans
        (trimEnd_append_of_getLast? sign Nat.toDigits_ne_nil whole)
  | cons c more =>
      have behind := getLast?_ne_of_isDigit fun c hc => isDigit_of_mem_fractionDigits small hc
      rw [fraction] at last behind
      rw [if_neg fun zero => List.cons_ne_nil c more (fraction ▸ nothing.2 zero),
        trimEnd_append_of_getLast? _ (by simp) (by rwa [List.getLast?_cons_cons]),
        trimEnd_append_of_getLast? _ (by simp) (by rwa [List.getLast?_cons_cons]),
        List.append_assoc]

end Decimal

/-- What is left of a constant with six places is its sign and the shortest text of its decimal. -/
theorem constantText_eq (c : Float) :
    constantText c = (Binary64.ofFloat c).text (Decimal.fixed constantPlaces) := by
  rw [constantText]
  cases Binary64.ofFloat c with
  | nan => rfl
  | number negative index =>
      by_cases infinite : index = Binary64.infinity
      · simp only [Binary64.text, Binary64.write, if_pos infinite]
        apply Decimal.trimPlaces_of_not_mem
        cases negative <;> decide
      · simp only [Binary64.text, Binary64.write, if_neg infinite]
        exact Decimal.trimPlaces_fullText _ (show constantPlaces ≠ 0 by decide)

end Fluxion
