import Fluxion.Answer
import Fluxion.Proofs.Expr.Vocabulary

/-! # The characters of an answer

The text of a number has only characters of the printer's own, and the text of an expression has
those and the characters of its names. A quoted text has escapes for all blanks but the space. So
what is written for a line has no blank but the space, and none at all where an expression stands.
-/

namespace Fluxion

/-- The characters of points, operators, brackets and function names, and of the words for infinity
    and for what is no number. -/
def printedMarks : List Char :=
  ['.', '+', '-', '*', '/', '^', '(', ')', 'l', 'n', 's', 'i', 'c', 'o', 'N', 'a', 'f']

/-- Whether a character may be the printer's own. -/
def isPrinted (c : Char) : Bool := c.isDigit || printedMarks.contains c

theorem isPrinted_spec {c : Char} (h : isPrinted c = true) : isBlank c = false ∧ c ≠ '@' := by
  cases (Bool.or_eq_true _ _).mp h with
  | inl digit =>
      have literal : Decimal.isLiteral [c] = true :=
        Decimal.isLiteral_of_isDigit fun _ hd => List.mem_singleton.1 hd ▸ digit
      refine ⟨@not_isBlank_of_mem_removeBlanks [c] c ?_, ?_⟩
      · rw [removeBlanks_of_isLiteral literal]
        exact List.mem_singleton_self c
      · rintro rfl
        simp at digit
  | inr mark =>
      have all : ∀ c ∈ printedMarks, isBlank c = false ∧ c ≠ '@' := by
        simp [printedMarks, isBlank, blankRanges]
      exact all c (List.contains_iff_mem.1 mark)

theorem isPrinted_of_isLiteral {text : List Char} (literal : Decimal.isLiteral text = true)
    {c : Char} (hc : c ∈ text) : isPrinted c = true := by
  cases (Bool.or_eq_true _ _).mp (List.all_eq_true.1 literal c hc) with
  | inl digit => rw [isPrinted, digit, Bool.true_or]
  | inr point =>
      obtain rfl := beq_iff_eq.1 point
      decide

theorem Binary64.isPrinted_text (x : Binary64) (magnitude : Nat → Decimal) :
    ∀ c ∈ x.text magnitude, isPrinted c = true := by
  cases x with
  | nan =>
      have word : ∀ c ∈ ['N', 'a', 'N'], isPrinted c = true := by simp [isPrinted, printedMarks]
      exact word
  | number negative index =>
      intro c hc
      have sign : ∀ c ∈ if negative then ['-'] else [], isPrinted c = true := by
        cases negative <;> simp [isPrinted, printedMarks]
      have infinite : ∀ c ∈ ['i', 'n', 'f'], isPrinted c = true := by simp [isPrinted, printedMarks]
      cases List.mem_append.1 hc with
      | inl before => exact sign c before
      | inr body =>
          split at body
          · exact infinite c body
          · exact isPrinted_of_isLiteral (Decimal.isLiteral_text _) body

namespace Expr

theorem mem_inBrackets {arg : Expr} {text : List Char} {c : Char} (hc : c ∈ inBrackets arg text) :
    c ∈ text ∨ isPrinted c = true := by
  unfold inBrackets at hc
  split at hc
  · exact .inl hc
  · simp only [List.mem_cons, List.mem_append, List.not_mem_nil, or_false] at hc
    rcases hc with rfl | inside | rfl
    · exact .inr rfl
    · exact .inl inside
    · exact .inr rfl

theorem mem_chars {e : Expr} {c : Char} (hc : c ∈ e.chars) :
    (∃ name ∈ e.names, c ∈ name.toList) ∨ isPrinted c = true := by
  induction e with
  | var name => exact .inl ⟨name, List.mem_cons_self, hc⟩
  | const x =>
      rw [chars, constantText_eq] at hc
      exact .inr (Binary64.isPrinted_text _ _ c hc)
  | binary op l r ihl ihr =>
      simp only [chars, List.mem_cons, List.mem_append, List.not_mem_nil, or_false] at hc
      simp only [names, List.mem_append]
      rcases hc with rfl | left | rfl | right | rfl
      · exact .inr rfl
      · obtain ⟨name, hname, inside⟩ | printed := ihl left
        · exact .inl ⟨name, .inl hname, inside⟩
        · exact .inr printed
      · refine .inr ?_
        cases op <;> decide
      · obtain ⟨name, hname, inside⟩ | printed := ihr right
        · exact .inl ⟨name, .inr hname, inside⟩
        · exact .inr printed
      · exact .inr rfl
  | apply fn a ih =>
      cases List.mem_append.1 hc with
      | inl letter =>
          have letters : ∀ c ∈ fn.name, isPrinted c = true := by
            cases fn <;> simp [Func.name, isPrinted, printedMarks]
          exact .inr (letters c letter)
      | inr argument => exact (mem_inBrackets argument).elim ih .inr

/-- What the text of an expression with the names of a formula consists of: the formula's characters
    without the blanks, and the printer's own. -/
theorem mem_chars_of_parse {formula : String} {f e : Expr} (reads : parse formula = .ok f)
    (names : e.names ⊆ f.names)
    {c : Char} (hc : c ∈ e.chars) : c ∈ removeBlanks formula.toList ∨ isPrinted c = true := by
  obtain ⟨name, hname, inside⟩ | printed := mem_chars hc
  · exact .inl ((spells_of_parse reads).names_subset name (names hname) inside)
  · exact .inr printed

theorem solid_of_parse {formula : String} {f e : Expr} (reads : parse formula = .ok f)
    (names : e.names ⊆ f.names)
    (plain : '@' ∉ formula.toList) : ∀ c ∈ e.chars, isBlank c = false ∧ c ≠ '@' := by
  intro c hc
  cases mem_chars_of_parse reads names hc with
  | inl read =>
      refine ⟨not_isBlank_of_mem_removeBlanks read, ?_⟩
      rintro rfl
      exact plain (List.mem_of_mem_filter read)
  | inr printed => exact isPrinted_spec printed

end Expr

theorem exists_digitChar_of_mem_toDigits {base n : Nat} (large : 1 < base) {c : Char}
    (hc : c ∈ Nat.toDigits base n) :
    ∃ d < base, c = Nat.digitChar d := by
  induction n using Nat.strongRecOn with
  | ind n ih =>
      rw [Nat.toDigits_eq_if large] at hc
      split at hc
      · next small => exact ⟨n, small, List.mem_singleton.1 hc⟩
      · next many =>
          have fewer : n / base < n := Nat.div_lt_self (by omega) large
          cases List.mem_append.1 hc with
          | inl before => exact ih _ fewer before
          | inr last => exact ⟨n % base, Nat.mod_lt n (by omega), List.mem_singleton.1 last⟩

namespace Quoted

theorem not_isBlank_of_mem_toDigits {n : Nat} {c : Char} (hc : c ∈ Nat.toDigits 16 n) :
    isBlank c = false := by
  obtain ⟨d, small, rfl⟩ := exists_digitChar_of_mem_toDigits (by decide) hc
  have all : ∀ d < 16, isBlank (Nat.digitChar d) = false := by decide
  exact all d small

/-- A character shows as itself, or an escape without blanks stands for it. -/
theorem escape_spec (c : Char) :
    (isShown c = true ∧ escape c = [c]) ∨ ∀ d ∈ escape c, isBlank d = false := by
  by_cases named : c ∈ ['"', '\\', '\n', '\r', '\t', '\x00']
  · right
    simp only [List.mem_cons, List.not_mem_nil, or_false] at named
    rcases named with rfl | rfl | rfl | rfl | rfl | rfl <;> simp [escape, isBlank, blankRanges]
  · simp only [List.mem_cons, List.not_mem_nil, or_false, not_or] at named
    obtain ⟨quote, slash, feed, return_, tab, zero⟩ := named
    rw [escape, if_neg quote, if_neg slash, if_neg feed, if_neg return_, if_neg tab, if_neg zero]
    split
    · next shown => exact .inl ⟨shown, rfl⟩
    · refine .inr fun d hd => ?_
      have around : ∀ d ∈ ['\\', 'u', '{', '}'], isBlank d = false := by simp [isBlank, blankRanges]
      simp only [List.mem_append, List.mem_singleton] at hd
      rcases hd with (before | code) | behind
      · exact around d (List.mem_append_left ['}'] before)
      · exact not_isBlank_of_mem_toDigits code
      · exact around d (List.mem_append_right ['\\', 'u', '{'] (List.mem_singleton.2 behind))

theorem eq_space_of_mem_text {content : List Char} {c : Char} (hc : c ∈ text content)
    (blank : isBlank c = true) :
    c = ' ' := by
  rw [text, List.cons_append, List.mem_cons, List.mem_append, List.mem_singleton] at hc
  rcases hc with rfl | inside | rfl
  · simp [isBlank, blankRanges] at blank
  · obtain ⟨d, -, hd⟩ := List.mem_flatMap.1 inside
    cases escape_spec d with
    | inl itself =>
        obtain ⟨shown, same⟩ := itself
        obtain rfl := List.mem_singleton.1 (same ▸ hd)
        rw [isShown, blank, Bool.not_true, Bool.or_false, Bool.and_eq_true] at shown
        exact beq_iff_eq.1 shown.2
    | inr solid => exact absurd blank (Bool.eq_false_iff.1 (solid c hd))
  · simp [isBlank, blankRanges] at blank

end Quoted

end Fluxion
