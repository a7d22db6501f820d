import Fluxion.Numeral

/-! # The grammar of numerals

A numeral is a sign or none, and then a word, or digits with at most one point and a power of ten or
none. The reader accepts these texts and no others.
-/

namespace Fluxion.Numeral

/-- A text of digits only. -/
def Digits (text : List Char) : Prop := ∀ c ∈ text, c.isDigit = true

inductive Sign : List Char → Prop where
  | none : Sign []
  | plus : Sign ['+']
  | minus : Sign ['-']

/-- Digits with at most one point, and with a digit on one side of it. -/
inductive Mantissa : List Char → Prop where
  | whole {digits : List Char} (some_digit : digits ≠ []) (all : Digits digits) : Mantissa digits
  | point {whole fraction : List Char} (some_digit : ¬ (whole = [] ∧ fraction = []))
    (before : Digits whole)
      (behind : Digits fraction) : Mantissa (whole ++ '.' :: fraction)

inductive Exponent : List Char → Prop where
  | none : Exponent []
  | power {mark : Char} {sign digits : List Char} (hmark : mark = 'e' ∨ mark = 'E')
    (hsign : Sign sign)
      (some_digit : digits ≠ []) (all : Digits digits) : Exponent (mark :: (sign ++ digits))

/-- The words stand in any mixture of small and capital letters. -/
inductive Magnitude : List Char → Prop where
  | word {text : List Char}
      (h : String.ofList (text.map Char.toLower) ∈ ["inf", "infinity", "nan"]) : Magnitude text
  | number {mantissa exponent : List Char} (hmantissa : Mantissa mantissa)
    (hexponent : Exponent exponent) :
      Magnitude (mantissa ++ exponent)

inductive IsNumeral : List Char → Prop where
  | signed {sign magnitude : List Char} (hsign : Sign sign) (hmagnitude : Magnitude magnitude) :
      IsNumeral (sign ++ magnitude)

/-- A text that does not start with a sign. -/
def Unsigned (text : List Char) : Prop := ∀ c ∈ text.head?, c ≠ '+' ∧ c ≠ '-'

theorem exists_sign (text : List Char) : ∃ sign, Sign sign ∧ text = sign ++ (splitSign text).2 := by
  unfold splitSign
  split
  · exact ⟨['+'], .plus, rfl⟩
  · exact ⟨['-'], .minus, rfl⟩
  · exact ⟨[], .none, rfl⟩

theorem splitSign_of_unsigned {text : List Char} (unsigned : Unsigned text) :
    splitSign text = (false, text) := by
  unfold splitSign
  split
  · exact absurd rfl (unsigned '+' rfl).1
  · exact absurd rfl (unsigned '-' rfl).2
  · rfl

/-- Behind a sign the reader does not look for another one. -/
theorem splitSign_append {sign body : List Char} (hsign : Sign sign)
    (unsigned : Unsigned body) : (splitSign (sign ++ body)).2 = body := by
  cases hsign with
  | plus => rfl
  | minus => rfl
  | none => rw [List.nil_append, splitSign_of_unsigned unsigned]

theorem Digits.unsigned {digits : List Char} (all : Digits digits) : Unsigned digits := by
  intro c first
  have digit := all c (List.mem_of_head? first)
  refine ⟨?_, ?_⟩ <;> rintro rfl <;> simp at digit

theorem isSome_exponent?_iff {text : List Char} : (exponent? text).isSome ↔ Exponent text := by
  constructor
  · intro read
    cases text with
    | nil => exact .none
    | cons mark rest =>
        obtain ⟨sign, hsign, whole⟩ := exists_sign rest
        simp only [exponent?] at read
        split at read
        · next power =>
            obtain ⟨hmark, some_digit, all⟩ := power
            rw [whole]
            exact .power hmark hsign some_digit (List.all_eq_true.1 all)
        · simp at read
  · intro exponent
    cases exponent with
    | none => rfl
    | power hmark hsign some_digit all =>
        have digits := splitSign_append hsign all.unsigned
        simp only [exponent?, digits]
        rw [if_pos ⟨hmark, some_digit, List.all_eq_true.2 all⟩]
        rfl

theorem Exponent.head {text : List Char} (h : Exponent text) :
    ∀ c ∈ text.head?, c.isDigit = false ∧ c ≠ '.' := by
  cases h with
  | none => simp
  | power hmark _ _ _ =>
      intro c first
      obtain rfl := Option.some.inj first
      rcases hmark with rfl | rfl <;> decide

theorem Digits.takeWhile {digits rest : List Char} (all : Digits digits)
    (ends : ∀ c ∈ rest.head?, c.isDigit = false) :
    (digits ++ rest).takeWhile Char.isDigit = digits ∧
      (digits ++ rest).dropWhile Char.isDigit = rest := by
  rw [List.takeWhile_append_of_pos all, List.dropWhile_append_of_pos all]
  cases rest with
  | nil => simp
  | cons c rest =>
      have ended := ends c rfl
      simp [ended]

theorem digits_takeWhile (text : List Char) : Digits (text.takeWhile Char.isDigit) :=
  fun _ hc => List.all_eq_true.1 List.all_takeWhile _ hc

theorem isSome_scaled_iff {empty : Prop} [Decidable empty] {rest : List Char} {scale : Int → Nat} :
    (if empty then none else (exponent? rest).map scale).isSome ↔ ¬ empty ∧ Exponent rest := by
  rw [← isSome_exponent?_iff]
  split <;> simp_all

theorem isSome_magnitude?_iff {text : List Char} :
    (magnitude? text).isSome ↔
      ∃ mantissa exponent, Mantissa mantissa ∧ Exponent exponent ∧ text = mantissa ++ exponent := by
  constructor
  · intro read
    have parted := @List.takeWhile_append_dropWhile _ Char.isDigit text
    unfold magnitude? at read
    dsimp only at read
    split at read
    · next afterPoint point =>
        obtain ⟨some_digit, exponent⟩ := isSome_scaled_iff.1 read
        refine ⟨_, _, .point some_digit (digits_takeWhile text) (digits_takeWhile afterPoint),
          exponent, ?_⟩
        rw [List.append_assoc, List.cons_append, List.takeWhile_append_dropWhile, ← point, parted]
    · obtain ⟨some_digit, exponent⟩ := isSome_scaled_iff.1 read
      refine ⟨_, _, .whole ?_ (digits_takeWhile text), exponent, parted.symm⟩
      exact fun nothing => some_digit ⟨nothing, rfl⟩
  · rintro ⟨mantissa, exponent, hmantissa, hexponent, rfl⟩
    -- a power of ten starts with a letter, so the reader's runs of digits end where those of
    -- the grammar do
    have ends : ∀ c ∈ exponent.head?, c.isDigit = false := fun c first => (hexponent.head c first).1
    unfold magnitude?
    dsimp only
    cases hmantissa with
    | whole some_digit all =>
        obtain ⟨digits, rest⟩ := all.takeWhile ends
        rw [digits, rest]
        split
        · exact absurd rfl (hexponent.head '.' rfl).2
        · exact isSome_scaled_iff.2 ⟨fun nothing => some_digit nothing.1, hexponent⟩
    | @point whole fraction some_digit before behind =>
        obtain ⟨digits, rest⟩ :=
          @Digits.takeWhile whole ('.' :: (fraction ++ exponent)) before (by simp)
        obtain ⟨decimals, last⟩ := behind.takeWhile ends
        rw [List.append_assoc, List.cons_append, digits, rest]
        simp only [decimals, last]
        exact isSome_scaled_iff.2 ⟨some_digit, hexponent⟩

theorem Mantissa.unsigned {mantissa : List Char} (h : Mantissa mantissa) (rest : List Char) :
    Unsigned (mantissa ++ rest) := by
  cases h with
  | whole some_digit all =>
      obtain ⟨first, digits, rfl⟩ := List.exists_cons_of_ne_nil some_digit
      exact all.unsigned
  | @point whole fraction some_digit before behind =>
      cases whole with
      | nil => simp [Unsigned]
      | cons first whole => exact before.unsigned

theorem Magnitude.unsigned {text : List Char} (h : Magnitude text) : Unsigned text := by
  cases h with
  | word h =>
      intro c first
      obtain ⟨rest, rfl⟩ := List.head?_eq_some_iff.1 first
      refine ⟨?_, ?_⟩ <;> rintro rfl <;> simp [String.ext_iff] at h
  | number hmantissa hexponent => exact hmantissa.unsigned _

theorem magnitude_iff {text : List Char} :
    Magnitude text ↔
      String.ofList (text.map Char.toLower) ∈ ["inf", "infinity", "nan"] ∨
        (magnitude? text).isSome := by
  rw [isSome_magnitude?_iff]
  constructor
  · intro magnitude
    cases magnitude with
    | word h => exact .inl h
    | number hmantissa hexponent => exact .inr ⟨_, _, hmantissa, hexponent, rfl⟩
  · rintro (h | ⟨mantissa, exponent, hmantissa, hexponent, rfl⟩)
    · exact .word h
    · exact .number hmantissa hexponent

/-- The reader accepts the numerals and nothing else. -/
theorem isSome_read?_iff {text : List Char} : (read? text).isSome ↔ IsNumeral text := by
  have body : (read? text).isSome ↔ Magnitude (splitSign text).2 := by
    rw [magnitude_iff]
    unfold read?
    dsimp only
    split
    · next infinite => rcases infinite with word | word <;> simp [word]
    · split <;> simp_all
  rw [body]
  constructor
  · intro magnitude
    obtain ⟨sign, hsign, whole⟩ := exists_sign text
    rw [whole]
    exact .signed hsign magnitude
  · intro numeral
    cases numeral with
    | signed hsign hmagnitude =>
        rw [splitSign_append hsign hmagnitude.unsigned]
        exact hmagnitude

instance : DecidablePred IsNumeral := fun _ => decidable_of_iff _ isSome_read?_iff

end Fluxion.Numeral
