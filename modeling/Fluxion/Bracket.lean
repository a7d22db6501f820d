/-! # Matching brackets

A text is seen as a list of marks, so that the same matching serves characters and bytes. Forwards,
a bracket is closed at the first position where as many brackets have been closed as opened.
Backwards is the same search on the reversed list with the two brackets exchanged.
-/

namespace Fluxion

/-- What one character, or one byte, means to the matching of brackets. -/
inductive Mark where
  | opening
  | closing
  | neither
  deriving Repr, DecidableEq

namespace Mark

/-- The brackets are the round ones. -/
def ofChar (c : Char) : Mark :=
  if c = '(' then .opening else if c = ')' then .closing else .neither

/-- The mark of one byte of a UTF-8 text. The bytes of a longer encoding are no brackets. -/
def ofByte (b : UInt8) : Mark := ofChar (Char.ofUInt8 b)

def isBracket : Mark → Bool
  | .neither => false
  | _ => true

/-- Read from right to left, a closing bracket opens. -/
def flip : Mark → Mark
  | .opening => .closing
  | .closing => .opening
  | .neither => .neither

theorem flip_flip (m : Mark) : m.flip.flip = m := by
  cases m <;> rfl

/-- The position of the mark that closes a bracket opened just before the list, when `depth` more
    brackets are open inside it. -/
def closer? : Nat → List Mark → Option Nat
  | _, [] => none
  | depth, .opening :: rest => (closer? (depth + 1) rest).map (· + 1)
  | 0, .closing :: _ => some 0
  | depth + 1, .closing :: rest => (closer? depth rest).map (· + 1)
  | depth, .neither :: rest => (closer? depth rest).map (· + 1)

/-- The position of the bracket that matches the one at `position`, if a bracket stands there
    and has a match. -/
def matching? (marks : List Mark) (position : Nat) : Option Nat :=
  match marks[position]? with
  | some .opening => (closer? 0 (marks.drop (position + 1))).map (position + 1 + ·)
  | some .closing =>
      (closer? 0 ((marks.take position).reverse.map flip)).map (position - 1 - ·)
  | _ => none

end Mark

/-- The marks of a text, character by character. -/
def marks (text : List Char) : List Mark :=
  text.map Mark.ofChar

def hasBrackets (text : List Char) : Bool :=
  text.any fun c => (Mark.ofChar c).isBracket

/-- The byte offset of the bracket that matches the one at a byte offset of the text in UTF-8. -/
def matchingBracket? (text : String) (offset : Nat) : Option Nat :=
  Mark.matching? (text.toUTF8.data.toList.map Mark.ofByte) offset

/-- What stands between the first and the last character, if those two are matching brackets. -/
def unwrap? : List Char → Option (List Char)
  | [] => none
  | c :: rest =>
      if Mark.ofChar c = .opening ∧ Mark.closer? 0 (marks rest) = some (rest.length - 1) then
        some rest.dropLast
      else
        none

theorem length_lt_of_unwrap? {text inner : List Char} (h : unwrap? text = some inner) :
    inner.length < text.length := by
  cases text with
  | nil => simp [unwrap?] at h
  | cons c rest =>
      simp only [unwrap?, Option.ite_none_right_eq_some, Option.some.injEq] at h
      obtain ⟨_, rfl⟩ := h
      simp only [List.length_dropLast, List.length_cons]
      omega

/-- Takes off the brackets around the whole text, as many pairs as there are. -/
def unwrapAll (text : List Char) : List Char :=
  match _h : unwrap? text with
  | some inner => unwrapAll inner
  | none => text
termination_by text.length
decreasing_by exact length_lt_of_unwrap? _h

theorem unwrapAll_of_some {text inner : List Char} (h : unwrap? text = some inner) :
    unwrapAll text = unwrapAll inner := by
  rw [unwrapAll]
  split <;> simp_all

theorem unwrapAll_of_none {text : List Char} (h : unwrap? text = none) : unwrapAll text = text := by
  rw [unwrapAll]
  split <;> simp_all

theorem length_unwrapAll_le (text : List Char) : (unwrapAll text).length ≤ text.length := by
  fun_induction unwrapAll text with
  | case1 text inner h ih => exact Nat.le_trans ih (Nat.le_of_lt (length_lt_of_unwrap? h))
  | case2 => exact Nat.le_refl _

end Fluxion
