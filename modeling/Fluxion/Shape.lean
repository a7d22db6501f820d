import Fluxion.Chain

/-! # The shape of a text

What a text without blanks and without brackets around it is at its top: a leaf, the call of a
function, a chain of operands, or nothing that can be read. The parts that a shape leaves to be read
are all shorter than the text.
-/

namespace Fluxion

inductive Shape where
  /-- A text without operators, which is a number or a variable. -/
  | leaf (text : List Char)
  /-- A function before its argument in brackets, and the text between these. -/
  | call (fn : Func) (inner : List Char)
  /-- Operands with at least one operator outside all brackets. -/
  | chain (operands : Chain (List Char))
  | malformed
  deriving Repr, DecidableEq

namespace Shape

/-- The function and the text of its argument, if the whole text is a call. -/
def call? (text : List Char) : Option (Func × List Char) :=
  Func.all.findSome? fun fn =>
    if fn.name <+: text then (unwrap? (text.drop fn.name.length)).map (fn, ·) else none

/-- Whether the last character closes a bracket that was never opened. -/
def endsUnmatched (text : List Char) : Bool :=
  text.getLast?.map Mark.ofChar == some .closing &&
    Mark.matching? (marks text) (text.length - 1) == none

/-- The shape of a text with no brackets around the whole of it. -/
def ofText (text : List Char) : Shape :=
  if endsUnmatched text then .malformed
  else
    match call? text with
    | some (fn, inner) => .call fn inner
    | none =>
        if hasOperators text then
          match Chain.ofText? text with
          | some operands => if operands.rest = [] then .malformed else .chain operands
          | none => .malformed
        else .leaf text

/-- The texts that are still to be read. -/
def parts : Shape → List (List Char)
  | .leaf _ | .malformed => []
  | .call _ inner => [inner]
  | .chain operands => operands.operands

theorem length_lt_of_call? {text inner : List Char} {fn : Func}
    (h : call? text = some (fn, inner)) : inner.length < text.length := by
  obtain ⟨fn', _, hfn⟩ := List.exists_of_findSome?_eq_some h
  simp only [Option.ite_none_right_eq_some, Option.map_eq_some_iff] at hfn
  obtain ⟨_, inner', hinner, heq⟩ := hfn
  obtain ⟨_, rfl⟩ := Prod.mk.inj heq
  have hlt := length_lt_of_unwrap? hinner
  simp only [List.length_drop] at hlt
  omega

theorem length_lt_of_mem_parts {text part : List Char} (h : part ∈ (ofText text).parts) :
    part.length < text.length := by
  unfold ofText at h
  split at h
  · simp [parts] at h
  · split at h
    · next fn inner hcall =>
        obtain rfl := List.mem_singleton.1 h
        exact length_lt_of_call? hcall
    · split at h
      · split at h
        · next operands hcut =>
            split at h
            · simp [parts] at h
            · next hrest =>
                rw [← Chain.flatten_of_ofText? hcut]
                exact Chain.length_lt_of_mem_operands hrest h
        · simp [parts] at h
      · simp [parts] at h

end Shape

end Fluxion
