import Fluxion.Proofs.Expr.Vocabulary

/-! # What can be read

Every expression whose constants have no minus and whose names are tidy is read from some balanced
text: its constants are written in all of their places, and every operator and every function in
brackets. Nothing else is read from a balanced text.
-/

namespace Fluxion

/-- A double without a minus is read from its exact decimal, infinity from one that is too large. -/
theorem toFloat_ofLiteral_exact {c : Float} {index : Nat}
    (h : Binary64.ofFloat c = .number false index) :
    (Decimal.ofLiteral (Decimal.exact index).text).toFloat = c := by
  have bounded := Binary64.le_infinity_of_ofFloat h
  rw [Decimal.toFloat, Decimal.nearest_congr (Decimal.value_ofLiteral_text _),
    Decimal.nearest_exact bounded, Binary64.toFloat_ofFloat h]

namespace Expr

/-- The text is read as the expression, alone and as an operand. -/
structure ReadFrom (text : List Char) (e : Expr) : Prop where
  balanced : Mark.Balanced (marks text)
  sealed : Chain.Sealed text
  solid : removeBlanks text = text
  reads : ofChars? text = some e

namespace ReadFrom

variable {text left right : List Char} {e l r : Expr}

theorem name {name : String} (h : Tidy name) : ReadFrom name.toList (.var name) :=
  ⟨h.1, h.sealed, h.removeBlanks_eq, h.reads⟩

theorem constant {c : Float} {index : Nat} (h : Binary64.ofFloat c = .number false index) :
    ReadFrom (Decimal.exact index).text (.const c) := by
  have literal := Decimal.isLiteral_text (Decimal.exact index)
  have brackets := hasBrackets_of_isLiteral literal
  have operators := hasOperators_of_isLiteral literal
  have balanced := balanced_of_not_hasBrackets brackets
  refine ⟨balanced, .of_not_hasOperators balanced.openingsClosed operators,
    removeBlanks_of_isLiteral literal, ?_⟩
  rw [ofChars?_plain brackets operators, ofLeaf, if_pos literal, toFloat_ofLiteral_exact h]

theorem binary (op : Op) (hl : ReadFrom left l) (hr : ReadFrom right r) :
    ReadFrom (wrap (left ++ op.symbol :: right)) (.binary op l r) := by
  have symbol : removeBlanks [op.symbol] = [op.symbol] := by cases op <;> rfl
  have balanced : Mark.Balanced (marks (left ++ op.symbol :: right)) := by
    rw [marks_append, marks_cons]
    exact hl.balanced.append ((balanced_symbol op).append hr.balanced)
  refine ⟨balanced_wrap balanced, .wrap balanced, ?_, ?_⟩
  · rw [removeBlanks_wrap, removeBlanks_append, ← List.singleton_append, removeBlanks_append,
      hl.solid, hr.solid, symbol]
  · rw [ofChars?_wrap balanced, ofChars?_link hl.sealed hr.sealed, hl.reads, hr.reads]
    rfl

theorem apply (fn : Func) (h : ReadFrom text e) :
    ReadFrom (fn.name ++ wrap text) (.apply fn e) := by
  have word : removeBlanks fn.name = fn.name := by cases fn <;> rfl
  refine ⟨?_, fn.sealed_name.append (.wrap h.balanced), ?_, ?_⟩
  · rw [marks_append]
    exact fn.balanced_name.append (balanced_wrap h.balanced)
  · rw [removeBlanks_append, removeBlanks_wrap, word, h.solid]
  · rw [ofChars?_call fn h.balanced, h.reads]
    rfl

end ReadFrom

theorem exists_readFrom {e : Expr} (unsigned : e.Unsigned) (tidy : ∀ name ∈ e.names, Tidy name) :
    ∃ text, ReadFrom text e := by
  induction e with
  | var name => exact ⟨_, .name (tidy name List.mem_cons_self)⟩
  | const c =>
      obtain ⟨index, number⟩ := Binary64.isPositive_iff.1 (unsigned_const_iff.1 unsigned)
      exact ⟨_, .constant number⟩
  | binary op l r ihl ihr =>
      obtain ⟨first, second⟩ := unsigned_binary_iff.1 unsigned
      obtain ⟨before, behind⟩ := List.forall_mem_append.1 tidy
      obtain ⟨left, hl⟩ := ihl first before
      obtain ⟨right, hr⟩ := ihr second behind
      exact ⟨_, .binary op hl hr⟩
  | apply fn a ih =>
      obtain ⟨text, h⟩ := ih unsigned tidy
      exact ⟨_, .apply fn h⟩

/-- The expressions that are read from balanced texts are those without a minus on a constant,
    without NaN, and with tidy names only. -/
theorem exists_balanced_text_iff {e : Expr} :
    (∃ text : String, Mark.Balanced (marks text.toList) ∧ parse text = .ok e) ↔
      (∀ c ∈ e.constants, ∃ index, Binary64.ofFloat c = .number false index) ∧
        ∀ name ∈ e.names, Tidy name := by
  simp only [← Binary64.isPositive_iff]
  constructor
  · intro h
    obtain ⟨text, balanced, reads⟩ := h
    exact ⟨unsigned_of_parse reads, (Legible.of_parse reads balanced).tidy⟩
  · intro h
    obtain ⟨text, read⟩ := exists_readFrom h.1 h.2
    refine ⟨String.ofList text, ?_, ?_⟩
    · rw [String.toList_ofList]
      exact read.balanced
    · rw [parse_eq_ok_iff, String.toList_ofList, read.solid]
      exact read.reads

end Expr

end Fluxion
