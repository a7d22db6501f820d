import Fluxion.Expr.Derivative
import Fluxion.Proofs.Binary64.Bits
import Fluxion.Proofs.Bracket.Matching
import Fluxion.Proofs.Expr.Provenance
import Fluxion.Proofs.Expr.Rereading

/-! # The names and the constants of an expression

Differentiation brings no name that was not there, and of the constants only zero, one and, on the
left of a product, minus one. Reading brings pieces of the text as names, and constants that are not
negative. So the names and the constants of the derivatives of an expression that was read are such
as can be written and read again.
-/

namespace Fluxion

theorem Binary64.isPositive_iff {x : Binary64} :
    x.isPositive = true ↔ ∃ index, x = .number false index := by
  cases x with
  | nan => simp [isPositive]
  | number negative index => cases negative <;> simp [isPositive]

theorem Decimal.isPositive_toFloat (d : Decimal) :
    (Binary64.ofFloat d.toFloat).isPositive = true := by
  have bounded : d.nearest ≤ Binary64.infinity := Binary64.nearest_le_infinity _ _
  rw [toFloat, Binary64.ofFloat_toFloat false bounded]
  rfl

theorem isPositive_zero : (Binary64.ofFloat 0).isPositive = true := by decide

theorem isPositive_one : (Binary64.ofFloat 1).isPositive = true := by decide

theorem not_isPositive_minusOne : (Binary64.ofFloat (-1)).isPositive = false := by decide

namespace Expr

/-- The constants from left to right. -/
def constants : Expr → List Float
  | .var _ => []
  | .const c => [c]
  | .binary _ l r => l.constants ++ r.constants
  | .apply _ a => a.constants

/-- No constant has a minus sign, and none is NaN. -/
def Unsigned (e : Expr) : Prop := ∀ c ∈ e.constants, (Binary64.ofFloat c).isPositive = true

theorem unsigned_var (name : String) : (Expr.var name).Unsigned :=
  fun _ hc => absurd hc List.not_mem_nil

theorem unsigned_const_iff {c : Float} :
    (Expr.const c).Unsigned ↔ (Binary64.ofFloat c).isPositive = true := by
  simp only [Unsigned, constants, List.forall_mem_singleton]

theorem unsigned_binary_iff {op : Op} {l r : Expr} :
    (Expr.binary op l r).Unsigned ↔ l.Unsigned ∧ r.Unsigned := by
  simp only [Unsigned, constants, List.forall_mem_append]

theorem Unsigned.minusOne_not_mem {e : Expr} (h : e.Unsigned) : -1 ∉ e.constants := by
  intro minus
  have positive := h (-1) minus
  rw [not_isPositive_minusOne] at positive
  simp at positive

theorem Unsigned.not_isMinusOne {e : Expr} (h : e.Unsigned) : ¬ e.isMinusOne = true := by
  intro minus
  rw [eq_of_isMinusOne minus] at h
  exact h.minusOne_not_mem (List.mem_singleton_self _)

theorem Unsigned.minusInProducts {e : Expr} (h : e.Unsigned) : e.MinusInProducts := by
  induction e with
  | var _ => trivial
  | const c => exact unsigned_const_iff.1 h
  | binary op l r ihl ihr =>
      obtain ⟨left, right⟩ := unsigned_binary_iff.1 h
      exact ⟨.inr (ihl left), ihr right⟩
  | apply fn a ih => exact ih h

theorem MinusInProducts.unsigned {e : Expr} (h : e.MinusInProducts) (none : -1 ∉ e.constants) :
    e.Unsigned := by
  induction e with
  | var name => exact unsigned_var name
  | const c => exact unsigned_const_iff.2 h
  | binary op l r ihl ihr =>
      rw [constants, List.mem_append, not_or] at none
      obtain ⟨left, right⟩ := h
      refine unsigned_binary_iff.2 ⟨ihl (left.resolve_left fun minus => none.1 ?_) none.1,
        ihr right none.2⟩
      rw [eq_of_isMinusOne minus.2]
      exact List.mem_singleton_self _
  | apply fn a ih => exact ih h none

theorem names_derivative_subset (e : Expr) : e.derivative.names ⊆ e.names := by
  induction e with
  | var _ => exact List.nil_subset _
  | const _ => exact List.nil_subset _
  | binary op l r ihl ihr =>
      cases op <;> simp only [derivative, lnDerivative, names] <;> grind
  | apply fn a ih =>
      cases fn <;> simp only [derivative, lnDerivative, names] <;> grind

theorem names_nthDerivative_subset (n : Nat) (e : Expr) : (nthDerivative n e).names ⊆ e.names := by
  induction n generalizing e with
  | zero => exact List.Subset.refl _
  | succ n ih => exact List.Subset.trans (ih e.derivative) (names_derivative_subset e)

/-- The minus of a factor stays on the left: the derivative of the constant is zero, and the
    constant stays before the derivative of the other factor. -/
theorem MinusInProducts.derivative {e : Expr} (h : e.MinusInProducts) :
    e.derivative.MinusInProducts := by
  have minusOne : (Expr.const (-1)).isMinusOne = true := by decide
  induction e with
  | var _ => exact isPositive_one
  | const _ => exact isPositive_zero
  | binary op l r ihl ihr =>
      obtain ⟨left, right⟩ := h
      have right' := ihr right
      cases op with
      | add =>
          have left := left.resolve_left (by simp)
          exact ⟨.inr (ihl left), right'⟩
      | sub =>
          have left := left.resolve_left (by simp)
          exact ⟨.inr (ihl left), right'⟩
      | mul =>
          have left' : l.derivative.MinusInProducts := by
            cases left with
            | inl minus =>
                rw [eq_of_isMinusOne minus.2]
                exact isPositive_zero
            | inr plain => exact ihl plain
          exact ⟨.inr ⟨.inr left', right⟩, left, right'⟩
      | div =>
          have left := left.resolve_left (by simp)
          exact ⟨.inr ⟨.inr ⟨.inr (ihl left), right⟩, .inr left, right'⟩, .inr right, right⟩
      | pow =>
          have left := left.resolve_left (by simp)
          have power : (Expr.pow l r).MinusInProducts := ⟨.inr left, right⟩
          have quotient : (lnDerivative l l.derivative).MinusInProducts :=
            ⟨.inr ⟨.inr isPositive_one, left⟩, ihl left⟩
          exact ⟨.inr power, .inr ⟨.inr right', left⟩, .inr right, quotient⟩
  | apply fn a ih =>
      have arg' := ih h
      cases fn with
      | ln => exact ⟨.inr ⟨.inr isPositive_one, h⟩, arg'⟩
      | sin => exact ⟨.inr h, arg'⟩
      | cos => exact ⟨.inl ⟨rfl, minusOne⟩, .inr h, arg'⟩

theorem MinusInProducts.nthDerivative {e : Expr} (h : e.MinusInProducts) (n : Nat) :
    (nthDerivative n e).MinusInProducts := by
  induction n generalizing e with
  | zero => exact h
  | succ n ih => exact ih h.derivative

end Expr

theorem balanced_link_iff {left right : List Char} (hl : Mark.OpeningsClosed (marks left)) (op : Op)
    (hr : Mark.OpeningsClosed (marks right)) :
    Mark.Balanced (marks (left ++ op.symbol :: right)) ↔
      Mark.Balanced (marks left) ∧ Mark.Balanced (marks right) := by
  have first := hl.count_le
  have second := hr.count_le
  rw [(openingsClosed_link hl op hr).balanced_iff_count, hl.balanced_iff_count,
    hr.balanced_iff_count]
  simp only [marks_append, marks_cons, op.mark_symbol, List.count_append, List.count_cons]
  simp
  omega

theorem Expr.unsigned_ofLeaf (text : List Char) : (ofLeaf text).Unsigned := by
  rw [ofLeaf]
  split
  · exact unsigned_const_iff.2 (Decimal.isPositive_toFloat _)
  · exact unsigned_var _

theorem Expr.ofLeaf_of_mem_names {text : List Char} {name : String}
    (h : name ∈ (ofLeaf text).names) :
    ofLeaf text = .var name ∧ name.toList = text := by
  rw [ofLeaf] at h ⊢
  split at h
  · exact absurd h List.not_mem_nil
  · next word =>
      obtain rfl := List.mem_singleton.1 h
      exact ⟨if_neg word, String.toList_ofList⟩

namespace Spells

variable {text : List Char} {e : Expr}

/-- Every constant is read as the nearest double of a decimal, and these have no sign. -/
theorem unsigned (h : Spells text e) : e.Unsigned := by
  induction h with
  | @leaf text operators reads => exact Expr.unsigned_ofLeaf text
  | wrap balanced inner ih => exact ih
  | call fn balanced inner ih => exact ih
  | link op hleft hright first second ihl ihr => exact Expr.unsigned_binary_iff.2 ⟨ihl, ihr⟩

theorem names_subset (h : Spells text e) : ∀ name ∈ e.names, name.toList ⊆ text := by
  induction h with
  | @leaf text operators reads =>
      intro name hname
      rw [(Expr.ofLeaf_of_mem_names hname).2]
      exact List.Subset.refl _
  | wrap balanced inner ih =>
      intro name hname c hc
      simp [Fluxion.wrap, ih name hname hc]
  | call fn balanced inner ih =>
      intro name hname c hc
      simp [Fluxion.wrap, ih name hname hc]
  | link op hleft hright first second ihl ihr =>
      intro name hname c hc
      cases List.mem_append.1 hname with
      | inl before => simp [ihl name before hc]
      | inr behind => simp [ihr name behind hc]

theorem removeBlanks_names (h : Spells text e) (solid : ∀ c ∈ text, isBlank c = false) :
    ∀ name ∈ e.names, removeBlanks name.toList = name.toList :=
  fun name hname => removeBlanks_eq_self fun c hc => solid c (h.names_subset name hname hc)

/-- The names in a balanced text balance and are read as themselves. -/
theorem names_read (h : Spells text e) (balanced : Mark.Balanced (marks text)) :
    ∀ name ∈ e.names, Mark.Balanced (marks name.toList) ∧
      Expr.ofChars? name.toList = some (.var name) := by
  induction h with
  | @leaf text operators reads =>
      intro name hname
      obtain ⟨leaf, rfl⟩ := Expr.ofLeaf_of_mem_names hname
      rw [leaf] at reads
      exact ⟨balanced, reads⟩
  | wrap inside inner ih => exact ih inside
  | call fn inside inner ih => exact ih inside
  | link op hleft hright first second ihl ihr =>
      intro name hname
      obtain ⟨left, right⟩ := (balanced_link_iff hleft op hright).1 balanced
      cases List.mem_append.1 hname with
      | inl before => exact ihl left name before
      | inr behind => exact ihr right name behind

theorem tidy (h : Spells text e) (solid : ∀ c ∈ text, isBlank c = false)
    (balanced : Mark.Balanced (marks text)) : ∀ name ∈ e.names, Tidy name := by
  intro name hname
  obtain ⟨inside, reads⟩ := h.names_read balanced name hname
  refine ⟨inside, Expr.parse_eq_ok_iff.2 ?_⟩
  rwa [h.removeBlanks_names solid name hname]

end Spells

namespace Expr

variable {text : String} {e : Expr}

theorem spells_of_parse (h : parse text = .ok e) : Spells (removeBlanks text.toList) e :=
  spells_of_ofChars? (parse_eq_ok_iff.1 h)

theorem unsigned_of_parse (h : parse text = .ok e) : e.Unsigned :=
  (spells_of_parse h).unsigned

/-- The names and the constants of the expression survive in its text. -/
structure Legible (e : Expr) : Prop where
  tidy : ∀ name ∈ e.names, Tidy name
  signs : e.MinusInProducts

namespace Legible

theorem parse_eq (h : e.Legible) : parse e.text = .ok e.reread := by
  rw [parse_eq_ok_iff, Expr.text, String.toList_ofList,
    (removeBlanks_chars fun name hname => (h.tidy name hname).removeBlanks_eq).2]
  exact (ofChars?_chars h.tidy h.signs).2

theorem nthDerivative (h : e.Legible) (n : Nat) : (nthDerivative n e).Legible where
  tidy name hname := h.tidy name (names_nthDerivative_subset n e hname)
  signs := h.signs.nthDerivative n

theorem of_parse (h : parse text = .ok e) (balanced : Mark.Balanced (marks text.toList)) :
    e.Legible where
  tidy := (spells_of_parse h).tidy (fun _ hc => not_isBlank_of_mem_removeBlanks hc)
    (balanced_removeBlanks_iff.2 balanced)
  signs := (unsigned_of_parse h).minusInProducts

end Legible

end Expr

end Fluxion
