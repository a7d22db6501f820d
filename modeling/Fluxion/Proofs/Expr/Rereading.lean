import Fluxion.Proofs.Chain.Grouping
import Fluxion.Proofs.Decimal.Trimming
import Fluxion.Proofs.Decimal.Value
import Fluxion.Proofs.Expr.Loosest

/-! # Reading what was written

The text of an expression is read as the same expression, with its constants rounded to what the
text says. Two texts say something else: infinity is read as a variable, and the minus of `-1` as a
difference from nothing.
-/

namespace Fluxion

/-- A name whose brackets balance and that is read as the variable of that name. -/
def Tidy (name : String) : Prop :=
  Mark.Balanced (marks name.toList) ∧ Expr.parse name = .ok (.var name)

theorem Expr.unwrapAll_of_ofChars?_var {text : List Char} {name : String}
    (h : ofChars? text = some (.var name)) :
    unwrapAll text = name.toList ∧ hasOperators name.toList = false := by
  have spec := Shape.ofText_spec (unwrapAll text)
  rw [ofChars?_eq] at h
  cases shape : Shape.ofText (unwrapAll text) with
  | leaf part =>
      rw [shape] at h spec
      obtain ⟨rfl, -, -, operators⟩ := spec
      have hname := Option.some.inj h
      unfold ofLeaf at hname
      split at hname
      · simp at hname
      · obtain rfl := Expr.var.inj hname
        rw [String.toList_ofList]
        exact ⟨rfl, operators⟩
  | call fn inner =>
      rw [shape] at h
      obtain ⟨_, -, h⟩ := Option.map_eq_some_iff.1 h
      simp at h
  | chain operands =>
      rw [shape] at h spec
      obtain ⟨results, hresults, h⟩ := Option.map_eq_some_iff.1 h
      obtain ⟨op, left, right, heq⟩ :=
        Chain.join_of_rest_ne_nil (Chain.rest_ne_nil_of_mapM? hresults spec.2) Expr.binary
      rw [heq] at h
      simp at h
  | malformed =>
      rw [shape] at h
      simp at h

namespace Tidy

variable {name : String}

theorem removeBlanks_eq (h : Tidy name) : removeBlanks name.toList = name.toList := by
  have named := (Expr.unwrapAll_of_ofChars?_var (Expr.parse_eq_ok_iff.1 h.2)).1
  have size := length_unwrapAll_le (removeBlanks name.toList)
  rw [named] at size
  exact List.filter_sublist.eq_of_length_le size

theorem reads (h : Tidy name) : Expr.ofChars? name.toList = some (.var name) := by
  have read := Expr.parse_eq_ok_iff.1 h.2
  rwa [h.removeBlanks_eq] at read

theorem sealed (h : Tidy name) : Chain.Sealed name.toList :=
  Chain.Sealed.of_not_hasOperators h.1.openingsClosed
    (Expr.unwrapAll_of_ofChars?_var h.reads).2

end Tidy

/-- Whether the sign is plus and the value a number. Zero and infinity have signs too. -/
def Binary64.isPositive : Binary64 → Bool
  | .number false _ => true
  | _ => false

/-- What the text of a constant is read as. -/
def rereadConstant (c : Float) : Expr :=
  if Binary64.ofFloat c = .number false Binary64.infinity then
    .var "inf"
  else
    .const (Decimal.ofLiteral (constantText c)).toFloat

/-- The text of a constant has nothing in it that reading looks for, but perhaps a minus
    at the front. -/
theorem constantText_spec (c : Float) :
    ∃ sign body, constantText c = sign ++ body ∧
      ((Binary64.ofFloat c).isPositive = true → sign = []) ∧
      (hasBrackets sign = false ∧ removeBlanks sign = sign) ∧
      hasBrackets body = false ∧ hasOperators body = false ∧ removeBlanks body = body := by
  rw [constantText_eq]
  cases Binary64.ofFloat c with
  | nan => exact ⟨[], ['N', 'a', 'N'], rfl, fun _ => rfl, ⟨rfl, rfl⟩, rfl, rfl, rfl⟩
  | number negative index =>
      refine ⟨if negative then ['-'] else [], _, rfl, ?_, ?_, ?_⟩
      · cases negative <;> simp [Binary64.isPositive]
      · cases negative <;> exact ⟨rfl, rfl⟩
      · split
        · exact ⟨rfl, rfl, rfl⟩
        · have literal := Decimal.isLiteral_text (Decimal.fixed constantPlaces index)
          exact ⟨hasBrackets_of_isLiteral literal, hasOperators_of_isLiteral literal,
            removeBlanks_of_isLiteral literal⟩

theorem removeBlanks_append (left right : List Char) :
    removeBlanks (left ++ right) = removeBlanks left ++ removeBlanks right :=
  List.filter_append ..

theorem hasBrackets_append (left right : List Char) :
    hasBrackets (left ++ right) = (hasBrackets left || hasBrackets right) :=
  List.any_append

theorem hasBrackets_wrap (text : List Char) : hasBrackets (wrap text) = true := rfl

theorem hasBrackets_constantText (c : Float) : hasBrackets (constantText c) = false := by
  obtain ⟨sign, body, heq, -, ⟨bare, -⟩, brackets, -, -⟩ := constantText_spec c
  simp only [heq, hasBrackets_append, bare, brackets]
  rfl

theorem balanced_constantText (c : Float) : Mark.Balanced (marks (constantText c)) :=
  balanced_of_not_hasBrackets (hasBrackets_constantText c)

theorem removeBlanks_constantText (c : Float) : removeBlanks (constantText c) = constantText c := by
  obtain ⟨sign, body, heq, -, ⟨-, solid⟩, -, -, blanks⟩ := constantText_spec c
  simp only [heq, removeBlanks_append, solid, blanks]

theorem hasOperators_constantText {c : Float} (h : (Binary64.ofFloat c).isPositive = true) :
    hasOperators (constantText c) = false := by
  obtain ⟨sign, body, heq, hsign, -, -, operators, -⟩ := constantText_spec c
  simp only [heq, hsign h]
  exact operators

theorem constantText_minusOne : constantText (-1) = ['-', '1'] := by
  have value : Binary64.ofFloat (-1) = .number true (1023 * 2 ^ 52) := by decide
  have finite : 1023 * 2 ^ 52 ≠ Binary64.infinity := by decide
  rw [constantText_eq, value, Binary64.text_number, if_neg finite, Decimal.fixed_one]
  decide

theorem Expr.ofLeaf_nil : ofLeaf [] = .const 0 := by
  simp only [ofLeaf, Decimal.toFloat_ofLiteral_nil]
  rfl

theorem Decimal.toFloat_ofLiteral_one : (ofLiteral ['1']).toFloat = 1 := by
  have nearest : (ofLiteral ['1']).nearest = 1023 * 2 ^ 52 := Binary64.nearest_one
  rw [toFloat, nearest]
  decide

theorem Expr.ofLeaf_one : ofLeaf ['1'] = .const 1 := by
  simp only [ofLeaf, Decimal.toFloat_ofLiteral_one]
  rfl

theorem constantText_infinity {c : Float}
    (h : Binary64.ofFloat c = .number false Binary64.infinity) :
    constantText c = ['i', 'n', 'f'] := by
  rw [constantText_eq, h, Binary64.text_number, if_pos rfl]
  rfl

theorem Binary64.isLiteral_text (magnitude : Nat → Decimal) {index : Nat} (h : index ≠ infinity) :
    Decimal.isLiteral (Binary64.text magnitude (.number false index)) = true := by
  simp only [Binary64.text_number, if_neg h]
  exact Decimal.isLiteral_text (magnitude index)

theorem isLiteral_constantText {c : Float} (positive : (Binary64.ofFloat c).isPositive = true)
    (finite : Binary64.ofFloat c ≠ .number false Binary64.infinity) :
    Decimal.isLiteral (constantText c) = true := by
  rw [constantText_eq]
  cases value : Binary64.ofFloat c with
  | nan =>
      rw [value] at positive
      simp [Binary64.isPositive] at positive
  | number negative index =>
      rw [value] at positive finite
      cases negative with
      | true => simp [Binary64.isPositive] at positive
      | false =>
          have small : index ≠ Binary64.infinity := fun h => finite (congrArg _ h)
          exact Binary64.isLiteral_text _ small

theorem Expr.ofChars?_constantText {c : Float} (h : (Binary64.ofFloat c).isPositive = true) :
    ofChars? (constantText c) = some (rereadConstant c) := by
  rw [rereadConstant]
  split
  · next infinite =>
      rw [constantText_infinity infinite, ofChars?_plain rfl rfl]
      rfl
  · next finite =>
      have literal := isLiteral_constantText h finite
      have operators := hasOperators_of_isLiteral literal
      simp only [ofChars?_plain (hasBrackets_of_isLiteral literal) operators, ofLeaf,
        if_pos literal]

namespace Expr

/-- The names of the variables from left to right. -/
def names : Expr → List String
  | .var name => [name]
  | .const _ => []
  | .binary _ l r => l.names ++ r.names
  | .apply _ a => a.names

/-- Whether this is the constant `-1`. -/
def isMinusOne : Expr → Bool
  | .const c => c = -1
  | _ => false

/-- Every constant is positive or a `-1` on the left of a product. -/
def MinusInProducts : Expr → Prop
  | .var _ => True
  | .const c => (Binary64.ofFloat c).isPositive = true
  | .binary op l r => ((op = .mul ∧ l.isMinusOne = true) ∨ l.MinusInProducts) ∧ r.MinusInProducts
  | .apply _ a => a.MinusInProducts

theorem eq_of_isMinusOne {e : Expr} (h : e.isMinusOne = true) : e = .const (-1) := by
  cases e with
  | const c => exact congrArg Expr.const (of_decide_eq_true h)
  | _ => simp [isMinusOne] at h

theorem chars_of_isMinusOne {e : Expr} (h : e.isMinusOne = true) : e.chars = constantText (-1) := by
  rw [eq_of_isMinusOne h]
  rfl

/-- What the text of an expression is read as. -/
def reread : Expr → Expr
  | .var name => .var name
  | .const c => rereadConstant c
  | .binary op l r =>
      if op = .mul ∧ l.isMinusOne = true then
        .sub (.const 0) (.mul (.const 1) r.reread)
      else
        .binary op l.reread r.reread
  | .apply fn a => .apply fn a.reread

/-- The text of an expression without brackets of its own. -/
def bareChars : Expr → List Char
  | .binary op l r => l.chars ++ op.symbol :: r.chars
  | e => e.chars

theorem chars_binary (op : Op) (l r : Expr) :
    (Expr.binary op l r).chars = wrap (Expr.binary op l r).bareChars := by
  simp [chars, bareChars, wrap]

theorem chars_apply (fn : Func) (a : Expr) :
    (Expr.apply fn a).chars = fn.name ++ wrap a.bareChars := by
  cases a with
  | binary op l r => simp [chars, inBrackets, bareChars, wrap]
  | var _ => rfl
  | const _ => rfl
  | apply _ _ => rfl

theorem balanced_symbol (op : Op) : Mark.Balanced [Mark.ofChar op.symbol] := by
  rw [op.mark_symbol]
  exact Mark.Balanced.of_neither (by simp)

theorem balanced_wrap {text : List Char} (h : Mark.Balanced (marks text)) :
    Mark.Balanced (marks (wrap text)) := by
  rw [marks_wrap]
  exact h.wrap

theorem balanced_bareChars {e : Expr} (h : ∀ name ∈ e.names, Mark.Balanced (marks name.toList)) :
    Mark.Balanced (marks e.bareChars) ∧ Mark.Balanced (marks e.chars) := by
  induction e with
  | var name =>
      have balanced := h name List.mem_cons_self
      exact ⟨balanced, balanced⟩
  | const c => exact ⟨balanced_constantText c, balanced_constantText c⟩
  | binary op l r ihl ihr =>
      have left := (ihl fun name hname => h name (List.mem_append_left _ hname)).2
      have right := (ihr fun name hname => h name (List.mem_append_right _ hname)).2
      have whole : Mark.Balanced (marks (Expr.binary op l r).bareChars) := by
        simp only [bareChars, marks_append, marks_cons]
        exact left.append ((balanced_symbol op).append right)
      refine ⟨whole, ?_⟩
      rw [chars_binary]
      exact balanced_wrap whole
  | apply fn a ih =>
      have whole : Mark.Balanced (marks (Expr.apply fn a).chars) := by
        simp only [chars_apply, marks_append]
        exact fn.balanced_name.append (balanced_wrap (ih h).1)
      exact ⟨whole, whole⟩

theorem removeBlanks_wrap (text : List Char) :
    removeBlanks (wrap text) = wrap (removeBlanks text) := by
  rw [wrap, ← List.singleton_append, removeBlanks_append, removeBlanks_append]
  rfl

theorem removeBlanks_chars {e : Expr}
    (h : ∀ name ∈ e.names, removeBlanks name.toList = name.toList) :
    removeBlanks e.bareChars = e.bareChars ∧ removeBlanks e.chars = e.chars := by
  induction e with
  | var name => exact ⟨h name List.mem_cons_self, h name List.mem_cons_self⟩
  | const c => exact ⟨removeBlanks_constantText c, removeBlanks_constantText c⟩
  | binary op l r ihl ihr =>
      have left := (ihl fun name hname => h name (List.mem_append_left _ hname)).2
      have right := (ihr fun name hname => h name (List.mem_append_right _ hname)).2
      have symbol : removeBlanks [op.symbol] = [op.symbol] := by cases op <;> rfl
      have whole : removeBlanks (Expr.binary op l r).bareChars =
          (Expr.binary op l r).bareChars := by
        rw [bareChars, removeBlanks_append, ← List.singleton_append, removeBlanks_append, left,
          right, symbol]
      exact ⟨whole, by rw [chars_binary, removeBlanks_wrap, whole]⟩
  | apply fn a ih =>
      have bare : removeBlanks fn.name = fn.name := by cases fn <;> rfl
      have whole : removeBlanks (Expr.apply fn a).chars = (Expr.apply fn a).chars := by
        simp only [chars_apply, removeBlanks_append, bare, removeBlanks_wrap, (ih h).1]
      exact ⟨whole, whole⟩

theorem sealed_chars {e : Expr} (tidy : ∀ name ∈ e.names, Tidy name) (h : e.MinusInProducts) :
    Chain.Sealed e.chars := by
  have balanced := balanced_bareChars fun name hname => (tidy name hname).1
  cases e with
  | var name => exact (tidy name List.mem_cons_self).sealed
  | const c =>
      exact Chain.Sealed.of_not_hasOperators balanced.2.openingsClosed (hasOperators_constantText h)
  | binary op l r =>
      rw [chars_binary]
      exact Chain.Sealed.wrap balanced.1
  | apply fn a =>
      have inner := @balanced_bareChars a fun name hname => (tidy name hname).1
      rw [chars_apply]
      exact fn.sealed_name.append (Chain.Sealed.wrap inner.1)

theorem ofChars?_link {left right : List Char} (hl : Chain.Sealed left) (hr : Chain.Sealed right)
    (op : Op) :
    ofChars? (left ++ op.symbol :: right) =
      (ofChars? left).bind fun l => (ofChars? right).map (.binary op l) :=
  ofChars?_loosest (.of_sealed hl) (.of_sealed hr)

/-- The minus of `-1` at the front of a product stands between nothing and the product of one
    and the rest. -/
theorem ofChars?_minusProduct {text : List Char} (h : Chain.Sealed text) :
    ofChars? (constantText (-1) ++ '*' :: text) =
      (ofChars? text).map fun e => .sub (.const 0) (.mul (.const 1) e) := by
  have nothing : Chain.Sealed [] := rfl
  have one : Chain.Sealed ['1'] := rfl
  have zero : ofChars? [] = some (.const 0) := by
    rw [ofChars?_plain rfl rfl, ofLeaf_nil]
  have unit : ofChars? ['1'] = some (.const 1) := by
    rw [ofChars?_plain rfl rfl, ofLeaf_one]
  -- the minus is looser than the product, so the product is read first
  have product :
      Chain.CutsOnly (fun op => Op.sub.tightness < op.tightness) (['1'] ++ Op.mul.symbol :: text) :=
    Chain.CutsOnly.link (.of_sealed one) (by decide) (.of_sealed h)
  rw [constantText_minusOne]
  refine (ofChars?_loosest (.of_sealed nothing) product).trans ?_
  rw [zero, ofChars?_link one h, unit]
  cases ofChars? text <;> rfl

/-- The induction needs the text with and without its brackets: a function brings the brackets of
    its argument. -/
theorem ofChars?_chars {e : Expr} (tidy : ∀ name ∈ e.names, Tidy name) (h : e.MinusInProducts) :
    ofChars? e.bareChars = some e.reread ∧ ofChars? e.chars = some e.reread := by
  induction e with
  | var name =>
      have reads := (tidy name List.mem_cons_self).reads
      exact ⟨reads, reads⟩
  | const c => exact ⟨ofChars?_constantText h, ofChars?_constantText h⟩
  | binary op l r ihl ihr =>
      have tidy_left : ∀ name ∈ l.names, Tidy name :=
        fun name hname => tidy name (List.mem_append_left _ hname)
      have tidy_right : ∀ name ∈ r.names, Tidy name :=
        fun name hname => tidy name (List.mem_append_right _ hname)
      have right := (ihr tidy_right h.2).2
      have bare : ofChars? (Expr.binary op l r).bareChars = some (Expr.binary op l r).reread := by
        simp only [bareChars, reread]
        split
        · next minus =>
            obtain ⟨rfl, minus⟩ := minus
            rw [chars_of_isMinusOne minus]
            refine (ofChars?_minusProduct (sealed_chars tidy_right h.2)).trans ?_
            rw [right]
            rfl
        · next plain =>
            have left_minus := h.1.resolve_left plain
            have sealed_left := sealed_chars tidy_left left_minus
            simp only [ofChars?_link sealed_left (sealed_chars tidy_right h.2),
              (ihl tidy_left left_minus).2, right]
            rfl
      refine ⟨bare, ?_⟩
      have balanced := balanced_bareChars fun name hname => (tidy name hname).1
      simp only [chars_binary, ofChars?_wrap balanced.1]
      exact bare
  | apply fn a ih =>
      have balanced := @balanced_bareChars a fun name hname => (tidy name hname).1
      have whole : ofChars? (Expr.apply fn a).chars = some (Expr.apply fn a).reread := by
        simp only [chars_apply, ofChars?_call fn balanced.1, (ih tidy h).1]
        rfl
      exact ⟨whole, whole⟩

/-- Reading what was written gives the expression back, up to what the text cannot say. -/
theorem parse_text {e : Expr} (tidy : ∀ name ∈ e.names, Tidy name) (h : e.MinusInProducts) :
    parse e.text = .ok e.reread := by
  rw [parse_eq_ok_iff, text, String.toList_ofList,
    (removeBlanks_chars fun name hname => (tidy name hname).removeBlanks_eq).2]
  exact (ofChars?_chars tidy h).2

private theorem tidy_call : Tidy "f(x)" := by
  constructor
  · exact Mark.balanced_iff.2 rfl
  · have chars : removeBlanks "f(x)".toList = ['f', '(', 'x', ')'] := by decide
    rw [parse_eq_ok_iff, ofChars?_eq, chars, unwrapAll_of_none rfl]
    rfl

private theorem rereadConstant_two : rereadConstant 2 = .const 2 := by
  have finite : Binary64.ofFloat 2 ≠ .number false Binary64.infinity := by decide
  have value : (Decimal.ofLiteral (constantText 2)).toFloat = 2 := by decide +kernel
  simp only [rereadConstant, if_neg finite, value]

/-- A product as the derivative of a cosine has it, with a variable whose name looks like a call. -/
theorem parse_text_minusCos :
    let e : Expr := .mul (.const (-1)) (.cos (.add (.var "f(x)") (.const 2)))
    e.text = "(-1*cos(f(x)+2))" ∧
      parse e.text =
        .ok (.sub (.const 0) (.mul (.const 1) (.cos (.add (.var "f(x)") (.const 2))))) := by
  have minus : isMinusOne (.const (-1)) = true := by decide
  have positive : (Binary64.ofFloat 2).isPositive = true := by decide
  refine ⟨by decide +kernel, ?_⟩
  refine (parse_text ?_ ?_).trans ?_
  · intro name hname
    obtain rfl : name = "f(x)" := by simpa [names] using hname
    exact tidy_call
  · exact ⟨.inl ⟨rfl, minus⟩, .inr trivial, positive⟩
  · rw [reread, if_pos ⟨rfl, minus⟩]
    simp only [reread, reduceCtorEq, false_and, if_false, rereadConstant_two]

end Expr

end Fluxion
