import Fluxion.Proofs.Expr.Vocabulary

/-! # Expressions that are alike

Two expressions are alike when they have the same structure and the same names and their constants
are related. What the relation of the constants is, symmetric, transitive or reflexive on some of
them, likeness is too, and differentiation keeps it. Equality is the likeness of constants that are
equal as doubles, so it is no more than a partial equivalence: it tells NaN from itself and takes
one zero for the other.
-/

namespace Fluxion.Expr

/-- The same structure and the same names, and constants that are related. -/
inductive Alike (R : Float → Float → Prop) : Expr → Expr → Prop where
  | var (name : String) : Alike R (.var name) (.var name)
  | const {c d : Float} (h : R c d) : Alike R (.const c) (.const d)
  | binary (op : Op) {l l' r r' : Expr} (left : Alike R l l') (right : Alike R r r') :
      Alike R (.binary op l r) (.binary op l' r')
  | apply (fn : Func) {a a' : Expr} (arg : Alike R a a') : Alike R (.apply fn a) (.apply fn a')

section

variable {R : Float → Float → Prop} {e e' e'' : Expr}

theorem Alike.symm (symmetric : ∀ {c d}, R c d → R d c) (h : Alike R e e') : Alike R e' e := by
  induction h with
  | var name => exact .var name
  | const h => exact .const (symmetric h)
  | binary op left right ihl ihr => exact .binary op ihl ihr
  | apply fn arg ih => exact .apply fn ih

theorem Alike.trans (transitive : ∀ {b c d}, R b c → R c d → R b d) (h : Alike R e e')
    (h' : Alike R e' e'') :
    Alike R e e'' := by
  induction h generalizing e'' with
  | var name => exact h'
  | const h =>
      cases h' with
      | const h' => exact .const (transitive h h')
  | binary op left right ihl ihr =>
      cases h' with
      | binary _ left' right' => exact .binary op (ihl left') (ihr right')
  | apply fn arg ih =>
      cases h' with
      | apply _ arg' => exact .apply fn (ih arg')

theorem alike_self_iff : Alike R e e ↔ ∀ c ∈ e.constants, R c c := by
  induction e with
  | var name => exact iff_of_true (.var name) fun _ hc => absurd hc List.not_mem_nil
  | const c =>
      rw [constants, List.forall_mem_singleton]
      constructor
      · intro h
        cases h with
        | const h => exact h
      · exact .const
  | binary op l r ihl ihr =>
      rw [constants, List.forall_mem_append, ← ihl, ← ihr]
      constructor
      · intro h
        cases h with
        | binary _ left right => exact ⟨left, right⟩
      · intro h
        exact .binary op h.1 h.2
  | apply fn a ih =>
      rw [constants, ← ih]
      constructor
      · intro h
        cases h with
        | apply _ arg => exact arg
      · exact .apply fn

/-- The rules copy their operands and bring three constants. -/
theorem Alike.derivative (zero : R 0 0) (one : R 1 1) (minusOne : R (-1) (-1)) (h : Alike R e e') :
    Alike R e.derivative e'.derivative := by
  induction h with
  | var _ => exact .const one
  | const _ => exact .const zero
  | binary op left right ihl ihr =>
      cases op with
      | add => exact .binary .add ihl ihr
      | sub => exact .binary .sub ihl ihr
      | mul => exact .binary .add (.binary .mul ihl right) (.binary .mul left ihr)
      | div =>
          exact .binary .div (.binary .sub (.binary .mul ihl right) (.binary .mul left ihr))
            (.binary .mul right right)
      | pow =>
          have logarithm := Alike.binary .mul (.binary .div (.const one) left) ihl
          exact .binary .mul (.binary .pow left right)
            (.binary .add (.binary .mul ihr (.apply .ln left)) (.binary .mul right logarithm))
  | apply fn arg ih =>
      cases fn with
      | ln => exact .binary .mul (.binary .div (.const one) arg) ih
      | sin => exact .binary .mul (.apply .cos arg) ih
      | cos => exact .binary .mul (.const minusOne) (.binary .mul (.apply .cos arg) ih)

theorem Alike.nthDerivative (zero : R 0 0) (one : R 1 1) (minusOne : R (-1) (-1)) (h : Alike R e e')
    (n : Nat) :
    Alike R (nthDerivative n e) (nthDerivative n e') := by
  induction n generalizing e e' with
  | zero => exact h
  | succ n ih => exact ih (h.derivative zero one minusOne)

end

theorem beq_iff_alike {e e' : Expr} :
    (e == e') = true ↔ Alike (fun c d => (c == d) = true) e e' := by
  constructor
  · intro h
    induction e generalizing e' with
    | var name =>
        cases e' with
        | var name' =>
            obtain rfl : name = name' := eq_of_beq h
            exact .var name
        | _ => exact absurd h Bool.false_ne_true
    | const c =>
        cases e' with
        | const c' => exact .const h
        | _ => exact absurd h Bool.false_ne_true
    | binary op l r ihl ihr =>
        cases e' with
        | binary op' l' r' =>
            obtain ⟨h, right⟩ := Bool.and_eq_true_iff.1 h
            obtain ⟨ops, left⟩ := Bool.and_eq_true_iff.1 h
            obtain rfl : op = op' := eq_of_beq ops
            exact .binary op (ihl left) (ihr right)
        | _ => exact absurd h Bool.false_ne_true
    | apply fn a ih =>
        cases e' with
        | apply fn' a' =>
            obtain ⟨fns, arg⟩ := Bool.and_eq_true_iff.1 h
            obtain rfl : fn = fn' := eq_of_beq fns
            exact .apply fn (ih arg)
        | _ => exact absurd h Bool.false_ne_true
  · intro h
    induction h with
    | var name => exact beq_self_eq_true name
    | const h => exact h
    | binary op left right ihl ihr =>
        exact Bool.and_eq_true_iff.2 ⟨Bool.and_eq_true_iff.2 ⟨beq_self_eq_true op, ihl⟩, ihr⟩
    | apply fn arg ih => exact Bool.and_eq_true_iff.2 ⟨beq_self_eq_true fn, ih⟩

instance : PartialEquivBEq Expr where
  symm h := beq_iff_alike.2 ((beq_iff_alike.1 h).symm BEq.symm)
  trans h h' := beq_iff_alike.2 ((beq_iff_alike.1 h).trans BEq.trans (beq_iff_alike.1 h'))

theorem beq_self_iff {e : Expr} : (e == e) = true ↔ ∀ c ∈ e.constants, c.isNaN = false := by
  rw [beq_iff_alike, alike_self_iff]
  refine forall₂_congr fun c _ => ?_
  rw [Float.beq_self_iff, Float.isNaN_eq_decide_eq_nan, decide_eq_false_iff_not]

theorem nthDerivative_beq {e e' : Expr} (h : e == e') (n : Nat) :
    nthDerivative n e == nthDerivative n e' :=
  beq_iff_alike.2 ((beq_iff_alike.1 h).nthDerivative (by decide) (by decide) (by decide) n)

/-- Equality is symmetric and transitive, it is reflexive where no constant is NaN, and derivatives
    of all orders respect it, although it does not tell the two zeros apart. -/
theorem beq_laws (e e' e'' : Expr) (n : Nat) :
    (e == e' → e' == e) ∧ (e == e' → e' == e'' → e == e'') ∧
      ((e == e) = true ↔ ∀ c ∈ e.constants, c.isNaN = false) ∧
      (e == e' → nthDerivative n e == nthDerivative n e') ∧
      (Expr.const 0 == Expr.const (-0)) = true ∧ Expr.const 0 ≠ Expr.const (-0) := by
  refine ⟨BEq.symm, BEq.trans, beq_self_iff, fun h => nthDerivative_beq h n, by decide,
    fun same => ?_⟩
  have zeros : (0 : Float) ≠ -0 := by decide
  exact zeros (Expr.const.inj same)

/-- The rule of the power copies its exponent, here a zero with and without a sign. -/
theorem beq_laws_powers :
    let e : Expr := .pow (.var "x") (.const 0)
    let e' : Expr := .pow (.var "x") (.const (-0))
    (e == e') = true ∧ (e' == e) = true ∧ (e == e) = true ∧
      (nthDerivative 2 e == nthDerivative 2 e') = true := by
  intro e e'
  have zeros : (e == e') = true := by decide
  have back := (beq_laws e e' e 2).1 zeros
  exact ⟨zeros, back, (beq_laws e e' e 2).2.1 zeros back, (beq_laws e e' e 2).2.2.2.1 zeros⟩

end Fluxion.Expr
