import Fluxion.Proofs.Expr.Likeness

/-! # What a text was written from

A text says what it was written from, up to what the text of a constant cannot say. Reading does not
show this, because a minus in front of a constant is read as an operator. But a minus stands there
only at the front of an operand, and behind it an operand is cut at no operator. So the first
operator behind the first character and outside all brackets is that of the expression, and brackets
around the whole and calls are seen in the text.
-/

namespace Fluxion

theorem Op.symbol_injective {op op' : Op} (h : op.symbol = op'.symbol) : op = op' := by
  have same := op.ofChar?_symbol
  rw [h, op'.ofChar?_symbol] at same
  exact (Option.some.inj same).symm

namespace Chain

variable {left left' right right' text : List Char} {op op' : Op}

theorem Sealed.link_inj (hl : Sealed left) (hl' : Sealed left')
    (h : left ++ op.symbol :: right = left' ++ op'.symbol :: right') :
    left = left' ∧ op = op' ∧ right = right' := by
  -- the longer one would be cut at the operator behind the shorter one
  have shortest : ∀ {first more rest behind : List Char} {o : Op}, Sealed first →
      Sealed (first ++ more) →
        o.symbol :: rest = more ++ behind → more = [] := by
    intro first more rest behind o hfirst hlonger heq
    cases more with
    | nil => rfl
    | cons c more =>
        obtain ⟨rfl, -⟩ := List.cons.inj heq
        exact absurd hlonger (not_sealed_link hfirst.openingsClosed o more)
  have lefts : left = left' := by
    cases List.append_eq_append_iff.1 h with
    | inl longer =>
        obtain ⟨more, rfl, heq⟩ := longer
        rw [shortest hl hl' heq, List.append_nil]
    | inr shorter =>
        obtain ⟨more, rfl, heq⟩ := shorter
        rw [shortest hl' hl heq, List.append_nil]
  subst lefts
  obtain ⟨symbols, rights⟩ := List.cons.inj (List.append_cancel_left h)
  exact ⟨rfl, Op.symbol_injective symbols, rights⟩

theorem Sealed.ne_link (h : Sealed text) (closed : Mark.OpeningsClosed (marks left)) :
    text ≠ left ++ op.symbol :: right := by
  intro heq
  rw [heq] at h
  exact not_sealed_link closed op right h

/-- A text that is cut nowhere, or only at a minus in front of it. -/
inductive Operand : List Char → Prop where
  | plain {text : List Char} (sealed : Sealed text) (nonempty : text ≠ []) : Operand text
  | negative {text : List Char} (sealed : Sealed text) : Operand (Op.sub.symbol :: text)

namespace Operand

theorem plain_ne_negative (sealed : Sealed left) (nonempty : left ≠ []) :
    left ++ right ≠ Op.sub.symbol :: text := by
  intro heq
  cases left with
  | nil => exact nonempty rfl
  | cons c left =>
      obtain ⟨rfl, -⟩ := List.cons.inj heq
      exact @not_sealed_link [] (Mark.openingsClosed_iff.2 rfl) .sub left sealed

theorem link_inj (hl : Operand left) (hl' : Operand left')
    (h : left ++ op.symbol :: right = left' ++ op'.symbol :: right') :
    left = left' ∧ op = op' ∧ right = right' := by
  cases hl with
  | plain sealed nonempty =>
      cases hl' with
      | plain sealed' _ => exact sealed.link_inj sealed' h
      | negative _ => exact absurd h (plain_ne_negative sealed nonempty)
  | negative sealed =>
      cases hl' with
      | plain sealed' nonempty => exact absurd h.symm (plain_ne_negative sealed' nonempty)
      | negative sealed' =>
          obtain ⟨rfl, ops, rights⟩ := sealed.link_inj sealed' (List.cons.inj h).2
          exact ⟨rfl, ops, rights⟩

theorem ne_link (h : Operand text) (hl : Operand left) : text ≠ left ++ op.symbol :: right := by
  cases h with
  | plain sealed nonempty =>
      cases hl with
      | plain sealed' _ => exact sealed.ne_link sealed'.openingsClosed
      | negative _ =>
          intro heq
          exact plain_ne_negative sealed nonempty ((List.append_nil _).trans heq)
  | negative sealed =>
      cases hl with
      | plain sealed' nonempty' => exact fun heq => plain_ne_negative sealed' nonempty' heq.symm
      | negative sealed' =>
          intro heq
          exact sealed.ne_link sealed'.openingsClosed (List.cons.inj heq).2

end Operand

end Chain

/-- A tidy name that is not spelled like a constant either. -/
def Plain (name : String) : Prop := Tidy name ∧ name ≠ "inf" ∧ name ≠ "NaN"

/-- A minus, if there is one, and then digits or one of two words. -/
theorem exists_constantText (c : Float) :
    ∃ body, (constantText c = body ∨ constantText c = '-' :: body) ∧ body ≠ [] ∧
      (Decimal.isLiteral body = true ∨ body = ['i', 'n', 'f'] ∨ body = ['N', 'a', 'N']) := by
  rw [constantText_eq]
  cases Binary64.ofFloat c with
  | nan => exact ⟨['N', 'a', 'N'], .inl rfl, by simp, .inr (.inr rfl)⟩
  | number negative index =>
      have signed : ∀ body : List Char, (if negative then ['-'] else []) ++ body = body ∨
          (if negative then ['-'] else []) ++ body = '-' :: body := by
        cases negative <;> simp
      rw [Binary64.text_number]
      refine ⟨_, signed _, ?_⟩
      split
      · exact ⟨by simp, .inr (.inl rfl)⟩
      · refine ⟨?_, .inl (Decimal.isLiteral_text _)⟩
        rw [Decimal.text]
        split <;> simp [Nat.toDigits_ne_nil]

theorem operand_constantText (c : Float) : Chain.Operand (constantText c) := by
  obtain ⟨body, signed, nonempty, kind⟩ := exists_constantText c
  have sealed : Chain.Sealed body := by
    rcases kind with literal | rfl | rfl
    · have balanced := balanced_of_not_hasBrackets (hasBrackets_of_isLiteral literal)
      exact .of_not_hasOperators balanced.openingsClosed (hasOperators_of_isLiteral literal)
    · exact .of_not_hasOperators (balanced_of_not_hasBrackets rfl).openingsClosed rfl
    · exact .of_not_hasOperators (balanced_of_not_hasBrackets rfl).openingsClosed rfl
  cases signed with
  | inl plain =>
      rw [plain]
      exact .plain sealed nonempty
  | inr negative =>
      rw [negative]
      exact .negative sealed

namespace Tidy

variable {name : String}

theorem nonempty (h : Tidy name) : name.toList ≠ [] := by
  intro empty
  have reads := h.reads
  rw [empty, Expr.ofChars?_plain rfl rfl, Expr.ofLeaf_nil] at reads
  simp at reads

theorem unwrap?_eq (h : Tidy name) : unwrap? name.toList = none := by
  have bare := unwrap?_unwrapAll name.toList
  rwa [(Expr.unwrapAll_of_ofChars?_var h.reads).1] at bare

theorem call?_eq (h : Tidy name) : Shape.call? name.toList = none := by
  cases found : Shape.call? name.toList with
  | none => rfl
  | some call =>
      obtain ⟨heq, balanced⟩ := Shape.call?_eq_some_iff.1 found
      have reads := h.reads
      rw [heq, Expr.ofChars?_call call.1 balanced] at reads
      obtain ⟨_, -, same⟩ := Option.map_eq_some_iff.1 reads
      simp at same

end Tidy

/-- A minus would be an operator, and a literal would be read as a number. -/
theorem Plain.ne_constantText {name : String} (h : Plain name) (c : Float) :
    name.toList ≠ constantText c := by
  obtain ⟨tidy, notInf, notNaN⟩ := h
  have spelled : ∀ {word : String}, name.toList = word.toList → name = word := String.toList_inj.1
  intro heq
  have reads := tidy.reads
  obtain ⟨body, signed, -, kind⟩ := exists_constantText c
  rw [← heq] at signed
  cases signed with
  | inr negative =>
      have operators := (Expr.unwrapAll_of_ofChars?_var reads).2
      rw [negative, hasOperators, List.any_cons] at operators
      simp [Op.ofChar?] at operators
  | inl plain =>
      subst plain
      rcases kind with literal | inf | nan
      · have operators := hasOperators_of_isLiteral literal
        rw [Expr.ofChars?_plain (hasBrackets_of_isLiteral literal) operators, Expr.ofLeaf,
          if_pos literal] at reads
        simp at reads
      · exact notInf (spelled inf)
      · exact notNaN (spelled nan)

namespace Expr

variable {e e' : Expr}

theorem balanced_of_plain (plain : ∀ name ∈ e.names, Plain name) :
    Mark.Balanced (marks e.bareChars) ∧ Mark.Balanced (marks e.chars) :=
  balanced_bareChars fun name hname => (plain name hname).1.1

theorem operand_chars (plain : ∀ name ∈ e.names, Plain name) : Chain.Operand e.chars := by
  cases e with
  | var name =>
      have tidy := (plain name List.mem_cons_self).1
      exact .plain tidy.sealed tidy.nonempty
  | const c => exact operand_constantText c
  | binary op l r =>
      rw [chars_binary]
      exact .plain (.wrap (balanced_of_plain plain).1) (by simp [wrap])
  | apply fn a =>
      rw [chars_apply]
      exact .plain (fn.sealed_name.append (.wrap (@balanced_of_plain a plain).1)) (by simp [wrap])

/-- What stands in the brackets around the text, if the expression has an operator at its top. -/
def opened : Expr → Option (List Char)
  | .binary op l r => some (bareChars (.binary op l r))
  | _ => none

/-- The function at the top of the expression, if there is one, and what stands in the
    brackets behind it. -/
def called : Expr → Option (Func × List Char)
  | .apply fn a => some (fn, a.bareChars)
  | _ => none

theorem unwrap?_chars (plain : ∀ name ∈ e.names, Plain name) : unwrap? e.chars = e.opened := by
  cases e with
  | var name => exact (plain name List.mem_cons_self).1.unwrap?_eq
  | const c =>
      cases found : unwrap? (constantText c) with
      | none => exact found
      | some inner =>
          have brackets := hasBrackets_constantText c
          rw [(unwrap?_eq_some_iff.1 found).1, hasBrackets_wrap] at brackets
          cases brackets
  | binary op l r =>
      rw [chars_binary]
      exact unwrap?_wrap (balanced_of_plain plain).1
  | apply fn a =>
      rw [chars_apply]
      cases fn <;> rfl

theorem call?_chars (plain : ∀ name ∈ e.names, Plain name) : Shape.call? e.chars = e.called := by
  cases e with
  | var name => exact (plain name List.mem_cons_self).1.call?_eq
  | const c =>
      cases found : Shape.call? (constantText c) with
      | none => exact found
      | some call =>
          have brackets := hasBrackets_constantText c
          rw [(Shape.call?_eq_some_iff.1 found).1, hasBrackets_append, hasBrackets_wrap,
            Bool.or_true] at brackets
          cases brackets
  | binary op l r =>
      rw [chars_binary]
      cases found : Shape.call? (wrap (Expr.binary op l r).bareChars) with
      | none => rfl
      | some call =>
          have heq := (Shape.call?_eq_some_iff.1 found).1
          cases hfn : call.1 <;> simp [hfn, Func.name, wrap] at heq
  | apply fn a =>
      rw [chars_apply]
      exact Shape.call?_eq_some_iff.2 ⟨rfl, (@balanced_of_plain a plain).1⟩

/-- Without its own brackets the text still shows whether it had some: it has an operator
    behind an operand. -/
theorem chars_eq_of_bareChars_eq (plain : ∀ name ∈ e.names, Plain name)
    (plain' : ∀ name ∈ e'.names, Plain name)
    (h : e.bareChars = e'.bareChars) : e.chars = e'.chars := by
  have written : ∀ {d : Expr}, (∀ name ∈ d.names, Plain name) →
      (Chain.Operand d.bareChars → d.chars = d.bareChars) ∧
        (¬ Chain.Operand d.bareChars → d.chars = wrap d.bareChars) := by
    intro d plain
    have operand := operand_chars plain
    cases d with
    | var _ => exact ⟨fun _ => rfl, fun other => absurd operand other⟩
    | const _ => exact ⟨fun _ => rfl, fun other => absurd operand other⟩
    | apply _ _ => exact ⟨fun _ => rfl, fun other => absurd operand other⟩
    | binary op l r =>
        have left := operand_chars fun name hname => plain name (List.mem_append_left _ hname)
        exact ⟨fun bare => absurd rfl (bare.ne_link left), fun _ => chars_binary op l r⟩
  have first := written plain
  have second := written plain'
  rw [← h] at second
  by_cases operand : Chain.Operand e.bareChars
  · rw [first.1 operand, second.1 operand]
  · rw [first.2 operand, second.2 operand]

theorem same_kind (plain : ∀ name ∈ e.names, Plain name) (plain' : ∀ name ∈ e'.names, Plain name)
    (h : e.chars = e'.chars) : e.opened = e'.opened ∧ e.called = e'.called := by
  rw [← unwrap?_chars plain, ← unwrap?_chars plain', ← call?_chars plain, ← call?_chars plain', h]
  exact ⟨rfl, rfl⟩

/-- Constants are written alike. -/
def SameText (c d : Float) : Prop := constantText c = constantText d

theorem alike_of_chars_eq (plain : ∀ name ∈ e.names, Plain name)
    (plain' : ∀ name ∈ e'.names, Plain name) (h : e.chars = e'.chars) : Alike SameText e e' := by
  induction e generalizing e' with
  | var name =>
      obtain ⟨opened, called⟩ := same_kind plain plain' h
      cases e' with
      | var name' =>
          obtain rfl : name = name' := String.toList_inj.1 h
          exact .var name
      | const c => exact absurd h ((plain name List.mem_cons_self).ne_constantText c)
      | binary op' l' r' => simp [Expr.opened] at opened
      | apply fn' a' => simp [Expr.called] at called
  | const c =>
      obtain ⟨opened, called⟩ := same_kind plain plain' h
      cases e' with
      | var name' => exact absurd h.symm ((plain' name' List.mem_cons_self).ne_constantText c)
      | const c' => exact .const h
      | binary op' l' r' => simp [Expr.opened] at opened
      | apply fn' a' => simp [Expr.called] at called
  | binary op l r ihl ihr =>
      obtain ⟨opened, -⟩ := same_kind plain plain' h
      cases e' with
      | binary op' l' r' =>
          obtain ⟨left, right⟩ := List.forall_mem_append.1 plain
          obtain ⟨left', right'⟩ := List.forall_mem_append.1 plain'
          have bare : l.chars ++ op.symbol :: r.chars = l'.chars ++ op'.symbol :: r'.chars :=
            Option.some.inj opened
          obtain ⟨lefts, rfl, rights⟩ := (operand_chars left).link_inj (operand_chars left') bare
          exact .binary op (ihl left left' lefts) (ihr right right' rights)
      | _ => simp [Expr.opened] at opened
  | apply fn a ih =>
      obtain ⟨-, called⟩ := same_kind plain plain' h
      cases e' with
      | apply fn' a' =>
          obtain ⟨rfl, bare⟩ := Prod.mk.inj (Option.some.inj called)
          exact .apply fn (ih plain plain' (chars_eq_of_bareChars_eq plain plain' bare))
      | _ => simp [Expr.called] at called

theorem Alike.chars_eq (h : Alike SameText e e') :
    e.bareChars = e'.bareChars ∧ e.chars = e'.chars := by
  induction h with
  | var name => exact ⟨rfl, rfl⟩
  | const h => exact ⟨h, h⟩
  | binary op left right ihl ihr =>
      simp only [bareChars, chars, ihl.2, ihr.2, and_self]
  | apply fn arg ih =>
      have whole := congrArg (fun text => fn.name ++ wrap text) ih.1
      simp only [← chars_apply] at whole
      exact ⟨whole, whole⟩

/-- Two expressions have the same text if and only if they have the same structure and the same
    names and their constants have the same texts. -/
theorem text_eq_iff (plain : ∀ name ∈ e.names, Plain name)
    (plain' : ∀ name ∈ e'.names, Plain name) :
    e.text = e'.text ↔ Alike SameText e e' := by
  rw [text, text, String.ofList_inj]
  constructor
  · exact alike_of_chars_eq plain plain'
  · exact fun h => h.chars_eq.2

/-- The least double below zero is written like the zero with a sign, and the name has
    brackets of its own. -/
theorem text_eq_iff_zeros :
    let e : Expr := .sub (.sin (.var "(a)(b)")) (.const (-0))
    let e' : Expr := .sub (.sin (.var "(a)(b)")) (.const (Float.ofBits 0x8000000000000001))
    (∀ name ∈ e.names, Plain name) ∧ (∀ name ∈ e'.names, Plain name) ∧ e.text = e'.text ∧
      Alike SameText e e' := by
  intro e e'
  have name : removeBlanks "(a)(b)".toList = ['(', 'a', ')', '(', 'b', ')'] := by decide
  have reads : parse "(a)(b)" = .ok (.var "(a)(b)") := by
    rw [parse_eq_ok_iff, ofChars?_eq, name, unwrapAll_of_none rfl]
    rfl
  have plain : Plain "(a)(b)" := ⟨⟨Mark.balanced_iff.2 (by decide), reads⟩, by decide, by decide⟩
  have names : ∀ c, ∀ name ∈ (Expr.sub (.sin (.var "(a)(b)")) (.const c)).names, Plain name := by
    intro c name hname
    obtain rfl := List.mem_singleton.1 hname
    exact plain
  have zeros : constantText (-0) = constantText (Float.ofBits 0x8000000000000001) := by
    decide +kernel
  have alike : Alike SameText e e' :=
    .binary .sub (.apply .sin (.var "(a)(b)")) (.const zeros)
  exact ⟨names _, names _, (text_eq_iff (names _) (names _)).2 alike, alike⟩

end Expr

end Fluxion
