import Fluxion.Proofs.Chain.Grouping
import Fluxion.Proofs.Expr.Reading

/-! # Where an expression comes from

Every expression that is read comes from its text by four rules: a text without operators is a leaf,
brackets around a text change nothing, a function stands before a text in brackets, and an operator
stands between two texts. What all four rules keep holds for everything that is read.
-/

namespace Fluxion

-- Equality as data. `==` compares the constants as doubles.
deriving instance DecidableEq for Expr

/-- The rules by which an expression comes from a text. Which operator is taken last
    is left open. -/
inductive Spells : List Char → Expr → Prop where
  | leaf {text : List Char} (operators : hasOperators text = false)
      (reads : Expr.ofChars? text = some (Expr.ofLeaf text)) : Spells text (Expr.ofLeaf text)
  | wrap {text : List Char} {e : Expr} (balanced : Mark.Balanced (marks text))
    (inner : Spells text e) :
      Spells (wrap text) e
  | call {text : List Char} {e : Expr} (fn : Func) (balanced : Mark.Balanced (marks text))
      (inner : Spells text e) : Spells (fn.name ++ Fluxion.wrap text) (.apply fn e)
  | link {left right : List Char} {l r : Expr} (op : Op) (hleft : Mark.OpeningsClosed (marks left))
      (hright : Mark.OpeningsClosed (marks right)) (first : Spells left l)
        (second : Spells right r) :
      Spells (left ++ op.symbol :: right) (.binary op l r)

namespace Chain

variable {α β : Type}

theorem flatten_link (left : Chain (List Char)) (op : Op) (right : Chain (List Char)) :
    (left.link op right).flatten = left.flatten ++ op.symbol :: right.flatten := by
  simp [link, flatten]

theorem operands_link (left : Chain α) (op : Op) (right : Chain α) :
    (left.link op right).operands = left.operands ++ right.operands := by
  simp [link, operands]

theorem mapM?_eq_some_map {f : α → Option β} {g : α → β} {chain : Chain α}
    (h : ∀ a ∈ chain.operands, f a = some (g a)) : chain.mapM? f = some (chain.map g) := by
  rw [mapM?_congr h]
  obtain ⟨first, rest⟩ := chain
  induction rest generalizing first with
  | nil => rfl
  | cons head rest ih =>
      have tail := ih head.2 fun a ha => h a (List.mem_cons_of_mem _ ha)
      simp only [mapM?_cons (fun a => some (g a)) first head.1 ⟨head.2, rest⟩, tail]
      rfl

theorem spells_fold {read : List Char → Expr} {g : Grouping (List Char)}
    (h : ∀ text ∈ g.chain.operands, Mark.OpeningsClosed (marks text) ∧ Spells text (read text)) :
    Mark.OpeningsClosed (marks g.chain.flatten) ∧ Spells g.chain.flatten (g.fold read .binary) := by
  induction g with
  | operand text =>
      have whole : (Grouping.operand text).chain.flatten = text := List.append_nil text
      rw [whole]
      exact h text List.mem_cons_self
  | node op left right ihl ihr =>
      rw [Grouping.chain, operands_link] at h
      have first := ihl fun text htext => h text (List.mem_append_left _ htext)
      have second := ihr fun text htext => h text (List.mem_append_right _ htext)
      rw [Grouping.chain, flatten_link]
      exact ⟨openingsClosed_link first.1 op second.1, .link op first.1 second.1 first.2 second.2⟩

end Chain

namespace Expr

/-- Everything that is read comes from its text by the rules. -/
theorem spells_of_ofChars? {text : List Char} {e : Expr} (h : ofChars? text = some e) :
    Spells text e := by
  induction size : text.length using Nat.strongRecOn generalizing text e with
  | ind n ih =>
      subst size
      cases bare : unwrap? text with
      | some inner =>
          have hlt := length_lt_of_unwrap? bare
          obtain ⟨rfl, balanced⟩ := unwrap?_eq_some_iff.1 bare
          rw [ofChars?_wrap balanced] at h
          exact .wrap balanced (ih inner.length hlt h rfl)
      | none =>
          have spec := Shape.ofText_spec text
          have read := h
          rw [ofChars?_eq, unwrapAll_of_none bare] at h
          cases shape : Shape.ofText text with
          | leaf part =>
              rw [shape] at h spec
              obtain ⟨rfl, -, -, operators⟩ := spec
              obtain rfl := Option.some.inj h
              exact .leaf operators read
          | call fn inner =>
              rw [shape] at h spec
              obtain ⟨arg, harg, rfl⟩ := Option.map_eq_some_iff.1 h
              have hlt := Shape.length_lt_of_call? spec.2
              obtain ⟨rfl, balanced⟩ := Shape.call?_eq_some_iff.1 spec.2
              exact .call fn balanced (ih inner.length hlt harg rfl)
          | chain operands =>
              rw [shape] at h spec
              obtain ⟨cut, hrest⟩ := spec
              obtain ⟨results, hresults, rfl⟩ := Option.map_eq_some_iff.1 h
              -- every operand is read, so the results are a map of the operands
              have total : ∀ text ∈ operands.operands, ofChars? text ≠ none := by
                intro text hmem none
                rw [Chain.mapM?_eq_none_iff.2 ⟨text, hmem, none⟩] at hresults
                simp at hresults
              let read : List Char → Expr := fun text => (ofChars? text).getD (.const 0)
              have reads : ∀ text ∈ operands.operands, ofChars? text = some (read text) := by
                intro text hmem
                obtain ⟨e, he⟩ := Option.ne_none_iff_exists'.1 (total text hmem)
                simp only [read, he, Option.getD_some]
              rw [Chain.mapM?_eq_some_map reads, Option.some.injEq] at hresults
              subst hresults
              obtain ⟨g, rfl, ordered⟩ := Grouping.exists_ordered operands
              have flat := Chain.flatten_of_ofText? cut
              rw [ordered.join_chain, ← flat]
              refine (Chain.spells_fold fun part hmem => ?_).2
              have hlt := Chain.length_lt_of_mem_operands hrest hmem
              rw [flat] at hlt
              exact ⟨(Chain.sealed_of_mem_operands cut hmem).openingsClosed,
                ih part.length hlt (reads part hmem) rfl⟩
          | malformed =>
              rw [shape] at h
              simp at h

end Expr

end Fluxion
