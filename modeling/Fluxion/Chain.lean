import Fluxion.Bracket
import Fluxion.Op

/-! # Chains of operands

A chain is a row of operands with an operator between each two. A text is cut into a chain at the
operators that stand outside all brackets, of every level at once. A chain is joined level by level,
the tightest first, and within a level from the left, so operators of every level group to the left.
-/

namespace Fluxion

structure Chain (α : Type) where
  first : α
  rest : List (Op × α)
  deriving Repr, DecidableEq

namespace Chain

def operands {α : Type} (c : Chain α) : List α := c.first :: c.rest.map (·.2)

/-- The chain of the results, if the function has one for every operand. -/
def mapM? {α β : Type} (f : α → Option β) (c : Chain α) : Option (Chain β) := do
  let first ← f c.first
  let rest ← c.rest.mapM fun link => (f link.2).map fun operand => (link.1, operand)
  return ⟨first, rest⟩

/-- The same chain, where every operand knows that it is one. -/
def attach {α : Type} (c : Chain α) : Chain { a // a ∈ c.operands } :=
  ⟨⟨c.first, List.mem_cons_self⟩,
    c.rest.attach.map fun link =>
      (link.1.1, ⟨link.1.2, List.mem_cons_of_mem _ (List.mem_map_of_mem link.2)⟩)⟩

theorem mapM?_attach {α β : Type} (f : α → Option β) (c : Chain α) :
    c.attach.mapM? (fun a => f a.1) = c.mapM? f := by
  simp only [attach, mapM?, List.mapM_map]
  congr 1
  funext first
  congr 1
  conv => rhs; rw [← List.attach_map_subtype_val c.rest, List.mapM_map]
  rfl

/-- The chain with one more character at the front of its first operand. -/
def consChar (c : Char) (chain : Chain (List Char)) : Chain (List Char) :=
  ⟨c :: chain.first, chain.rest⟩

/-- The chain with an operator and an empty operand put in front. -/
def consOp (op : Op) (chain : Chain (List Char)) : Chain (List Char) :=
  ⟨[], (op, chain.first) :: chain.rest⟩

/-- Cuts a text that follows `depth` open brackets. A closing bracket with no bracket open is an
    ordinary character. There is no chain if a bracket stays open. -/
def cut? : Nat → List Char → Option (Chain (List Char))
  | depth, [] => if depth = 0 then some ⟨[], []⟩ else none
  | depth, c :: text =>
      match Mark.ofChar c with
      | .opening => (cut? (depth + 1) text).map (consChar c)
      | .closing => (cut? (depth - 1) text).map (consChar c)
      | .neither =>
          match depth, Op.ofChar? c with
          | 0, some op => (cut? 0 text).map (consOp op)
          | _, _ => (cut? depth text).map (consChar c)

/-- Cuts a text at the operators outside all brackets. -/
def ofText? (text : List Char) : Option (Chain (List Char)) := cut? 0 text

/-- The text that a chain of texts is cut from. -/
def flatten (chain : Chain (List Char)) : List Char :=
  chain.first ++ chain.rest.flatMap fun link => link.1.symbol :: link.2

theorem flatten_consChar (c : Char) (chain : Chain (List Char)) :
    (chain.consChar c).flatten = c :: chain.flatten := rfl

theorem flatten_consOp (op : Op) (chain : Chain (List Char)) :
    (chain.consOp op).flatten = op.symbol :: chain.flatten := rfl

theorem flatten_of_cut? {depth : Nat} {text : List Char} {chain : Chain (List Char)}
    (h : cut? depth text = some chain) : chain.flatten = text := by
  fun_induction cut? depth text generalizing chain with
  | case1 =>
      obtain rfl := Option.some.inj h
      rfl
  | case2 => simp at h
  | case3 depth c text hmark ih | case4 depth c text hmark ih =>
      obtain ⟨tail, htail, rfl⟩ := Option.map_eq_some_iff.1 h
      rw [flatten_consChar, ih htail]
  | case5 c text hmark op hop ih =>
      obtain ⟨tail, htail, rfl⟩ := Option.map_eq_some_iff.1 h
      rw [flatten_consOp, ih htail, Op.symbol_of_ofChar? hop]
  | case6 depth c text hmark hop ih =>
      obtain ⟨tail, htail, rfl⟩ := Option.map_eq_some_iff.1 h
      rw [flatten_consChar, ih htail]

theorem flatten_of_ofText? {text : List Char} {chain : Chain (List Char)}
    (h : ofText? text = some chain) : chain.flatten = text :=
  flatten_of_cut? h

theorem length_lt_of_mem_operands {chain : Chain (List Char)} (hrest : chain.rest ≠ [])
    {operand : List Char} (h : operand ∈ chain.operands) :
    operand.length < chain.flatten.length := by
  obtain ⟨first, rest⟩ := chain
  simp only [operands, List.mem_cons, List.mem_map] at h
  simp only [flatten, List.length_append]
  rcases h with rfl | ⟨link, hlink, rfl⟩
  · obtain ⟨link, links, rfl⟩ := List.exists_cons_of_ne_nil hrest
    simp only [List.flatMap_cons, List.length_append, List.length_cons]
    omega
  · obtain ⟨before, after, rfl⟩ := List.append_of_mem hlink
    simp only [List.flatMap_append, List.flatMap_cons, List.length_append, List.length_cons]
    omega

/-- Joins what stands to the left of the links with the links of one level, from the left. The links
    of the other levels stay. -/
def tightenFrom {α : Type} (level : Level) (join : Op → α → α → α) :
    α → List (Op × α) → Chain α
  | left, [] => ⟨left, []⟩
  | left, (op, right) :: rest =>
      if op.level = level then
        tightenFrom level join (join op left right) rest
      else
        let tail := tightenFrom level join right rest
        ⟨left, (op, tail.first) :: tail.rest⟩

/-- Joins the operands around every operator of one level, from the left. -/
def tighten {α : Type} (level : Level) (join : Op → α → α → α) (chain : Chain α) : Chain α :=
  tightenFrom level join chain.first chain.rest

/-- Joins a whole chain to one operand. -/
def join {α : Type} (join : Op → α → α → α) (chain : Chain α) : α :=
  (Level.tightestFirst.foldl (fun c level => c.tighten level join) chain).first

theorem rest_tightenFrom_level_ne {α : Type} {level : Level} {join : Op → α → α → α} {left : α}
    {links : List (Op × α)} {link : Op × α}
    (h : link ∈ (tightenFrom level join left links).rest) : link.1.level ≠ level := by
  fun_induction tightenFrom level join left links with
  | case1 => simp at h
  | case2 left op right rest hlevel ih => exact ih h
  | case3 left op right rest hlevel tail ih =>
      rcases List.mem_cons.1 h with rfl | h
      · exact hlevel
      · exact ih h

end Chain

end Fluxion
