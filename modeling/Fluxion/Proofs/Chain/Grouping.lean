import Fluxion.Chain

/-! # Groupings

A grouping is a tree over the operands of a chain, with a node for every operator. It is ordered
when operators on the left bind at least as tightly as the operator above them and operators on
the right bind more tightly. Every chain has exactly one ordered grouping, and joining level by
level builds it.
-/

namespace Fluxion

def Op.tightness (op : Op) : Nat := op.level.tightness

theorem Level.tightness_injective {k l : Level} (h : k.tightness = l.tightness) : k = l := by
  cases k <;> cases l <;> simp_all [tightness]

theorem Level.split_tightestFirst (level : Level) :
    ∃ before after, tightestFirst = before ++ level :: after ∧
      ∀ l, l ∈ before ↔ level.tightness < l.tightness := by
  cases level with
  | additive =>
      refine ⟨[.power, .multiplicative], [], rfl, fun l => ?_⟩
      cases l <;> simp [tightness]
  | multiplicative =>
      refine ⟨[.power], [.additive], rfl, fun l => ?_⟩
      cases l <;> simp [tightness]
  | power =>
      refine ⟨[], [.multiplicative, .additive], rfl, fun l => ?_⟩
      cases l <;> simp [tightness]

namespace Chain

variable {α β : Type}

def map (f : α → β) (chain : Chain α) : Chain β :=
  ⟨f chain.first, chain.rest.map fun link => (link.1, f link.2)⟩

/-- Two chains with an operator between them. -/
def link (left : Chain α) (op : Op) (right : Chain α) : Chain α :=
  ⟨left.first, left.rest ++ (op, right.first) :: right.rest⟩

theorem map_link (f : α → β) (left : Chain α) (op : Op) (right : Chain α) :
    (left.link op right).map f = (left.map f).link op (right.map f) := by
  simp [map, link]

/-- Joins the operands around the operators of some levels, one level after the other. -/
def tightenAll (levels : List Level) (join : Op → α → α → α) (chain : Chain α) : Chain α :=
  levels.foldl (fun c level => c.tighten level join) chain

theorem tightenAll_single (levels : List Level) (join : Op → α → α → α) (a : α) :
    tightenAll levels join ⟨a, []⟩ = ⟨a, []⟩ := by
  induction levels with
  | nil => rfl
  | cons level levels ih => exact ih

theorem tighten_link {level : Level} {op : Op} (h : op.level ≠ level) (join : Op → α → α → α)
    (left right : Chain α) :
    (left.link op right).tighten level join =
      (left.tighten level join).link op (right.tighten level join) := by
  obtain ⟨first, rest⟩ := left
  induction rest generalizing first with
  | nil => simp [tighten, link, tightenFrom, h]
  | cons head rest ih =>
      obtain ⟨o, a⟩ := head
      by_cases ho : o.level = level
      · have step := ih (join o first a)
        simp only [tighten, link, List.cons_append, tightenFrom, ho, if_true] at step ⊢
        exact step
      · have step := ih a
        simp only [tighten, link, List.cons_append, tightenFrom, ho, if_false] at step ⊢
        rw [step]

theorem tightenAll_link {levels : List Level} {op : Op} (h : op.level ∉ levels)
    (join : Op → α → α → α) (left right : Chain α) :
    tightenAll levels join (left.link op right) =
      (tightenAll levels join left).link op (tightenAll levels join right) := by
  induction levels generalizing left right with
  | nil => rfl
  | cons level levels ih =>
      simp only [List.mem_cons, not_or] at h
      simp only [tightenAll, List.foldl_cons, tighten_link h.1]
      exact ih h.2 _ _

theorem mem_rest_tightenFrom {level : Level} {join : Op → α → α → α} {left : α}
    {links : List (Op × α)} {found : Op × α}
    (h : found ∈ (tightenFrom level join left links).rest) :
    found.1 ∈ links.map (·.1) := by
  fun_induction tightenFrom level join left links with
  | case1 => simp at h
  | case2 left op right rest hlevel ih => exact List.mem_cons_of_mem _ (ih h)
  | case3 left op right rest hlevel tail ih =>
      cases List.mem_cons.1 h with
      | inl here =>
          subst here
          exact List.mem_cons_self
      | inr later => exact List.mem_cons_of_mem _ (ih later)

theorem mem_rest_tightenAll {levels : List Level} {join : Op → α → α → α} {chain : Chain α}
    {found : Op × α} (h : found ∈ (tightenAll levels join chain).rest) :
    found.1 ∈ chain.rest.map (·.1) ∧ found.1.level ∉ levels := by
  induction levels generalizing chain with
  | nil => exact ⟨List.mem_map_of_mem h, List.not_mem_nil⟩
  | cons level levels ih =>
      obtain ⟨kept, other⟩ := ih h
      obtain ⟨before, hbefore, same⟩ := List.mem_map.1 kept
      refine ⟨same ▸ mem_rest_tightenFrom hbefore, ?_⟩
      simp only [List.mem_cons, not_or]
      exact ⟨same ▸ rest_tightenFrom_level_ne hbefore, other⟩

theorem tighten_of_level {level : Level} {chain : Chain α}
    (h : ∀ link ∈ chain.rest, link.1.level = level) (join : Op → α → α → α) :
    chain.tighten level join =
      ⟨chain.rest.foldl (fun left link => join link.1 left link.2) chain.first, []⟩ := by
  obtain ⟨first, rest⟩ := chain
  induction rest generalizing first with
  | nil => rfl
  | cons head rest ih =>
      have here := h head List.mem_cons_self
      have step := ih (join head.1 first head.2) fun l hl => h l (List.mem_cons_of_mem _ hl)
      simp only [tighten, tightenFrom, here, if_true, List.foldl_cons] at step ⊢
      exact step

/-- The last of the loosest operators is joined last. -/
theorem join_link {left right : Chain α} {op : Op}
    (hl : ∀ link ∈ left.rest, op.tightness ≤ link.1.tightness)
    (hr : ∀ link ∈ right.rest, op.tightness < link.1.tightness) (f : Op → α → α → α) :
    (left.link op right).join f = f op (left.join f) (right.join f) := by
  obtain ⟨before, after, split, tighter⟩ := Level.split_tightestFirst op.level
  have hop : op.level ∉ before := fun h => Nat.lt_irrefl _ ((tighter _).1 h)
  have join_eq : ∀ chain : Chain α, chain.join f =
      (tightenAll after f ((tightenAll before f chain).tighten op.level f)).first := by
    intro chain
    simp only [join, split, tightenAll, List.foldl_append, List.foldl_cons]
  -- on the right nothing is left, on the left only operators of this level
  have hright : (tightenAll before f right).rest = [] := by
    refine List.eq_nil_iff_forall_not_mem.2 fun found hfound => ?_
    obtain ⟨kept, other⟩ := mem_rest_tightenAll hfound
    obtain ⟨link, hlink, same⟩ := List.mem_map.1 kept
    exact other (same ▸ (tighter _).2 (hr link hlink))
  have hleft : ∀ link ∈ (tightenAll before f left).rest, link.1.level = op.level := by
    intro found hfound
    obtain ⟨kept, other⟩ := mem_rest_tightenAll hfound
    obtain ⟨link, hlink, same⟩ := List.mem_map.1 kept
    have atLeast := hl link hlink
    rw [same] at atLeast
    rw [tighter] at other
    exact Level.tightness_injective (Nat.le_antisymm (Nat.le_of_not_lt other) atLeast)
  obtain ⟨r, hr⟩ : ∃ r, tightenAll before f right = ⟨r, []⟩ :=
    ⟨_, congrArg (Chain.mk _) hright⟩
  have hwhole : ∀ link ∈ ((tightenAll before f left).link op ⟨r, []⟩).rest,
      link.1.level = op.level := by
    intro link hlink
    cases List.mem_append.1 hlink with
    | inl before => exact hleft link before
    | inr last =>
        obtain rfl := List.mem_singleton.1 last
        rfl
  rw [join_eq, join_eq, join_eq, tightenAll_link hop, hr, tighten_of_level hwhole,
    tighten_of_level hleft]
  simp only [tightenAll_single, link, List.foldl_append, List.foldl_cons, List.foldl_nil]
  rw [show (⟨r, []⟩ : Chain α).tighten op.level f = ⟨r, []⟩ from rfl, tightenAll_single]

theorem exists_loosest {chain : Chain α} (h : chain.rest ≠ []) :
    ∃ left op right, chain = Chain.link left op right ∧
      (∀ link ∈ left.rest, op.tightness ≤ link.1.tightness) ∧
      (∀ link ∈ right.rest, op.tightness < link.1.tightness) := by
  obtain ⟨first, rest⟩ := chain
  induction rest generalizing first with
  | nil => exact absurd rfl h
  | cons head rest ih =>
      obtain ⟨o, a⟩ := head
      by_cases hrest : rest = []
      · subst hrest
        exact ⟨⟨first, []⟩, o, ⟨a, []⟩, rfl, by simp, by simp⟩
      · obtain ⟨left, op, right, heq, hl, hr⟩ := ih a hrest
        obtain ⟨rfl, rfl⟩ := Chain.mk.inj heq
        by_cases hlt : o.tightness < op.tightness
        · refine ⟨⟨first, []⟩, o, left.link op right, rfl, by simp, fun link hlink => ?_⟩
          cases List.mem_append.1 hlink with
          | inl before => exact Nat.lt_of_lt_of_le hlt (hl link before)
          | inr behind =>
              cases List.mem_cons.1 behind with
              | inl here =>
                  subst here
                  exact hlt
              | inr later => exact Nat.lt_trans hlt (hr link later)
        · refine ⟨⟨first, (o, left.first) :: left.rest⟩, op, right, rfl, fun link hlink => ?_, hr⟩
          cases List.mem_cons.1 hlink with
          | inl here =>
              subst here
              exact Nat.le_of_not_lt hlt
          | inr later => exact hl link later

theorem join_of_rest_ne_nil {chain : Chain α} (h : chain.rest ≠ [])
    (f : Op → α → α → α) : ∃ op left right, chain.join f = f op left right := by
  obtain ⟨left, op, right, rfl, hl, hr⟩ := exists_loosest h
  exact ⟨op, left.join f, right.join f, join_link hl hr f⟩

end Chain

/-- A tree over operands. Its nodes are the operators between them. -/
inductive Grouping (α : Type) where
  | operand (a : α)
  | node (op : Op) (left right : Grouping α)
  deriving Repr, DecidableEq

namespace Grouping

variable {α β : Type}

/-- The operands and operators from left to right. -/
def chain : Grouping α → Chain α
  | .operand a => ⟨a, []⟩
  | .node op left right => left.chain.link op right.chain

def fold (leaf : α → β) (join : Op → β → β → β) : Grouping α → β
  | .operand a => leaf a
  | .node op left right => join op (left.fold leaf join) (right.fold leaf join)

/-- The operator of the root, if the root is a node. -/
def root? : Grouping α → Option Op
  | .operand _ => none
  | .node op _ _ => some op

/-- Below every node, the operator on the left binds at least as tightly and the one on the right
    binds more tightly. -/
def Ordered : Grouping α → Prop
  | .operand _ => True
  | .node op left right =>
      (∀ o ∈ left.root?, op.tightness ≤ o.tightness) ∧
        (∀ o ∈ right.root?, op.tightness < o.tightness) ∧ left.Ordered ∧ right.Ordered

theorem fold_node (g : Grouping α) : g.fold .operand .node = g := by
  induction g with
  | operand a => rfl
  | node op left right ihl ihr => rw [fold, ihl, ihr]

theorem root?_mem_chain {g : Grouping α} {op : Op} (h : g.root? = some op) :
    ∃ link ∈ g.chain.rest, link.1 = op := by
  cases g with
  | operand a => simp [root?] at h
  | node o left right =>
      obtain rfl := Option.some.inj h
      exact ⟨(o, right.chain.first), by simp [chain, Chain.link], rfl⟩

theorem Ordered.le_of_mem {g : Grouping α} (ordered : g.Ordered) {bound : Nat}
    (h : ∀ o ∈ g.root?, bound ≤ o.tightness) {link : Op × α} (hlink : link ∈ g.chain.rest) :
    bound ≤ link.1.tightness := by
  induction g with
  | operand a => simp [chain] at hlink
  | node op left right ihl ihr =>
      obtain ⟨atLeast, more, hl, hr⟩ := ordered
      have hop := h op rfl
      cases List.mem_append.1 hlink with
      | inl before => exact ihl hl (fun o ho => Nat.le_trans hop (atLeast o ho)) before
      | inr behind =>
          cases List.mem_cons.1 behind with
          | inl here =>
              subst here
              exact hop
          | inr later =>
              exact ihr hr (fun o ho => Nat.le_trans hop (Nat.le_of_lt (more o ho))) later

/-- Joining a chain folds each of its ordered groupings. -/
theorem Ordered.join_chain {g : Grouping α} (ordered : g.Ordered) (leaf : α → β)
    (join : Op → β → β → β) : (g.chain.map leaf).join join = g.fold leaf join := by
  induction g with
  | operand a => rfl
  | node op left right ihl ihr =>
      obtain ⟨atLeast, more, hl, hr⟩ := ordered
      have small : ∀ link ∈ (left.chain.map leaf).rest, op.tightness ≤ link.1.tightness := by
        intro link hlink
        obtain ⟨link, inside, rfl⟩ := List.mem_map.1 hlink
        exact hl.le_of_mem atLeast inside
      have large : ∀ link ∈ (right.chain.map leaf).rest, op.tightness < link.1.tightness := by
        intro link hlink
        obtain ⟨link, inside, rfl⟩ := List.mem_map.1 hlink
        exact hr.le_of_mem more inside
      simp only [chain, Chain.map_link, Chain.join_link small large, ihl hl, ihr hr, fold]

/-- A chain has at most one ordered grouping. -/
theorem Ordered.eq_of_chain_eq {g g' : Grouping α} (h : g.Ordered) (h' : g'.Ordered)
    (same : g.chain = g'.chain) : g = g' := by
  calc
    g = g.fold .operand .node := (fold_node g).symm
    _ = (g.chain.map .operand).join .node := (h.join_chain _ _).symm
    _ = (g'.chain.map .operand).join .node := by rw [same]
    _ = g'.fold .operand .node := h'.join_chain _ _
    _ = g' := fold_node g'

theorem exists_ordered (chain : Chain α) : ∃ g : Grouping α, g.chain = chain ∧ g.Ordered := by
  obtain ⟨size, hsize⟩ : ∃ n, chain.rest.length = n := ⟨_, rfl⟩
  induction size using Nat.strongRecOn generalizing chain with
  | ind size ih =>
      by_cases hrest : chain.rest = []
      · exact ⟨.operand chain.first, congrArg (Chain.mk _) hrest.symm, trivial⟩
      · obtain ⟨left, op, right, rfl, hl, hr⟩ := Chain.exists_loosest hrest
        simp only [Chain.link, List.length_append, List.length_cons] at hsize
        obtain ⟨gl, rfl, orderedl⟩ := ih _ (by omega) left rfl
        obtain ⟨gr, rfl, orderedr⟩ := ih _ (by omega) right rfl
        refine ⟨.node op gl gr, rfl, fun o ho => ?_, fun o ho => ?_, orderedl, orderedr⟩
        · obtain ⟨link, hlink, rfl⟩ := root?_mem_chain ho
          exact hl link hlink
        · obtain ⟨link, hlink, rfl⟩ := root?_mem_chain ho
          exact hr link hlink

end Grouping

end Fluxion
