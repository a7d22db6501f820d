import Fluxion.Proofs.Expr.Conservation

/-! # The loosest operators

A text is read in two parts around the last of its loosest operators, so it is read from the
left around all operators of the loosest level that it has. The other levels only say how
the parts are read.
-/

namespace Fluxion

namespace Chain

variable {α β : Type}

theorem mapM?_link (f : α → Option β) (left : Chain α) (op : Op) (right : Chain α) :
    (left.link op right).mapM? f =
      (left.mapM? f).bind fun l => (right.mapM? f).map fun r => l.link op r := by
  obtain ⟨first, rest⟩ := left
  induction rest generalizing first with
  | nil =>
      rw [mapM?_single]
      refine (mapM?_cons f first op right).trans ?_
      cases f first <;> rfl
  | cons head rest ih =>
      rw [mapM?_cons f first head.1 ⟨head.2, rest⟩]
      refine (mapM?_cons f first head.1 (link ⟨head.2, rest⟩ op right)).trans ?_
      rw [ih head.2]
      cases f first with
      | none => rfl
      | some b =>
          cases mapM? f ⟨head.2, rest⟩ with
          | none => rfl
          | some l => cases right.mapM? f <;> rfl

theorem operators_of_mapM? {f : α → Option β} {chain : Chain α} {results : Chain β}
    (h : chain.mapM? f = some results) : results.operators = chain.operators := by
  obtain ⟨first, rest⟩ := chain
  induction rest generalizing first results with
  | nil =>
      rw [mapM?_single] at h
      obtain ⟨b, -, rfl⟩ := Option.map_eq_some_iff.1 h
      rfl
  | cons head rest ih =>
      rw [mapM?_cons f first head.1 ⟨head.2, rest⟩] at h
      obtain ⟨b, -, h⟩ := Option.bind_eq_some_iff.1 h
      obtain ⟨tail, htail, rfl⟩ := Option.map_eq_some_iff.1 h
      exact congrArg (head.1 :: ·) (ih head.2 htail)

/-- Two texts around an operator are cut where each of them is cut, and at the operator. -/
theorem ofText?_append_link {left right : List Char} {before behind : Chain (List Char)}
    (hl : ofText? left = some before) (op : Op) (hr : ofText? right = some behind) :
    ofText? (left ++ op.symbol :: right) = some (before.link op behind) := by
  have sealed : ∀ operand ∈ before.operands, Sealed operand :=
    fun operand => sealed_of_mem_operands hl
  rw [← flatten_of_ofText? hl]
  clear hl
  obtain ⟨first, rest⟩ := before
  induction rest generalizing first with
  | nil =>
      rw [flatten, List.flatMap_nil, List.append_nil,
        ofText?_link (sealed first List.mem_cons_self), hr]
      rfl
  | cons head rest ih =>
      obtain ⟨here, later⟩ := List.forall_mem_cons.1 sealed
      have split : (⟨first, head :: rest⟩ : Chain (List Char)).flatten ++ op.symbol :: right =
          first ++ head.1.symbol :: ((⟨head.2, rest⟩ : Chain (List Char)).flatten ++ op.symbol ::
            right) := by
        simp [flatten]
      rw [split, ofText?_link here, ih head.2 later]
      rfl

/-- The text is cut at operators of one kind only. -/
def CutsOnly (p : Op → Prop) (text : List Char) : Prop :=
  ∃ chain, ofText? text = some chain ∧ ∀ op ∈ chain.operators, p op

namespace CutsOnly

variable {p q : Op → Prop} {left right text : List Char}

theorem openingsClosed (h : CutsOnly p text) : Mark.OpeningsClosed (marks text) := by
  obtain ⟨chain, cut, -⟩ := h
  exact isSome_ofText?_iff.1 (Option.isSome_iff_exists.2 ⟨chain, cut⟩)

theorem of_openingsClosed (h : Mark.OpeningsClosed (marks text)) :
    CutsOnly (fun _ => True) text := by
  obtain ⟨chain, cut⟩ := Option.isSome_iff_exists.1 (isSome_ofText?_iff.2 h)
  exact ⟨chain, cut, fun _ _ => trivial⟩

theorem mono (h : CutsOnly p text) (weaker : ∀ op, p op → q op) : CutsOnly q text := by
  obtain ⟨chain, cut, only⟩ := h
  exact ⟨chain, cut, fun op mem => weaker op (only op mem)⟩

theorem of_sealed (h : Sealed text) : CutsOnly p text := ⟨_, h, by simp [operators]⟩

theorem sealed (h : CutsOnly p text) (none : ∀ op, ¬ p op) : Sealed text := by
  obtain ⟨chain, cut, only⟩ := h
  refine sealed_of_rest_eq_nil cut (List.eq_nil_iff_forall_not_mem.2 fun link mem => ?_)
  exact none _ (only _ (List.mem_map_of_mem mem))

theorem link (hl : CutsOnly p left) {op : Op} (here : p op) (hr : CutsOnly p right) :
    CutsOnly p (left ++ op.symbol :: right) := by
  obtain ⟨before, cutl, onlyl⟩ := hl
  obtain ⟨behind, cutr, onlyr⟩ := hr
  refine ⟨_, ofText?_append_link cutl op cutr, ?_⟩
  rw [operators_link]
  exact List.forall_mem_append.2 ⟨onlyl, List.forall_mem_cons.2 ⟨here, onlyr⟩⟩

theorem append_iff (h : Sealed left) : CutsOnly p (left ++ right) ↔ CutsOnly p right := by
  simp only [CutsOnly, ofText?, cut?_append h, Option.map_eq_some_iff]
  constructor
  · intro longer
    obtain ⟨_, ⟨chain, cut, rfl⟩, only⟩ := longer
    exact ⟨chain, cut, only⟩
  · intro short
    obtain ⟨chain, cut, only⟩ := short
    exact ⟨_, ⟨chain, cut, rfl⟩, only⟩

theorem cons_iff {op : Op} : CutsOnly p (op.symbol :: text) ↔ p op ∧ CutsOnly p text := by
  have cut : ofText? (op.symbol :: text) = (ofText? text).map (consOp op) :=
    cut?_cons_op op.ofChar?_symbol text
  simp only [CutsOnly, cut, Option.map_eq_some_iff]
  constructor
  · intro longer
    obtain ⟨_, ⟨chain, cut, rfl⟩, only⟩ := longer
    obtain ⟨here, only⟩ := List.forall_mem_cons.1 only
    exact ⟨here, chain, cut, only⟩
  · intro short
    obtain ⟨here, chain, cut, only⟩ := short
    exact ⟨_, ⟨chain, cut, rfl⟩, List.forall_mem_cons.2 ⟨here, only⟩⟩

end CutsOnly

end Chain

namespace Expr

open Chain (CutsOnly)

theorem ofChars?_of_ofText? {text : List Char} {chain : Chain (List Char)}
    (h : Chain.ofText? text = some chain) :
    ofChars? text = (chain.mapM? ofChars?).map (Chain.join .binary) := by
  by_cases hrest : chain.rest = []
  · have sealed := Chain.sealed_of_rest_eq_nil h hrest
    obtain rfl := Option.some.inj (h.symm.trans sealed)
    rw [Chain.mapM?_single]
    cases ofChars? text <;> rfl
  · exact ofChars?_chain h hrest

/-- Around the last of the loosest operators the two parts of a text are read for themselves. -/
theorem ofChars?_loosest {left right : List Char} {op : Op}
    (hl : CutsOnly (fun o => op.tightness ≤ o.tightness) left)
    (hr : CutsOnly (fun o => op.tightness < o.tightness) right) :
    ofChars? (left ++ op.symbol :: right) =
      (ofChars? left).bind fun l => (ofChars? right).map (.binary op l) := by
  obtain ⟨before, cutl, onlyl⟩ := hl
  obtain ⟨behind, cutr, onlyr⟩ := hr
  rw [ofChars?_of_ofText? (Chain.ofText?_append_link cutl op cutr), Chain.mapM?_link,
    ofChars?_of_ofText? cutl, ofChars?_of_ofText? cutr]
  cases first : before.mapM? ofChars? with
  | none => rfl
  | some l =>
      cases second : behind.mapM? ofChars? with
      | none => rfl
      | some r =>
          have atLeast : ∀ link ∈ l.rest, op.tightness ≤ link.1.tightness := fun link mem =>
            onlyl _ (Chain.operators_of_mapM? first ▸ List.mem_map_of_mem mem)
          have more : ∀ link ∈ r.rest, op.tightness < link.1.tightness := fun link mem =>
            onlyr _ (Chain.operators_of_mapM? second ▸ List.mem_map_of_mem mem)
          exact congrArg some (Chain.join_link atLeast more .binary)

theorem ofChars?_flatten {level : Level} {first : List Char} {links : List (Op × List Char)}
    (hfirst : CutsOnly (fun o => level.tightness ≤ o.tightness) first)
    (hlinks : ∀ link ∈ links, link.1.level = level ∧
      CutsOnly (fun o => level.tightness < o.tightness) link.2) :
    ofChars? (Chain.flatten ⟨first, links⟩) =
      (ofChars? first).bind fun left =>
        links.foldlM (fun left link => (ofChars? link.2).map (.binary link.1 left)) left := by
  induction links generalizing first with
  | nil =>
      rw [Chain.flatten, List.flatMap_nil, List.append_nil]
      exact (Option.bind_fun_some _).symm
  | cons link links ih =>
      obtain ⟨⟨rfl, operand⟩, hlinks⟩ := List.forall_mem_cons.1 hlinks
      have grown := hfirst.link (Nat.le_refl _) (operand.mono fun _ => Nat.le_of_lt)
      have split : Chain.flatten ⟨first, link :: links⟩ =
          Chain.flatten ⟨first ++ link.1.symbol :: link.2, links⟩ := by
        simp [Chain.flatten]
      rw [split, ih grown hlinks, ofChars?_loosest hfirst operand, Option.bind_assoc]
      rfl

end Expr

end Fluxion
