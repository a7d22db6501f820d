import Fluxion.Proofs.Decimal.Literal
import Fluxion.Proofs.Expr.Provenance
import Mathlib.Data.List.ReduceOption

/-! # What reading keeps

A text is cut at every operator, also inside brackets. The operators of the expression from
left to right are those of the text, and between them stand its leaves, each of them one piece
of the text without brackets in front of it, the names of functions before these, and closing
brackets behind it.
-/

namespace Fluxion

namespace Chain

variable {α β : Type}

/-- Changes the last operand of a chain, given as its first operand and its links. -/
def mapLastFrom (f : α → α) : α → List (Op × α) → Chain α
  | a, [] => ⟨f a, []⟩
  | a, (op, b) :: rest =>
      let tail := mapLastFrom f b rest
      ⟨a, (op, tail.first) :: tail.rest⟩

/-- Changes the last operand. -/
def mapLast (f : α → α) (chain : Chain α) : Chain α := mapLastFrom f chain.first chain.rest

/-- Changes the first operand. -/
def mapFirst (f : α → α) (chain : Chain α) : Chain α := ⟨f chain.first, chain.rest⟩

/-- The operators from left to right. -/
def operators (chain : Chain α) : List Op := chain.rest.map (·.1)

theorem operators_map (g : α → β) (chain : Chain α) :
    (chain.map g).operators = chain.operators := by
  simp [operators, map]

theorem operands_map (g : α → β) (chain : Chain α) :
    (chain.map g).operands = chain.operands.map g := by
  simp [operands, map]

theorem operators_link (left : Chain α) (op : Op) (right : Chain α) :
    (left.link op right).operators = left.operators ++ op :: right.operators := by
  simp [operators, link]

theorem map_mapLast {f : α → α} {f' : β → β} {g : α → β} (h : ∀ a, g (f a) = f' (g a))
    (chain : Chain α) :
    (chain.mapLast f).map g = (chain.map g).mapLast f' := by
  obtain ⟨first, rest⟩ := chain
  induction rest generalizing first with
  | nil => simp only [mapLast, mapLastFrom, map, List.map_nil, h]
  | cons head rest ih =>
      have tail := ih head.2
      simp only [mapLast, mapLastFrom, map, List.map_cons] at tail ⊢
      rw [← tail]

theorem mapLast_id (chain : Chain α) : chain.mapLast id = chain := by
  obtain ⟨first, rest⟩ := chain
  induction rest generalizing first with
  | nil => rfl
  | cons head rest ih =>
      have tail := ih head.2
      simp only [mapLast, mapLastFrom] at tail ⊢
      rw [tail]

/-- Cuts a text at all of its operators, inside brackets or not. -/
def cutAll (text : List Char) : Chain (List Char) := cutAt (fun _ => true) text

theorem cutAll_cons_plain {c : Char} (h : Op.ofChar? c = none) (text : List Char) :
    cutAll (c :: text) = (cutAll text).consChar c :=
  cutAt_cons_of_false (.inl h) text

theorem cutAll_cons_op {c : Char} {op : Op} (h : Op.ofChar? c = some op) (text : List Char) :
    cutAll (c :: text) = (cutAll text).consOp op :=
  cutAt_cons_of_true h rfl text

theorem cutAll_plain_append {before : List Char} (h : hasOperators before = false)
    (text : List Char) :
    cutAll (before ++ text) = (cutAll text).mapFirst (before ++ ·) := by
  induction before with
  | nil => rfl
  | cons c before ih =>
      simp only [hasOperators, List.any_cons, Bool.or_eq_false_iff, Option.isSome_eq_false_iff,
        Option.isNone_iff_eq_none] at h
      rw [List.cons_append, cutAll_cons_plain h.1, ih h.2]
      rfl

theorem cutAll_of_not_hasOperators {text : List Char} (h : hasOperators text = false) :
    cutAll text = ⟨text, []⟩ := by
  have whole := cutAll_plain_append h []
  rw [List.append_nil] at whole
  rw [whole, mapFirst, show cutAll [] = ⟨[], []⟩ from rfl, List.append_nil]

theorem cutAll_append_plain (text : List Char) {after : List Char}
    (h : hasOperators after = false) :
    cutAll (text ++ after) = (cutAll text).mapLast (· ++ after) := by
  induction text with
  | nil => exact cutAll_of_not_hasOperators h
  | cons c text ih =>
      cases hop : Op.ofChar? c with
      | none =>
          rw [List.cons_append, cutAll_cons_plain hop, cutAll_cons_plain hop, ih]
          obtain ⟨first, rest⟩ := cutAll text
          cases rest <;> rfl
      | some op =>
          rw [List.cons_append, cutAll_cons_op hop, cutAll_cons_op hop, ih]
          rfl

theorem cutAll_link (left : List Char) (op : Op) (right : List Char) :
    cutAll (left ++ op.symbol :: right) = (cutAll left).link op (cutAll right) := by
  induction left with
  | nil => exact cutAll_cons_op op.ofChar?_symbol right
  | cons c left ih =>
      cases hop : Op.ofChar? c with
      | none =>
          rw [List.cons_append, cutAll_cons_plain hop, cutAll_cons_plain hop, ih]
          rfl
      | some other =>
          rw [List.cons_append, cutAll_cons_op hop, cutAll_cons_op hop, ih]
          rfl

end Chain

/-- What may stand before an opening bracket: nothing or the name of a function. -/
def calleeName : Option Func → List Char
  | none => []
  | some fn => fn.name

/-- A piece of a text between two operators: opening brackets, each with or without the name of a
    function before it, then what is left for a leaf, and closing brackets. -/
structure Piece where
  callees : List (Option Func)
  core : List Char
  closings : Nat
  deriving Repr, DecidableEq

namespace Piece

def text (piece : Piece) : List Char :=
  piece.callees.flatMap (fun callee => calleeName callee ++ ['(']) ++ piece.core ++
    List.replicate piece.closings ')'

/-- Nothing is the constant zero, digits and points are a number, and all else names
    the variable. -/
def leaf (piece : Piece) : Expr :=
  if piece.core = [] then .const 0
  else if Decimal.isLiteral piece.core then .const (Decimal.ofLiteral piece.core).toFloat
  else .var (String.ofList piece.core)

/-- The functions named in the piece. -/
def functions (piece : Piece) : List Func := piece.callees.reduceOption

/-- The piece with one more bracket in front. -/
def enter (callee : Option Func) (piece : Piece) : Piece :=
  { piece with callees := callee :: piece.callees }

/-- The piece with one more bracket behind. -/
def leave (piece : Piece) : Piece := { piece with closings := piece.closings + 1 }

theorem text_enter (callee : Option Func) (piece : Piece) :
    (piece.enter callee).text = (calleeName callee ++ ['(']) ++ piece.text := by
  simp [enter, text]

theorem text_leave (piece : Piece) : piece.leave.text = piece.text ++ [')'] := by
  simp [leave, text, List.replicate_succ']

/-- The pieces of a text with brackets around it: one bracket more at each end. -/
def enclose (callee : Option Func) (pieces : Chain Piece) : Chain Piece :=
  (pieces.mapFirst (enter callee)).mapLast leave

theorem map_enclose {β : Type} {g : Piece → β}
    (untouched : ∀ piece : Piece, g piece.leave = g piece)
    (callee : Option Func) (pieces : Chain Piece) :
    (enclose callee pieces).map g = (pieces.mapFirst (enter callee)).map g := by
  rw [enclose, @Chain.map_mapLast _ _ leave id g untouched, Chain.mapLast_id]

theorem operators_enclose (callee : Option Func) (pieces : Chain Piece) :
    (enclose callee pieces).operators = pieces.operators := by
  have same := congrArg Chain.operators (@map_enclose _ (fun _ => ()) (fun _ => rfl) callee pieces)
  rwa [Chain.operators_map, Chain.operators_map] at same

theorem leaves_enclose (callee : Option Func) (pieces : Chain Piece) :
    (enclose callee pieces).operands.map leaf = pieces.operands.map leaf := by
  rw [← Chain.operands_map, map_enclose fun _ => rfl, ← Chain.operands_map]
  rfl

theorem functions_enclose (callee : Option Func) (pieces : Chain Piece) :
    (enclose callee pieces).operands.flatMap functions =
      callee.toList ++ pieces.operands.flatMap functions := by
  rw [List.flatMap, List.flatMap, ← Chain.operands_map, map_enclose fun _ => rfl,
    Chain.operands_map]
  cases callee <;> simp [Chain.operands, Chain.mapFirst, enter, functions]

theorem text_enclose (callee : Option Func) (pieces : Chain Piece) {content : List Char}
    (cut : pieces.map text = Chain.cutAll content) :
    (enclose callee pieces).map text = Chain.cutAll (calleeName callee ++ wrap content) := by
  have front : hasOperators (calleeName callee ++ ['(']) = false := by
    cases callee with
    | none => rfl
    | some fn => cases fn <;> rfl
  have split : calleeName callee ++ wrap content =
      ((calleeName callee ++ ['(']) ++ content) ++ [')'] := by
    simp [wrap]
  have first : (pieces.mapFirst (enter callee)).map text =
      (pieces.map text).mapFirst ((calleeName callee ++ ['(']) ++ ·) := by
    simp only [Chain.map, Chain.mapFirst, text_enter]
  rw [enclose, @Chain.map_mapLast _ _ leave (· ++ [')']) text text_leave, first, cut, split,
    Chain.cutAll_append_plain _ rfl, Chain.cutAll_plain_append front]

end Piece

namespace Expr

/-- The variables and constants from left to right. -/
def leaves : Expr → List Expr
  | .binary _ l r => l.leaves ++ r.leaves
  | .apply _ a => a.leaves
  | e => [e]

/-- The operators from left to right, each between those of its operands. -/
def operators : Expr → List Op
  | .binary op l r => l.operators ++ op :: r.operators
  | .apply _ a => a.operators
  | _ => []

/-- The functions, each before those of its argument. -/
def functions : Expr → List Func
  | .binary _ l r => l.functions ++ r.functions
  | .apply fn a => fn :: a.functions
  | _ => []

/-- The number of nodes. -/
def size : Expr → Nat
  | .binary _ l r => l.size + r.size + 1
  | .apply _ a => a.size + 1
  | _ => 1

theorem length_leaves (e : Expr) : e.leaves.length = e.operators.length + 1 := by
  induction e with
  | var _ | const _ => rfl
  | binary op l r ihl ihr =>
      simp only [leaves, operators, List.length_append, List.length_cons, ihl, ihr]
      omega
  | apply fn a ih => exact ih

theorem size_eq (e : Expr) :
    e.size = e.leaves.length + e.operators.length + e.functions.length := by
  induction e with
  | var _ | const _ => rfl
  | binary op l r ihl ihr =>
      simp only [size, leaves, operators, functions, List.length_append, List.length_cons, ihl, ihr]
      omega
  | apply fn a ih =>
      simp only [size, leaves, operators, functions, List.length_cons, ih]
      omega

theorem ofLeaf_eq_leaf (text : List Char) : ofLeaf text = (Piece.mk [] text 0).leaf := by
  rw [Piece.leaf]
  split
  · next empty =>
      simp only [show text = [] from empty, ofLeaf, Decimal.toFloat_ofLiteral_nil]
      rfl
  · rfl

theorem leaves_ofLeaf (text : List Char) :
    (ofLeaf text).leaves = [ofLeaf text] ∧ (ofLeaf text).operators = [] ∧
      (ofLeaf text).functions = [] := by
  rw [ofLeaf]
  split <;> exact ⟨rfl, rfl, rfl⟩

/-- The pieces of a text account for an expression: between its operators stand its leaves, and its
    functions are named before them. -/
structure Accounts (pieces : Chain Piece) (text : List Char) (e : Expr) : Prop where
  cut : pieces.map Piece.text = Chain.cutAll text
  operators : e.operators = pieces.operators
  leaves : e.leaves = pieces.operands.map Piece.leaf
  functions : e.functions = pieces.operands.flatMap Piece.functions

namespace Accounts

variable {pieces : Chain Piece} {text : List Char} {e : Expr}

theorem ofLeaf {text : List Char} (h : hasOperators text = false) :
    Accounts ⟨⟨[], text, 0⟩, []⟩ text (ofLeaf text) := by
  obtain ⟨leaves, operators, functions⟩ := leaves_ofLeaf text
  refine ⟨?_, operators, ?_, functions⟩
  · rw [Chain.cutAll_of_not_hasOperators h]
    simp [Chain.map, Piece.text]
  · rw [leaves, ofLeaf_eq_leaf]
    rfl

theorem link {left right : Chain Piece} {before after : List Char} {l r : Expr} (op : Op)
    (hl : Accounts left before l) (hr : Accounts right after r) :
    Accounts (left.link op right) (before ++ op.symbol :: after) (.binary op l r) := by
  refine ⟨?_, ?_, ?_, ?_⟩
  · rw [Chain.map_link, hl.cut, hr.cut, Chain.cutAll_link]
  · rw [Expr.operators, hl.operators, hr.operators, Chain.operators_link]
  · rw [Expr.leaves, hl.leaves, hr.leaves, Chain.operands_link, List.map_append]
  · rw [Expr.functions, hl.functions, hr.functions, Chain.operands_link, List.flatMap_append]

theorem wrap (h : Accounts pieces text e) :
    Accounts (Piece.enclose none pieces) (Fluxion.wrap text) e where
  cut := Piece.text_enclose none pieces h.cut
  operators := h.operators.trans (Piece.operators_enclose none pieces).symm
  leaves := h.leaves.trans (Piece.leaves_enclose none pieces).symm
  functions := h.functions.trans (Piece.functions_enclose none pieces).symm

theorem call (fn : Func) (h : Accounts pieces text e) :
    Accounts (Piece.enclose (some fn) pieces) (fn.name ++ Fluxion.wrap text) (.apply fn e) where
  cut := Piece.text_enclose (some fn) pieces h.cut
  operators := h.operators.trans (Piece.operators_enclose (some fn) pieces).symm
  leaves := h.leaves.trans (Piece.leaves_enclose (some fn) pieces).symm
  functions := by
    rw [Piece.functions_enclose, Expr.functions, h.functions]
    rfl

end Accounts

/-- Some pieces of the text account for everything that comes from it by the rules. -/
theorem exists_accounts {text : List Char} {e : Expr} (h : Spells text e) :
    ∃ pieces, Accounts pieces text e := by
  induction h with
  | leaf operators => exact ⟨_, .ofLeaf operators⟩
  | wrap balanced inner ih =>
      obtain ⟨pieces, accounts⟩ := ih
      exact ⟨_, accounts.wrap⟩
  | call fn balanced inner ih =>
      obtain ⟨pieces, accounts⟩ := ih
      exact ⟨_, accounts.call fn⟩
  | link op hleft hright first second ihl ihr =>
      obtain ⟨left, hl⟩ := ihl
      obtain ⟨right, hr⟩ := ihr
      exact ⟨_, hl.link op hr⟩

/-- Reading keeps every operator and every leaf, in order, and every name of a function. -/
theorem parse_conserves {text : String} {e : Expr} (h : parse text = .ok e) :
    ∃ pieces : Chain Piece,
      pieces.map Piece.text = Chain.cutAll (removeBlanks text.toList) ∧
        e.operators = pieces.operators ∧
        e.leaves = pieces.operands.map Piece.leaf ∧
        e.functions = pieces.operands.flatMap Piece.functions ∧
        e.leaves.length = pieces.operators.length + 1 ∧
        e.size = 2 * pieces.operators.length + 1 +
          (pieces.operands.flatMap Piece.functions).length := by
  obtain ⟨pieces, accounts⟩ := exists_accounts (spells_of_ofChars? (parse_eq_ok_iff.1 h))
  have leaves := e.length_leaves
  refine ⟨pieces, accounts.cut, accounts.operators, accounts.leaves, accounts.functions, ?_, ?_⟩
  · rw [leaves, accounts.operators]
  · rw [size_eq, leaves, accounts.functions, accounts.operators]
    omega

/-- A minus with nothing before it, a number with a blank and a name with brackets of its own. -/
theorem parse_conserves_minusSin :
    parse "-sin((2 .5*f(x)))" = .ok (.sub (.const 0) (.sin (.mul (.const 2.5) (.var "f(x)")))) ∧
      ∃ pieces : Chain Piece,
        pieces.map Piece.text = ⟨"".toList, [(.sub, "sin((2.5".toList), (.mul, "f(x)))".toList)]⟩ ∧
          pieces.operators = [.sub, .mul] ∧
          pieces.operands.map Piece.leaf = [.const 0, .const 2.5, .var "f(x)"] ∧
          pieces.operands.flatMap Piece.functions = [.sin] := by
  have read : parse "-sin((2 .5*f(x)))" =
      .ok (.sub (.const 0) (.sin (.mul (.const 2.5) (.var "f(x)")))) := by
    rw [parse_eq_ok_iff]
    decide +kernel
  have cut : Chain.cutAll (removeBlanks "-sin((2 .5*f(x)))".toList) =
      ⟨"".toList, [(.sub, "sin((2.5".toList), (.mul, "f(x)))".toList)]⟩ := by
    decide
  obtain ⟨pieces, texts, operators, leaves, functions, -, -⟩ := parse_conserves read
  exact ⟨read, pieces, texts.trans cut, operators.symm, leaves.symm, functions.symm⟩

end Expr

end Fluxion
