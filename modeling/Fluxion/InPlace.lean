import Fluxion.Expr.Parser
import Fluxion.Numeral

/-! # Reading by byte offsets

The same reading, on one text whose parts are named by the byte offsets at which they start and
stop. The brackets are counted, whole bracketed regions are passed over in one jump, and the
operators of one level are looked for at a time, the loosest first. Every step that could go wrong
with an offset is checked, and the check that fails is told apart from a text that is no expression.
-/

namespace Fluxion

def Level.loosestFirst : List Level := Level.tightestFirst.reverse

namespace InPlace

/-- What must never happen to an offset. -/
inductive Fault where
  /-- A part whose ends are out of order, outside the text, or within a character. -/
  | badPart
  /-- A difference below zero. -/
  | underflow
  /-- A byte that the text does not have. -/
  | noByte
  /-- An operator level that was chosen without an operator. -/
  | noOperator
  /-- A byte that is no operator, where an operator was found. -/
  | notOperator
  /-- A step after which no less is left to do than before. -/
  | endless
  deriving Repr, DecidableEq

/-- Why a text is not read. -/
inductive Stop where
  | malformed
  | fault (fault : Fault)
  deriving Repr, DecidableEq

def minus (n k : Nat) : Except Stop Nat :=
  if k ≤ n then .ok (n - k) else .error (.fault .underflow)

def byte (text : String) (offset : Nat) : Except Stop UInt8 :=
  match text.toUTF8.data.toList[offset]? with
  | some b => .ok b
  | none => .error (.fault .noByte)

/-- The part of a text between two offsets. They must be in order, and each must be at the edge
    of a character. -/
def slice (text : String) (start stop : Nat) : Except Stop String :=
  if h : start ≤ stop ∧
      String.Pos.Raw.IsValid text ⟨start⟩ ∧ String.Pos.Raw.IsValid text ⟨stop⟩ then
    .ok (text.extract ⟨⟨start⟩, h.2.1⟩ ⟨⟨stop⟩, h.2.2⟩)
  else .error (.fault .badPart)

example : slice "π^2" 0 1 = .error (.fault .badPart) := dif_neg (by decide)

/-- How many brackets are open behind one more mark. -/
def depthBehind (depth : Nat) : Mark → Except Stop Nat
  | .opening => .ok (depth + 1)
  | .closing => minus depth 1
  | .neither => .ok depth

/-- The first of some offsets behind which no bracket is open any more. -/
def closes (text : String) (turn : Mark → Mark) : Nat → List Nat → Except Stop (Option Nat)
  | _, [] => .ok none
  | depth, offset :: later => do
      let b ← byte text offset
      let depth ← depthBehind depth (turn (Mark.ofByte b))
      if depth = 0 then .ok (some offset) else closes text turn depth later

/-- The offset of the bracket that matches the one at an offset. From an opening bracket the search
    goes to the end of the text, and from a closing one to its start. -/
def matching (text : String) (offset : Nat) : Except Stop (Option Nat) :=
  match text.toUTF8.data.toList[offset]?.map Mark.ofByte with
  | some .opening => closes text id 0 (List.range' offset (text.utf8ByteSize - offset))
  | some .closing => closes text Mark.flip 0 (List.range (offset + 1)).reverse
  | _ => .ok none

/-- The text without the brackets around it. -/
def strip (text : String) :
    Except Stop { bare : String // bare.utf8ByteSize ≤ text.utf8ByteSize } :=
  if text.toList.head? = some '(' then do
    let partner ← matching text 0
    let last ← minus text.utf8ByteSize 1
    if partner = some last then
      let inner ← slice text 1 last
      if shorter : inner.utf8ByteSize < text.utf8ByteSize then
        let bare ← strip inner
        .ok ⟨bare.1, Nat.le_trans bare.2 (Nat.le_of_lt shorter)⟩
      else .error (.fault .endless)
    else .ok ⟨text, Nat.le_refl _⟩
  else .ok ⟨text, Nat.le_refl _⟩
termination_by text.utf8ByteSize

def callee? (name : List Char) : Option Func :=
  if hasBrackets name || hasOperators name then none else Func.all.find? (·.name == name)

/-- The function that is called and its argument, still in brackets, if the whole text is a call. -/
def call? (text : String) : Except Stop (Option (Func × String)) :=
  if text.toList.getLast? = some ')' then do
    let last ← minus text.utf8ByteSize 1
    match ← matching text last with
    | none => .error .malformed
    | some start =>
        let name ← slice text 0 start
        let argument ← slice text start text.utf8ByteSize
        .ok ((callee? name.toList).map (·, argument))
  else .ok none

/-- The offset of the first point. -/
def point? : List Char → Option Nat
  | [] => none
  | c :: text => if c = '.' then some 0 else (point? text).map (c.utf8Size + ·)

/-- The number that a text of digits and points starts with, up to the second point, or zero if that
    is no numeral. -/
def leading (text : String) : Except Stop Float := do
  let stop ←
    match point? text.toList with
    | none => .ok text.utf8ByteSize
    | some point => do
        let behind ← slice text (point + 1) text.utf8ByteSize
        .ok ((point? behind.toList).elim text.utf8ByteSize (point + 1 + ·))
  let digits ← slice text 0 stop
  .ok ((Numeral.read? digits.toList).elim 0 Binary64.toFloat)

/-- The offsets of the operators of a level, from an offset on, outside the bracketed
    regions behind it. -/
def operators (text : String) (level : Level) (offset : Nat) : Except Stop (List Nat) :=
  if offset < text.utf8ByteSize then do
    let b ← byte text offset
    if Mark.ofByte b = .opening then
      match ← matching text offset with
      | none => .error .malformed
      | some closing =>
          if offset < closing + 1 then operators text level (closing + 1)
            else .error (.fault .endless)
    else
      let later ← operators text level (offset + 1)
      .ok (if (Op.ofByte? b).map Op.level = some level then offset :: later else later)
  else .ok []
termination_by text.utf8ByteSize - offset

/-- Joins what was read so far with the operands behind the operators at some offsets,
    from the left. -/
def foldFrom (read : String → Except Stop Expr) (text : String) : Expr → List Nat → Except Stop Expr
  | left, [] => .ok left
  | left, offset :: later => do
      let operand ← slice text (offset + 1) (later.headD text.utf8ByteSize)
      let right ← read operand
      match Op.ofByte? (← byte text offset) with
      | some op => foldFrom read text (.binary op left right) later
      | none => .error (.fault .notOperator)

/-- Splits a text at some operators and joins its operands from the left. -/
def fold (read : String → Except Stop Expr) (text : String) : List Nat → Except Stop Expr
  | [] => .error (.fault .noOperator)
  | offset :: later => do
      let first ← slice text 0 offset
      let left ← read first
      foldFrom read text left (offset :: later)

/-- Splits a text at the operators of the first level that has one outside all brackets. -/
def split (read : String → Except Stop Expr) (text : String) : List Level → Except Stop Expr
  | [] => .error .malformed
  | level :: tighter => do
      let offsets ← operators text level 0
      if offsets = [] then split read text tighter else fold read text offsets

/-- Reads a text without brackets around it, given how its parts are read. -/
def readBare (read : String → Except Stop Expr) (text : String) : Except Stop Expr :=
  if text.isEmpty then .ok (.const 0)
  else do
    match ← call? text with
    | some (fn, argument) => (read argument).map (.apply fn)
    | none =>
        if hasOperators text.toList then split read text Level.loosestFirst
        else if Decimal.isLiteral text.toList then (leading text).map .const
        else .ok (.var text)

/-- Reads a text without blanks. Every part must be shorter than the text without the
    brackets around it. -/
def read (text : String) : Except Stop Expr := do
  let bare ← strip text
  readBare (fun part =>
    if _shorter : part.utf8ByteSize < bare.1.utf8ByteSize then read part
    else .error (.fault .endless)) bare.1
termination_by text.utf8ByteSize
decreasing_by exact Nat.lt_of_lt_of_le _shorter bare.2

/-- Reads an expression. Blanks mean nothing, wherever they stand. -/
def parse (text : String) : Except Stop Expr := read (String.ofList (removeBlanks text.toList))

end InPlace

end Fluxion
