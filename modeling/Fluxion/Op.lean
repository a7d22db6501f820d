/-! # Operators and functions

The five operators with their levels of precedence, and the three named functions, with what each
means on doubles. A symbol or a name determines its operator or function and the other way round.
-/

namespace Fluxion

/-- The levels of precedence, the loosest first. -/
inductive Level where
  | additive
  | multiplicative
  | power
  deriving Repr, DecidableEq

namespace Level

/-- How tightly the operators of a level bind. -/
def tightness : Level → Nat
  | .additive => 0
  | .multiplicative => 1
  | .power => 2

/-- Every level, in the order in which operators take their operands. -/
def tightestFirst : List Level := [.power, .multiplicative, .additive]

end Level

inductive Op where
  | add
  | sub
  | mul
  | div
  | pow
  deriving Repr, DecidableEq

namespace Op

def symbol : Op → Char
  | .add => '+'
  | .sub => '-'
  | .mul => '*'
  | .div => '/'
  | .pow => '^'

def ofChar? : Char → Option Op
  | '+' => some .add
  | '-' => some .sub
  | '*' => some .mul
  | '/' => some .div
  | '^' => some .pow
  | _ => none

/-- The operator that one byte of a UTF-8 text stands for. The bytes of a longer encoding stand for
    none. -/
def ofByte? (b : UInt8) : Option Op := ofChar? (Char.ofUInt8 b)

theorem ofChar?_symbol (op : Op) : ofChar? op.symbol = some op := by
  cases op <;> rfl

theorem symbol_of_ofChar? {c : Char} {op : Op} (h : ofChar? c = some op) : op.symbol = c := by
  unfold ofChar? at h
  split at h
  case h_6 => simp at h
  all_goals
    obtain rfl := Option.some.inj h
    rfl

def level : Op → Level
  | .add | .sub => .additive
  | .mul | .div => .multiplicative
  | .pow => .power

/-- What the operator does to two doubles. Nothing fails: infinities and NaN take the exceptions. -/
def apply : Op → Float → Float → Float
  | .add, x, y => x + y
  | .sub, x, y => x - y
  | .mul, x, y => x * y
  | .div, x, y => x / y
  | .pow, x, y => x.pow y

end Op

/-- Whether an operator stands anywhere in the text, inside brackets or not. -/
def hasOperators (text : List Char) : Bool :=
  text.any fun c => (Op.ofChar? c).isSome

inductive Func where
  | ln
  | sin
  | cos
  deriving Repr, DecidableEq

namespace Func

def name : Func → List Char
  | .ln => ['l', 'n']
  | .sin => ['s', 'i', 'n']
  | .cos => ['c', 'o', 's']

def all : List Func := [.ln, .sin, .cos]

theorem mem_all (fn : Func) : fn ∈ all := by
  cases fn <;> simp [all]

/-- What the function does to a double. -/
def apply : Func → Float → Float
  | .ln, x => x.log
  | .sin, x => x.sin
  | .cos, x => x.cos

end Func

end Fluxion
