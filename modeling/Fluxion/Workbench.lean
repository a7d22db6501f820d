import Fluxion.Expr.Derivative
import Fluxion.Expr.Parser
import Fluxion.Expr.Printer

/-! # The workbench

Expressions are built and looked at on a stack. A step that needs more expressions than the stack
holds, cannot read its text, or asks for a child that is not there changes nothing and says so.
-/

namespace Fluxion

/-- One step on the stack. Operators take their right operand from the top. -/
inductive Step where
  | parse (text : String)
  | var (name : String)
  | const (value : Float)
  | binary (op : Op)
  | apply (fn : Func)
  | derivative
  | dup
  /-- Reads the text of the top and pushes the result. -/
  | reparse
  /-- Replaces the top by one of its children, counted from zero. -/
  | child (index : Nat)
  | swap
  | text
  | tree
  | eval (x : Float)
  | arity
  | children
  /-- Compares the two topmost expressions. -/
  | eq
  deriving Repr

/-- What a step answers. -/
inductive Reply where
  | text (text : String)
  | texts (texts : List String)
  | tree (e : Expr)
  | value (x : Float)
  | count (n : Nat)
  | verdict (holds : Bool)
  | noChild
  | unreadable (error : ParseError)
  | underflow
  deriving Repr

namespace Workbench

/-- Pushes an expression and answers with its text. -/
def push (e : Expr) (stack : List Expr) : List Expr × Reply :=
  (e :: stack, .text e.text)

/-- Pushes what the text says, if it says anything. -/
def pushParsed (text : String) (stack : List Expr) : List Expr × Reply :=
  match Expr.parse text with
  | .ok e => push e stack
  | .error error => (stack, .unreadable error)

/-- The stack after a step, its top first, and the answer. -/
def step : Step → List Expr → List Expr × Reply
  | .parse text, stack => pushParsed text stack
  | .var name, stack => push (.var name) stack
  | .const value, stack => push (.const value) stack
  | .binary op, right :: left :: stack => push (.binary op left right) stack
  | .apply fn, arg :: stack => push (.apply fn arg) stack
  | .derivative, e :: stack => push e.derivative stack
  | .dup, e :: stack => push e (e :: stack)
  | .reparse, e :: stack => pushParsed e.text (e :: stack)
  | .child index, e :: stack =>
      match e.children[index]? with
      | some child => push child stack
      | none => (e :: stack, .noChild)
  | .swap, e :: d :: stack => push d (e :: stack)
  | .text, e :: stack => (e :: stack, .text e.text)
  | .tree, e :: stack => (e :: stack, .tree e)
  | .eval x, e :: stack => (e :: stack, .value (e.eval x))
  | .arity, e :: stack => (e :: stack, .count e.arity)
  | .children, e :: stack => (e :: stack, .texts (e.children.map Expr.text))
  | .eq, e :: d :: stack => (e :: d :: stack, .verdict (d == e))
  | _, stack => (stack, .underflow)

/-- The answers of a row of steps on a stack, in order. -/
def run : List Step → List Expr → List Reply
  | [], _ => []
  | s :: steps, stack => (step s stack).2 :: run steps (step s stack).1

theorem length_run (steps : List Step) (stack : List Expr) :
    (run steps stack).length = steps.length := by
  induction steps generalizing stack with
  | nil => rfl
  | cons s steps ih => simp only [run, List.length_cons, ih]

end Workbench

end Fluxion
