import Fluxion.Binary64.Printer
import Fluxion.Decimal.Shortest
import Fluxion.Expr.Derivative
import Fluxion.Expr.Parser
import Fluxion.Expr.Printer
import Fluxion.Numeral
import Fluxion.Text.Quoted

/-! # Answers to lines

A line is an expression, or an expression and a point with `@` between them. It is answered by the
expression and its derivative, and at a point also by the value of both.
-/

namespace Fluxion

/-- What a line says about the point. -/
inductive Point where
  | absent
  | bad (text : List Char)
  | value (x : Float)
  deriving Repr

/-- The point is what follows the first `@`, without the blanks around it. -/
def Point.ofLine (line : List Char) : Point :=
  match line.dropWhile (· != '@') with
  | [] => .absent
  | _ :: rest =>
      let text := trimBlanks rest
      match Numeral.read? text with
      | some x => .value x.toFloat
      | none => .bad text

inductive Answer where
  | unreadable (error : ParseError)
  | derived (f : Expr) (point : Point)
  deriving Repr

namespace Answer

/-- The expression is what stands before the first `@`. If it cannot be read, the point
    does not matter. -/
def ofLine (line : String) : Answer :=
  match Expr.parse (String.ofList (line.toList.takeWhile (· != '@'))) with
  | .error error => .unreadable error
  | .ok f => .derived f (.ofLine line.toList)

/-- A double with the fewest digits that read back as the same double. -/
def numberText (x : Float) : String :=
  String.ofList ((Binary64.ofFloat x).text Decimal.shortest)

/-- The lines that are written, without their endings. -/
def lines : Answer → List String
  | .unreadable error => ["Parse err: " ++ error.message]
  | .derived f point =>
      let f' := f.derivative
      ["f(x)  = " ++ f.text, "f'(x) = " ++ f'.text] ++
        match point with
        | .absent => []
        | .bad text => ["Bad point: " ++ String.ofList (Quoted.text text)]
        | .value x =>
            ["f(" ++ numberText x ++ ")  = " ++ numberText (f.eval x),
              "f'(" ++ numberText x ++ ") = " ++ numberText (f'.eval x)]

/-- What is written: every line with its ending. -/
def output (answer : Answer) : String :=
  String.join (answer.lines.map (· ++ "\n"))

end Answer

end Fluxion
