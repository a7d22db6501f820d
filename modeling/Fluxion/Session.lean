import Fluxion.Answer
import Fluxion.Text.Backspace

/-! # Sessions

A session answers its lines one after the other, whatever the answers are. Its lines are either the
arguments joined to one line, or the lines of the input, in which backspaces take back what was
typed before them. An input line that cannot be used ends the session. How the bytes of an input are
read as lines is left open until the command line is run.
-/

namespace Fluxion

/-- Why a line of the input cannot be used. -/
inductive LineError where
  | notText
  /-- A backspace would leave a part of a character. -/
  | tornCharacter
  deriving Repr, DecidableEq

/-- The code of a session that such a line ends. -/
def LineError.exitCode : LineError → Nat
  | .notText => 1
  | .tornCharacter => 101

/-- What a session writes, and the code that it ends with. -/
structure Session where
  output : String
  exitCode : Nat
  deriving Repr, DecidableEq

namespace Session

/-- The lines of an input. A line ends with a line feed, or with a carriage return and a line feed,
    and the last one may have no ending. A carriage return elsewhere belongs to its line. -/
def splitLines : List UInt8 → List (List UInt8)
  | [] => []
  | 10 :: rest => [] :: splitLines rest
  | 13 :: 10 :: rest => [] :: splitLines rest
  | b :: rest =>
      match splitLines rest with
      | [] => [[b]]
      | line :: lines => (b :: line) :: lines

/-- The text of an input line: its bytes in UTF-8, without what its backspaces take back. -/
def readLine (bytes : List UInt8) : Except LineError String :=
  match String.fromUTF8? ⟨bytes.toArray⟩ with
  | none => .error .notText
  | some typed =>
      match Typed.result? typed.toList with
      | some text => .ok (String.ofList text)
      | none => .error .tornCharacter

/-- Answers one line after the other, up to the first that cannot be used. -/
def ofLines : List (Except LineError String) → Session
  | [] => ⟨"", 0⟩
  | .error error :: _ => ⟨"", error.exitCode⟩
  | .ok line :: lines =>
      let rest := ofLines lines
      ⟨(Answer.ofLine line).output ++ rest.output, rest.exitCode⟩

/-- The session on the bytes of an input, with a reader for its lines. -/
def ofInput (read : ByteArray → List (Except LineError String)) (bytes : ByteArray) : Session :=
  ofLines (read bytes)

/-- The session on arguments. They make one line, with a space between each two. A backspace in an
    argument is a character like any other. -/
def ofArguments (args : List String) : Session :=
  ofLines [.ok (" ".intercalate args)]

/-- The session of a command line. The input, and how its lines are read, matters only when there
    are no arguments. -/
def runWith (read : ByteArray → List (Except LineError String)) (args : List String)
    (input : ByteArray) : Session :=
  if args.isEmpty then ofInput read input else ofArguments args

/-- The lines of an input as they are typed. -/
def readLines (bytes : ByteArray) : List (Except LineError String) :=
  (splitLines bytes.data.toList).map readLine

/-- The session of a command line on typed lines. -/
def run (args : List String) (input : ByteArray) : Session := runWith readLines args input

end Session

end Fluxion
