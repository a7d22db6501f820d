import Fluxion.Text.Blank
import Fluxion.Text.GraphemeBase
import Fluxion.Text.Ignorable

/-! # Quoted text

A text in double quotes, for a message. What could not be told apart on a screen is written as an
escape, so a quoted text stands on one line.
-/

namespace Fluxion.Quoted

/-- The letters among the characters that extend another one: the two halfwidth voicing marks of
    Katakana. Unlike the combining marks they are written on a place of their own. -/
def isVoicingMark (c : Char) : Bool :=
  c == '\uff9e' || c == '\uff9f'

/-- Whether a character shows as itself: it has a place of its own and leaves a trace there. Of the
    blanks only the space counts. -/
def isShown (c : Char) : Bool :=
  (isGraphemeBase c || isVoicingMark c) && !isIgnorable c && (c == ' ' || !isBlank c)

/-- One character inside the quotes. A character that does not show is written by its code point in
    hexadecimal. -/
def escape (c : Char) : List Char :=
  if c = '"' then ['\\', '"']
  else if c = '\\' then ['\\', '\\']
  else if c = '\n' then ['\\', 'n']
  else if c = '\r' then ['\\', 'r']
  else if c = '\t' then ['\\', 't']
  else if c = '\x00' then ['\\', '0']
  else if isShown c then [c]
  else ['\\', 'u', '{'] ++ Nat.toDigits 16 c.toNat ++ ['}']

def text (content : List Char) : List Char :=
  '"' :: content.flatMap escape ++ ['"']

end Fluxion.Quoted
