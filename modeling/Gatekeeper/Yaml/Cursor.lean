import Gatekeeper.Text.CodePoint
import Gatekeeper.Yaml.Error

/-!
# Cursors

A place in a text: the characters ahead, and how many code points, lines, and columns lie behind. The
end of the text looks like the character zero, which no text holds. A text may be cut where it cannot
be read any further; then nobody may look behind its last character.
-/
namespace Gatekeeper.Yaml

structure Cursor where
  rest : List Char
  index : Nat := 0
  line : Nat := 0
  column : Nat := 0
  /-- The number of characters in the whole text. -/
  size : Nat := rest.length
  /-- Whether the text goes on behind its last character. -/
  cut : Bool := false
  deriving Repr

/-- Characters that break a line. -/
def isBreak (c : Char) : Bool :=
  c == '\r' || c == '\n' || c == '\u0085' || c == '\u2028' || c == '\u2029'

/-- A line break or the end. -/
def isLineEnd (c : Char) : Bool :=
  isBreak c || c == '\x00'

/-- What separates tokens: a blank, a line break, or the end. -/
def isSeparator (c : Char) : Bool :=
  isLineEnd c || c == ' ' || c == '\t'

namespace Cursor

def peek (k : Cursor) : Char :=
  k.rest.headD '\x00'

/-- The character `n` places ahead. -/
def peekAt (k : Cursor) (n : Nat) : Char :=
  k.rest[n]?.getD '\x00'

/-- Look at the next `n` code points, of which those behind the end count as read unless it is a cut. -/
def require (k : Cursor) (n : Nat) : Except Error Unit :=
  if k.cut && Text.isShorter n k.rest then .error .unfinished else .ok ()

/-- One character on. The second one of a code point takes no place of its own. -/
def next (k : Cursor) : Cursor :=
  match k.rest with
  | [] => { k with index := k.index + 1 }
  | c :: rest =>
    if isBreak c && !(c == '\r' && rest.head? == some '\n') then
      { k with rest, index := k.index + 1, line := k.line + 1, column := 0 }
    else if Text.isTail c then { k with rest }
    else if c == '\uFEFF' then { k with rest, index := k.index + 1 }
    else { k with rest, index := k.index + 1, column := k.column + 1 }

/-- Some characters on. -/
def advance (k : Cursor) : Nat → Cursor
  | 0 => k
  | n + 1 => k.next.advance n

/-- On to the first character that does not satisfy a test. -/
def skipWhile (k : Cursor) (test : Char → Bool) : Cursor :=
  k.advance (k.rest.takeWhile test).length

/-- The characters up to the first one that does not satisfy a test, and the place behind them. -/
def takeWhile (k : Cursor) (test : Char → Bool) : List Char × Cursor :=
  (k.rest.takeWhile test, k.skipWhile test)

/-- Behind a line break, with the character that the break counts as. -/
def lineBreak? (k : Cursor) : Option (Char × Cursor) :=
  match k.rest with
  | '\r' :: '\n' :: _ => some ('\n', k.advance 2)
  | c :: _ =>
    if c == '\u2028' || c == '\u2029' then some (c, k.next)
    else if isBreak c then some ('\n', k.next)
    else none
  | [] => none

/-- Whether three marks that end a document stand here. -/
def atDocumentMark (k : Cursor) : Except Error Bool := do
  k.require 3
  if k.rest.take 3 == "---".toList || k.rest.take 3 == "...".toList then
    k.require 4
    return isSeparator (k.peekAt 3)
  else return false

end Cursor

end Gatekeeper.Yaml
