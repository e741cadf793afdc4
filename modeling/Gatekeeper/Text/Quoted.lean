import Gatekeeper.Text.CodePoint
import Gatekeeper.Text.Printable

/-!
# Quoted text

How a text is shown inside a message: between quotes, with the characters that cannot be seen
written by their code point.
-/
namespace Gatekeeper.Text

/-- The lower-case hexadecimal digits of a number, filled up with zeros to a width. -/
def hex (width n : Nat) : List Char :=
  let digits := Nat.toDigits 16 n
  List.replicate (width - digits.length) '0' ++ digits

/-- Double quotes enclose a text only when it has single quotes and no double ones. -/
def quoteFor (text : List Char) : Char :=
  if text.contains '\x27' && !text.contains '\x22' then '\x22' else '\x27'

/-- One code point between quotes. -/
def showCode (quote : Char) (n : Nat) : List Char :=
  if n = quote.toNat || n = '\\'.toNat then '\\' :: ofCode n
  else if n = '\n'.toNat then ['\\', 'n']
  else if n = '\r'.toNat then ['\\', 'r']
  else if n = '\t'.toNat then ['\\', 't']
  else if isPrintable n then ofCode n
  else if n < 0x100 then '\\' :: 'x' :: hex 2 n
  else if n < 0x10000 then '\\' :: 'u' :: hex 4 n
  else '\\' :: 'U' :: hex 8 n

/-- Bytes as messages show them: as a text with a mark in front, in which every byte outside the
printable ASCII characters is written by its number. -/
def quotedBytes (bytes : List UInt8) : String :=
  let quote := quoteFor (bytes.map fun b => Char.ofNat b.toNat)
  let showByte (b : UInt8) : List Char :=
    if b < 0x80 then showCode quote b.toNat else '\\' :: 'x' :: hex 2 b.toNat
  String.ofList ('b' :: quote :: (bytes.flatMap showByte ++ [quote]))

/-- A text as messages show it. -/
def quoted (text : String) : String :=
  let quote := quoteFor text.toList
  String.ofList (quote :: ((codes text.toList).flatMap (showCode quote) ++ [quote]))

end Gatekeeper.Text
