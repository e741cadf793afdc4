import Gatekeeper.Number.Double
import Gatekeeper.Number.Whole
import Gatekeeper.Text.Caseless

/-!
# Numerals

Which texts count as numbers, and which double each denotes. A numeral is an optional sign and a
plain decimal number with an optional exponent, or one of the names of infinity and of the number
that is none. The grammar takes the names in any letter case, the dotted and dotless forms of `i`
included, but a name with such a letter denotes nothing: it is a numeral that cannot be converted.
-/
namespace Gatekeeper.Number

inductive Numeral where
  | nan
  | infinity (negative : Bool)
  | decimal (negative : Bool) (whole fraction : List Char) (exponent : Int)
  | unreadable (text : List Char)
  deriving DecidableEq, Repr

namespace Numeral

open Text

/-- The sign at the start of a text, and the rest. -/
def takeSign : List Char → Bool × List Char
  | '-' :: rest => (true, rest)
  | '+' :: rest => (false, rest)
  | text => (false, text)

/-- The exponent that ends a numeral: none, or a letter with an optional sign and digits. -/
def exponent? : List Char → Option Int
  | [] => some 0
  | c :: rest =>
    if c = 'e' ∨ c = 'E' then
      let (negative, digits) := takeSign rest
      if digits.isEmpty || !digits.all isDigit then none
      else some (Double.signed negative (digitsValue digits))
    else none

/-- A decimal number: digits with a point anywhere, or with none, and an exponent. -/
def decimal? (negative : Bool) (text : List Char) : Option Numeral :=
  let whole := text.takeWhile isDigit
  let afterWhole := text.dropWhile isDigit
  let (fraction, rest) :=
    match afterWhole with
    | '.' :: afterPoint => (afterPoint.takeWhile isDigit, afterPoint.dropWhile isDigit)
    | _ => ([], afterWhole)
  if whole.isEmpty && fraction.isEmpty then none
  else (exponent? rest).map (decimal negative whole fraction)

/-- Whether a text is a word in any letter case. -/
def isWord (word : String) (text : List Char) : Bool :=
  afterWord? word.toList text == some []

/-- The name of a number that has no digits. -/
def named? (negative : Bool) (text : List Char) : Option Numeral :=
  if isWord "nan" text then some nan
  else if isWord "inf" text || isWord "infinity" text then
    if text.all (·.toNat < 128) then some (infinity negative) else some (unreadable text)
  else none

/-- The numeral that a whole text without blanks at its ends is. -/
def ofText? (text : List Char) : Option Numeral :=
  let (negative, rest) := takeSign text
  match named? negative rest with
  | some (unreadable _) => some (unreadable text)
  | some numeral => some numeral
  | none => decimal? negative rest

/-- The nearest double to a numeral, or the text that cannot be converted. -/
def value : Numeral → Except String Double
  | nan => .ok .nan
  | infinity negative => .ok (.infinity negative)
  | decimal negative whole fraction exponent =>
    .ok (.ofDecimal negative (digitsValue (whole ++ fraction)) (exponent - fraction.length))
  | unreadable text => .error (String.ofList text)

end Numeral

/-- The number that a text writes, blanks around it aside, if it is a numeral that can be converted. -/
def written? (text : List Char) : Option Double :=
  let (negative, rest) := Numeral.takeSign (withoutMargins text)
  ((Numeral.named? negative rest <|> Numeral.decimal? negative rest).map Numeral.value).bind
    Except.toOption

/-- The number a text denotes, blanks at its ends aside, if it is a numeral at all. -/
def number? (text : String) : Except String (Option Double) :=
  match Numeral.ofText? (Text.trim text.toList) with
  | none => .ok none
  | some numeral => numeral.value.map some

end Gatekeeper.Number
