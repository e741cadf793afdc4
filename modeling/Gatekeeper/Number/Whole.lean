import Gatekeeper.Text.Blank
import Gatekeeper.Text.Digit
import Gatekeeper.Text.Quoted

/-!
# Whole numbers

A whole number as it is typed: a sign and digits in some base, with blanks around them and single
underscores between digits. Digits may be those of any script. In base ten numbers are read and
written up to a limit of digits.
-/
namespace Gatekeeper.Number

/-- The blanks that may stand around a number. The four separators of the control range may not. -/
def isMargin (c : Char) : Bool :=
  Text.isBlank c && !(0x1C ≤ c.toNat && c.toNat ≤ 0x1F)

/-- A text without the margins at its two ends. -/
def withoutMargins (text : List Char) : List Char :=
  ((text.dropWhile isMargin).reverse.dropWhile isMargin).reverse

/-- The most digits with which a whole number is read and written in base ten, leading zeros
included. -/
def digitLimit : Nat := 4300

namespace Whole

/-- Why a text is read as no whole number. -/
inductive Refusal where
  | invalid
  | tooLong (digits : Nat)
  deriving DecidableEq, Repr

def tooLongMessage (digits : Nat) : String :=
  s!"Exceeds the limit ({digitLimit} digits) for integer string conversion: value has {digits}" ++
    " digits; use sys.set_int_max_str_digits() to increase the limit"

/-- A message shows so many characters of a text that is no number. -/
def shownLength : Nat := 200

def invalidMessage (base : Nat) (text : List Char) : String :=
  let shown := (Text.quoted (String.ofList text)).toList.take shownLength
  s!"invalid literal for int() with base {base}: " ++ String.ofList shown

def Refusal.message (base : Nat) (text : List Char) : Refusal → String
  | invalid => invalidMessage base text
  | tooLong digits => tooLongMessage digits

/-- Whether a number is short enough to be written. -/
def isWritable (n : Int) : Bool :=
  n.natAbs < Nat.pow 10 digitLimit

def unwritableMessage : String :=
  s!"Exceeds the limit ({digitLimit} digits) for integer string conversion;" ++
    " use sys.set_int_max_str_digits() to increase the limit"

/-- The value of a letter that serves as a digit. -/
def letterValue? (c : Char) : Option Nat :=
  if 'a' ≤ c ∧ c ≤ 'z' then some (c.toNat - 87)
  else if 'A' ≤ c ∧ c ≤ 'Z' then some (c.toNat - 55)
  else none

/-- The value of a digit in a base. -/
def digitIn? (base : Nat) (c : Char) : Option Nat :=
  (Text.digitValue? c <|> letterValue? c).filter (· < base)

/-- The letter that names a base behind a zero. -/
def baseLetter? (base : Nat) : Option Char :=
  if base = 2 then some 'b' else if base = 8 then some 'o' else if base = 16 then some 'x' else none

/-- A text without the sign of its base in front, which one underscore may follow. -/
def withoutBase (base : Nat) (text : List Char) : List Char :=
  match text with
  | '0' :: c :: rest =>
    if (baseLetter? base).any fun letter => c == letter || c == letter.toUpper then
      if rest.head? = some '_' then rest.drop 1 else rest
    else text
  | _ => text

/-- The number that a text without a sign writes, when its digits stand in groups between
underscores. The limit counts before what follows the digits does. -/
def magnitude (base : Nat) (text : List Char) : Except Refusal Nat :=
  let run := text.takeWhile fun c => c == '_' || (digitIn? base c).isSome
  let groups := run.splitOn '_'
  let digits := groups.flatten
  if groups.any (·.isEmpty) then .error .invalid
  else if base = 10 ∧ digitLimit < digits.length then .error (.tooLong digits.length)
  else if run.length < text.length then .error .invalid
  else .ok (digits.foldl (fun n c => base * n + (digitIn? base c).getD 0) 0)

/-- The whole number that a text writes in a base. -/
def ofText (base : Nat) (text : List Char) : Except Refusal Int :=
  match withoutMargins text with
  | '-' :: rest => (magnitude base (withoutBase base rest)).map fun n => -(n : Int)
  | '+' :: rest => (magnitude base (withoutBase base rest)).map Int.ofNat
  | rest => (magnitude base (withoutBase base rest)).map Int.ofNat

end Whole

/-- The whole number that a text denotes in base ten. -/
def whole? (text : List Char) : Option Int :=
  (Whole.ofText 10 text).toOption

end Gatekeeper.Number
