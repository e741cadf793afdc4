import Gatekeeper.Json.Reader
import Gatekeeper.Value.Moment

/-!
# Moments as written

A date of three numbers between dashes, with or without a time of day behind it, which may have parts
of a second and an offset from universal time. What is written need not exist.
-/
namespace Gatekeeper.Yaml

/-- A text without a line feed at its end; such a line feed does not count for the form of a text. -/
def withoutLastFeed (text : List Char) : List Char :=
  if text.getLast? = some '\n' then text.dropLast else text

namespace WrittenMoment

/-- Some digits at the start of a text, at least `least` and at most `most`. -/
def takeDigits? (least most : Nat) (text : List Char) : Option (Nat × List Char) :=
  let digits := (text.take most).takeWhile Char.isDigit
  if digits.length < least then none
  else some (Json.decimalValue digits, text.drop digits.length)

def take? (c : Char) : List Char → Option (List Char)
  | d :: rest => if c = d then some rest else none
  | [] => none

/-- The offset that ends a time of day, in minutes, or none if nothing is written. -/
def offset? (text : List Char) : Option (Option Int) :=
  match text.dropWhile fun c => c == ' ' || c == '\t' with
  | [] => if text.isEmpty then some none else none
  | ['Z'] => some (some 0)
  | sign :: rest =>
    if sign = '-' ∨ sign = '+' then do
      let (hours, rest) ← takeDigits? 1 2 rest
      let minutes ←
        match rest with
        | [] => some 0
        | ':' :: digits =>
          match takeDigits? 2 2 digits with
          | some (minutes, []) => some minutes
          | _ => none
        | _ => none
      return some (Number.Double.signed (sign == '-') (hours * 60 + minutes))
    else none

/-- The parts of a second that six digits write; fewer digits are filled up with zeros. -/
def millionths (digits : List Char) : Nat :=
  let digits := digits.take 6
  Json.decimalValue (digits ++ List.replicate (6 - digits.length) '0')

/-- A time of day behind a date. -/
def clock? (text : List Char) : Option Clock := do
  let start ←
    match text with
    | 'T' :: rest | 't' :: rest => some rest
    | _ =>
      let rest := text.dropWhile fun c => c == ' ' || c == '\t'
      if rest.length < text.length then some rest else none
  let (hour, rest) ← takeDigits? 1 2 start
  let (minute, rest) ← takeDigits? 2 2 (← take? ':' rest)
  let (second, rest) ← takeDigits? 2 2 (← take? ':' rest)
  let (fraction, rest) :=
    match rest with
    | '.' :: more => (more.takeWhile Char.isDigit, more.dropWhile Char.isDigit)
    | _ => ([], rest)
  return { hour, minute, second, micro := millionths fraction, offset? := ← offset? rest }

end WrittenMoment

open WrittenMoment in
/-- The moment that a text writes. -/
def writtenMoment? (text : List Char) : Option Moment := do
  let (year, rest) ← takeDigits? 4 4 (withoutLastFeed text)
  let (month, rest) ← takeDigits? 1 2 (← take? '-' rest)
  let (day, rest) ← takeDigits? 1 2 (← take? '-' rest)
  if rest.isEmpty then return { year, month, day, clock? := none }
  else return { year, month, day, clock? := some (← clock? rest) }

end Gatekeeper.Yaml
