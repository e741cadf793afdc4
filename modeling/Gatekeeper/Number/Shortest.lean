import Gatekeeper.Number.Double

/-!
# Shortest decimal text

A double is written with the fewest digits that read back as the same double, and of those with the
nearest. Reading back is `Double.ofDecimal` itself, so the search compares nothing but doubles.
-/
namespace Gatekeeper.Number.Double

/-- Whether a positive number of units is less than `10 ^ exponent`. -/
def below (units : Nat) (exponent : Int) : Bool :=
  units * Nat.pow 10 (-exponent).toNat < one * Nat.pow 10 exponent.toNat

/-- The least power of ten above a positive number of units. The logarithm of two is a little less
than 0.30103, which puts the answer among the next few exponents. -/
def decimalPoint (units : Nat) : Int :=
  let start := ((units.log2 : Int) - 1074) * 30103 / 100000 - 1
  ((List.range 5).map fun (i : Nat) => start + i).find? (below units ·) |>.getD start

/-- The multiple of `10 ^ exponent` nearest to a number of units among the two beside it that read
back as it. -/
def onGrid? (units : Nat) (exponent : Int) : Option Nat :=
  let numerator := units * Nat.pow 10 (-exponent).toNat
  let denominator := one * Nat.pow 10 exponent.toNat
  let lower := numerator / denominator
  let reads (digits : Nat) : Bool := ofDecimal false digits exponent = finite false units
  let nearest := roundQuotient numerator denominator
  if reads nearest then some nearest
  else if reads lower then some lower
  else if reads (lower + 1) then some (lower + 1)
  else none

/-- The digits of a positive number of units and the exponent of the last of them, on the coarsest
grid with a point that reads back. Seventeen digits always do. -/
def shortest (units : Nat) : Nat × Int :=
  let point := decimalPoint units
  ((List.range 17).findSome? fun (i : Nat) =>
    let exponent := point - (i + 1)
    (onGrid? units exponent).map (·, exponent)).getD (0, 0)

/-- Digits without the zeros at their end, and the place of the decimal point before them. -/
def significant (digits : Nat) (exponent : Int) : List Char × Int :=
  let text := Nat.toDigits 10 digits
  ((text.reverse.dropWhile (· == '0')).reverse, exponent + text.length)

/-- An exponent with its sign and at least two digits. -/
def exponentText (exponent : Int) : List Char :=
  let digits := Nat.toDigits 10 exponent.natAbs
  (if exponent < 0 then '-' else '+') :: (List.replicate (2 - digits.length) '0' ++ digits)

/-- Significant digits with their point: in place from 10^-4 up to 10^16, else after the first digit
with an exponent. -/
def positional (digits : List Char) (point : Int) : List Char :=
  if -4 < point ∧ point ≤ 0 then '0' :: '.' :: (List.replicate (-point).toNat '0' ++ digits)
  else if 0 < point ∧ point ≤ 16 then
    let before := point.toNat
    let after := digits.drop before
    digits.take before ++ List.replicate (before - digits.length) '0' ++
      '.' :: (if after.isEmpty then ['0'] else after)
  else
    let mantissa :=
      match digits with
      | d :: e :: rest => d :: '.' :: e :: rest
      | _ => digits
    mantissa ++ 'e' :: exponentText (point - 1)

/-- The shortest text of a finite number. -/
def finiteText (negative : Bool) (units : Nat) : List Char :=
  let magnitude :=
    if units = 0 then ['0', '.', '0']
    else
      let (digits, exponent) := shortest units
      let (text, point) := significant digits exponent
      positional text point
  if negative then '-' :: magnitude else magnitude

/-- The shortest text of a double. -/
def text : Double → String
  | nan => "nan"
  | infinity negative => if negative then "-inf" else "inf"
  | finite negative units => String.ofList (finiteText negative units)

end Gatekeeper.Number.Double
