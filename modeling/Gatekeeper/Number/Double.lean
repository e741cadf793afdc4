/-!
# Double precision numbers

A finite double is a whole number of units of 2^-1074, the least positive double, so the order of
two doubles is the order of two integers. Nothing here rounds but `roundUnits`, which takes an exact
fraction to the nearest double.
-/
namespace Gatekeeper.Number

inductive Double where
  | nan
  | infinity (negative : Bool)
  | finite (negative : Bool) (units : Nat)
  deriving DecidableEq, Repr, Inhabited

namespace Double

/-- The number of units in one. -/
def one : Nat := Nat.pow 2 1074

/-- The least number of units that is too large for a double. -/
def overflow : Nat := Nat.pow 2 2098

def signed (negative : Bool) (n : Nat) : Int :=
  if negative then -n else n

/-- Position on the line: the units of a finite number, and the first place that is too far away for
an infinite one. -/
def position? : Double → Option Int
  | nan => none
  | infinity negative => some (signed negative overflow)
  | finite negative units => some (signed negative units)

/-- The nearest whole number to a quotient, the even one of two. -/
def roundQuotient (numerator denominator : Nat) : Nat :=
  let quotient := numerator / denominator
  let remainder := numerator % denominator
  if 2 * remainder < denominator then quotient
  else if denominator < 2 * remainder then quotient + 1
  else quotient + quotient % 2

/-- The exponent of the last of the 53 leading bits of a number of units. -/
def lastBit (units : Nat) : Nat :=
  units.log2 - 52

/-- The nearest number of units with at most 53 significant bits. -/
def roundUnits (numerator denominator : Nat) : Nat :=
  let unit := Nat.pow 2 (lastBit (numerator / denominator))
  roundQuotient numerator (denominator * unit) * unit

/-- The double nearest to a fraction. -/
def ofQuotient (negative : Bool) (numerator denominator : Nat) : Double :=
  let units := roundUnits (numerator * one) denominator
  if overflow ≤ units then infinity negative else finite negative units

/-- The double nearest to `digits * 10 ^ exponent`. Beyond 10^400 every number overflows, and below
10^-330 every number vanishes, so those are never written out. -/
def ofDecimal (negative : Bool) (digits : Nat) (exponent : Int) : Double :=
  if digits = 0 then finite negative 0
  else if 400 < exponent then infinity negative
  else if exponent + digits.log2 + 331 < 0 then finite negative 0
  else ofQuotient negative (digits * Nat.pow 10 exponent.toNat) (Nat.pow 10 (-exponent).toNat)

/-- The nearest double to a signed number of units. -/
def ofUnits (units : Int) : Double :=
  let rounded := roundUnits units.natAbs 1
  if overflow ≤ rounded then infinity (units < 0) else finite (units < 0) rounded

/-- A whole number as a double, unless it is too large for one. -/
def ofWhole? (n : Nat) : Option Double :=
  match ofUnits (n * one : Nat) with
  | infinity _ => none
  | x => some x

/-- The double nearest to a sum. A sum that vanishes is negative only when both numbers are. -/
def plus : Double → Double → Double
  | finite negative units, finite negative' units' =>
    let sum := signed negative units + signed negative' units'
    if sum = 0 then finite (negative && negative') 0 else ofUnits sum
  | infinity negative, infinity negative' =>
    if negative = negative' then infinity negative else nan
  | infinity negative, finite .. | finite .., infinity negative => infinity negative
  | nan, _ | _, nan => nan

/-- The double nearest to a product. -/
def times : Double → Double → Double
  | finite negative units, finite negative' units' =>
    ofQuotient (negative != negative') (units * units') (one * one)
  | infinity negative, infinity negative' => infinity (negative != negative')
  | infinity negative, finite negative' units | finite negative' units, infinity negative =>
    if units = 0 then nan else infinity (negative != negative')
  | nan, _ | _, nan => nan

/-- The number on the other side of zero. -/
def opposite : Double → Double
  | nan => nan
  | infinity negative => infinity (!negative)
  | finite negative units => finite (!negative) units

/-- Whether the number is zero, of either sign. -/
def isZero : Double → Bool
  | finite _ units => units == 0
  | _ => false

end Double

end Gatekeeper.Number
