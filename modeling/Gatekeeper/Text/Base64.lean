/-!
# Base 64

Bytes as digits of six bits, in lines that each end with a line feed. Reading takes the digits and
leaves other characters out.
-/
namespace Gatekeeper.Text.Base64

/-- The digits from zero to sixty-three. -/
def digits : List Char :=
  "ABCDEFGHIJKLMNOPQRSTUVWXYZabcdefghijklmnopqrstuvwxyz0123456789+/".toList

/-- The digit of a number. -/
def digit (n : Nat) : Char :=
  digits[n]?.getD '='

/-- The value of a digit. -/
def value? (c : Char) : Option Nat :=
  digits.findIdx? (· == c)

/-- The digits of bytes, in groups of four. -/
def encodeGroups : List UInt8 → List Char
  | a :: b :: c :: rest =>
    let n := a.toNat * 65536 + b.toNat * 256 + c.toNat
    digit (n / 262144) :: digit (n / 4096 % 64) :: digit (n / 64 % 64) :: digit (n % 64) ::
      encodeGroups rest
  | [a, b] =>
    let n := a.toNat * 256 + b.toNat
    [digit (n / 1024), digit (n / 16 % 64), digit (n * 4 % 64), '=']
  | [a] => [digit (a.toNat / 4), digit (a.toNat * 16 % 64), '=', '=']
  | [] => []

/-- The greatest number of digits in a line. -/
def lineLength : Nat := 76

/-- Lines of a text, each with a line feed behind it. -/
def inLines (text : List Char) : Nat → List Char
  | 0 => []
  | fuel + 1 =>
    if text.isEmpty then []
    else text.take lineLength ++ '\n' :: inLines (text.drop lineLength) fuel

def encode (bytes : List UInt8) : List Char :=
  let text := encodeGroups bytes
  inLines text text.length

/-- Bytes from digits, when `held` bits of `bits` wait for more. Signs of a padding end a group that
has them. The digits must end with a group. -/
def decodeFrom (held bits padding : Nat) : List Char → Option (List UInt8)
  | [] => if held = 0 then some [] else none
  | c :: rest =>
    if c = '=' then
      if held = 4 ∧ 1 ≤ padding ∨ held = 2 then some []
      else decodeFrom held bits (if held = 4 then padding + 1 else padding) rest
    else
      match value? c with
      | none => decodeFrom held bits padding rest
      | some v =>
        let bits := bits * 64 + v
        if held = 0 then decodeFrom 6 bits 0 rest
        else (decodeFrom (held - 2) (bits % Nat.pow 2 (held - 2)) 0 rest).map
          (UInt8.ofNat (bits / Nat.pow 2 (held - 2)) :: ·)

/-- The bytes that a text writes. -/
def decode (text : List Char) : Option (List UInt8) :=
  decodeFrom 0 0 0 text

end Gatekeeper.Text.Base64
