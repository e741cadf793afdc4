import Gatekeeper.Number.Numeral
import Gatekeeper.Text.Base64
import Gatekeeper.Text.Lowercase
import Gatekeeper.Yaml.Error
import Gatekeeper.Yaml.Scalar.Kind

/-!
# Literals

The scalar that a text denotes as one of a kind. A text that shows its kind by its form mostly denotes
something; one whose kind comes from a tag may be anything, and each kind has its own way to refuse it.
-/
namespace Gatekeeper.Yaml.Literal

open Number

/-- A text without the underscores that group digits. -/
def withoutGaps (text : List Char) : List Char :=
  text.filter (· != '_')

/-- The truth values by their names in lower case. -/
def truthValues : List (String × Bool) :=
  [("yes", true), ("no", false), ("true", true), ("false", false), ("on", true), ("off", false)]

def bool (text : List Char) : Except Error Bool :=
  let name := String.ofList (Text.lower text)
  match truthValues.lookup name with
  | some b => .ok b
  | none => .error (.truthValue name)

/-- A whole number in a base. -/
def wholeIn (base : Nat) (text : List Char) : Except Error Int :=
  (Whole.ofText base text).mapError fun r => .literal (r.message base text)

/-- A whole number without its sign: in the base that its first characters show, or in groups of
sixty between colons. -/
def magnitude (text : List Char) : Except Error Int :=
  match text with
  | [] => .error .emptyNumber
  | ['0'] => .ok 0
  | '0' :: 'b' :: digits => wholeIn 2 digits
  | '0' :: 'x' :: digits => wholeIn 16 digits
  | '0' :: _ => wholeIn 8 text
  | _ =>
    if text.contains ':' then do
      let groups ← (text.splitOn ':').mapM (wholeIn 10)
      return groups.foldl (fun n group => 60 * n + group) 0
    else wholeIn 10 text

def int (text : List Char) : Except Error Int := do
  let text := withoutGaps text
  if text.isEmpty then throw .emptyNumber
  let (negative, rest) := Kind.takeSign text
  let n ← magnitude rest
  return if negative then -n else n

/-- The number that a text writes with a point. -/
def real (text : List Char) : Except Error Double :=
  match written? text with
  | some x => .ok x
  | none =>
    .error (.literal ("could not convert string to float: " ++ Text.quoted (String.ofList text)))

/-- The sum of groups from the last one on, each by its power of sixty. -/
def weigh (sum : Double) (weight : Nat) : List Double → Except Error Double
  | [] => .ok sum
  | x :: groups =>
    match Double.ofWhole? weight with
    | none => .error .weight
    | some w => weigh (sum.plus (x.times w)) (weight * 60) groups

/-- A number with a point, or in groups of sixty between colons, or one that has a name. What is
named as not a number is the same in all documents. -/
def float (text : List Char) : Except Error Scalar := do
  let text := Text.lower (withoutGaps text)
  if text.isEmpty then throw .emptyNumber
  let (negative, rest) := Kind.takeSign text
  if rest == ".nan".toList then return .unordered 0
  let x ←
    if rest == ".inf".toList then pure (.infinity false)
    else if rest.contains ':' then do
      let groups ← (rest.splitOn ':').mapM real
      weigh (.finite false 0) 1 groups.reverse
    else real rest
  return .float (if negative then x.opposite else x)

def moment (text : List Char) : Except Error Moment :=
  match writtenMoment? text with
  | none => .error .moment
  | some m =>
    match m.defect? with
    | some defect => .error (.literal defect)
    | none => .ok m

def binary (text : List Char) : Except Error (List UInt8) :=
  match text.all (·.toNat < 0x80), Text.Base64.decode text with
  | true, some bytes => .ok bytes
  | _, _ => .error .construction

/-- The scalar that a text denotes as one of a kind. -/
def scalar (kind : Kind) (text : List Char) : Except Error Scalar :=
  match kind with
  | .null => .ok .null
  | .bool => (bool text).map .bool
  | .int => (int text).map .int
  | .float => float text
  | .moment => (moment text).map (.moment · none)
  | .binary => (binary text).map .octets
  | .text => .ok (.text (String.ofList text))
  | .list | .map | .set | .orderedMap | .pairs | .merge | .default | .unknown => .error .construction

end Gatekeeper.Yaml.Literal
