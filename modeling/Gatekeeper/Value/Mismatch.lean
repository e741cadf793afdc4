import Gatekeeper.Text.CodePoint
import Gatekeeper.Value.Basic

/-!
# Mismatches

Data comes from outside without types, so an operation can meet a value of a shape it has no meaning
for. A mismatch says which operation met which shape.
-/
namespace Gatekeeper

inductive Mismatch where
  /-- A whole number compared with a value that has no order with it. -/
  | incomparable (symbol left right : String)
  /-- The length of a value that has none. -/
  | unsized (kind : String)
  /-- A container used as a key. -/
  | unhashable (kind : String)
  /-- The members of a value that has none. -/
  | notIterable (kind : String)
  /-- A named operation that the value does not offer. -/
  | noMember (kind member : String)
  /-- An attribute delimiter that is no text. -/
  | notDelimiter (kind : String)
  /-- An element that should be a key with its value. -/
  | notPair (index : Nat)
  /-- A value that is no number of repetitions. -/
  | notRepeatable (kind : String)
  /-- A place in front of a text. -/
  | outOfRange
  /-- A number of repetitions that no machine word holds. -/
  | unindexable
  deriving DecidableEq, Repr

namespace Mismatch

def message : Mismatch → String
  | incomparable symbol left right =>
    s!"'{symbol}' not supported between instances of '{left}' and '{right}'"
  | unsized kind => s!"object of type '{kind}' has no len()"
  | unhashable kind => s!"unhashable type: '{kind}'"
  | notIterable kind => s!"'{kind}' object is not iterable"
  | noMember kind member => s!"'{kind}' object has no attribute '{member}'"
  | notDelimiter kind => s!"startswith first arg must be str or a tuple of str, not {kind}"
  | notRepeatable kind => s!"can't multiply sequence by non-int of type '{kind}'"
  | outOfRange => "string index out of range"
  | unindexable => "cannot fit 'int' into an index-sized integer"
  | notPair index => s!"cannot convert dictionary update sequence element #{index} to a sequence"

end Mismatch

namespace Value

/-- The members of a value in order: the code points of a text, the items of a list, the keys of a
map, the numbers of bytes. -/
def members? (v : Value) : Except Mismatch (List Value) :=
  match v.opened with
  | text s => .ok ((Text.codes s.toList).map fun n => text (String.ofList (Text.ofCode n)))
  | scalar (.octets bytes) => .ok (bytes.map fun b => int b.toNat)
  | list items => .ok items
  | map entries => .ok (entries.map fun entry => scalar entry.1)
  | set members => .ok (members.map scalar)
  | pair first second => .ok [first, second]
  | _ => .error (.notIterable v.kind)

/-- The entries of a map; any other value lacks the operation that asks for them. -/
def entries? (member : String) (v : Value) : Except Mismatch (List (Scalar × Value)) :=
  match v.opened with
  | map entries => .ok entries
  | _ => .error (.noMember v.kind member)

/-- The number of code points, bytes, or members of a value. -/
def size? (v : Value) : Except Mismatch Nat :=
  match v with
  | text s => .ok (Text.length s.toList)
  | scalar (.octets bytes) => .ok bytes.length
  | scalar s => .error (.unsized s.kind)
  | _ => v.members?.map List.length

/-- The scalar that a value is when it serves as a key. -/
def key? : Value → Except Mismatch Scalar
  | scalar s => .ok s
  | v => .error (.unhashable v.kind)

end Value

end Gatekeeper
