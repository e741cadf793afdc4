import Gatekeeper.Text.Utf8

/-!
# Names as bytes

Files are named by bytes. A name is UTF-8; the second half of a surrogate pair can stand for a single
byte that is no UTF-8, and any other half stands for nothing.
-/
namespace Gatekeeper.Name

/-- The byte that a half stands for. -/
def byte? (half : Nat) : Option UInt8 :=
  if 0xDC80 ≤ half ∧ half < 0xDD00 then some (half % 0x100).toUInt8 else none

/-- The bytes of a name. -/
def bytes (name : String) : Except Text.Utf8.Unencodable (List UInt8) :=
  Text.Utf8.encodeFrom byte? 0 (Text.codes name.toList)

end Gatekeeper.Name
