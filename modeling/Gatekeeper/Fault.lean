import Gatekeeper.Condition.Defect
import Gatekeeper.Value.Mismatch
import Gatekeeper.Value.Text

/-!
# Faults

Why an operation comes to no result. A fault goes through all that surrounds the operation, up to where
somebody answers for it. Most faults have a message; the host application may also raise one that has
none, and then asking for the message is an operation that comes to no result itself.
-/
namespace Gatekeeper

inductive Fault where
  /-- A failure of the host application, by its kind and message. -/
  | host (kind message : String)
  /-- A failure of the host application without a message. Asking for one ends in another fault. -/
  | mute (kind : String) (asking : Fault)
  /-- A numeral that no number corresponds to. -/
  | unreadable (numeral : String)
  /-- The text of a value with a number that is too long to be written. -/
  | unwritable
  /-- An operation on a value that has no meaning for it. -/
  | mismatch (m : Mismatch)
  /-- A condition that cannot be built. -/
  | defect (d : Defect)
  deriving DecidableEq, Repr

namespace Fault

/-- What a fault says, if it says something. -/
def message? : Fault → Except Fault String
  | host _ message => .ok message
  | mute _ asking => .error asking
  | unreadable numeral => .ok ("could not convert string to float: " ++ Text.quoted numeral)
  | unwritable => .ok Number.Whole.unwritableMessage
  | mismatch m => .ok m.message
  | defect d => .ok d.message

end Fault

namespace Value

/-- The plain text of a value, if it can be written. -/
def plain? (v : Value) : Except Fault String :=
  if v.isWritable then .ok v.plain else .error .unwritable

/-- A value as messages show it, if it can be written. -/
def shown? (v : Value) : Except Fault String :=
  if v.isWritable then .ok v.shown else .error .unwritable

end Value

end Gatekeeper
