import Gatekeeper.Manager.Basic

/-!
# Gates

A gate is a named list of expressions that count together. Its data is a list of expressions, or a
map that also gives the mode and a description.
-/
namespace Gatekeeper

structure Gate where
  name : Value
  mode : Mode
  conditions : List String
  /-- Null for a gate without a description. -/
  description : Value
  deriving Repr

/-- Why data gives no gate. -/
inductive GateError where
  | mismatch (m : Mismatch)
  | unnamed
  | unknownMode (written : String)
  /-- A condition or a mode that is too long to be written. -/
  | unwritable
  deriving DecidableEq, Repr

def GateError.message : GateError → String
  | mismatch m => m.message
  | unwritable => Number.Whole.unwritableMessage
  | unnamed => "Gate name must not be empty"
  | unknownMode written =>
    "Invalid gate mode: " ++ written ++ ". Must be one of \x7b'all', 'any'\x7d"

namespace Gate

def same (a b : Gate) : Bool :=
  a.name == b.name && a.mode == b.mode && a.conditions == b.conditions &&
    a.description == b.description

/-- The refusal of a value that names no mode. -/
def unknownMode (v : Value) : GateError :=
  if v.isWritable then .unknownMode v.plain else .unwritable

/-- The mode that a value names. A set can be looked up among the modes but is none of them. -/
def modeOf (v : Value) : Except GateError Mode :=
  match v.opened with
  | .set _ => .error (unknownMode v)
  | _ => do
    let key ← v.key?.mapError .mismatch
    match [Mode.all, Mode.any].find? fun mode => key == .text mode.name with
    | some mode => return mode
    | none => .error (unknownMode v)

/-- A gate with conditions that can be written, a name that holds, and a mode that there is. -/
def build (name : Value) (conditions : List Value) (mode description : Value) :
    Except GateError Gate :=
  if !conditions.all Value.isWritable then .error .unwritable
  else if name.holds then do
    return ⟨name, ← modeOf mode, conditions.map Value.plain, description⟩
  else .error .unnamed

/-- The value under a key of a gate's data. -/
def field (entries : List (Scalar × Value)) (key : String) (default : Value) : Value :=
  (Value.find? entries (.text key)).getD default

/-- A gate from its data. -/
def ofValue (name data : Value) : Except GateError Gate :=
  match data.opened with
  | .list items => build name items (.text Mode.all.name) .null
  | _ => do
    let entries ← (data.entries? "get").mapError .mismatch
    let conditions ← (field entries "conditions" (.list [])).members?.mapError .mismatch
    build name conditions (field entries "mode" (.text Mode.all.name))
      (field entries "description" .null)

/-- The data that gives this gate. -/
def toValue (gate : Gate) : Value :=
  .map ([(.text "mode", .text gate.mode.name),
    (.text "conditions", .list (gate.conditions.map .text))] ++
    if gate.description == .null then [] else [(.text "description", gate.description)])

/-- Decide a gate for a subject. -/
def evaluate (gate : Gate) (m : Manager) (subject : Subject) : Except Fault Bool × Manager :=
  m.evaluateEach subject gate.mode (gate.conditions.map .text)

end Gate

end Gatekeeper
