import Gatekeeper.Configuration.Gate

/-!
# Configurations

Settings together with gates, in the order in which the gates were given.
-/
namespace Gatekeeper

structure Configuration where
  settings : Settings
  gates : List (Scalar × Gate)
  deriving Repr

/-- Why data gives no configuration. -/
inductive ConfigurationError where
  | mismatch (m : Mismatch)
  | settings (e : SettingsError)
  | gate (e : GateError)
  deriving DecidableEq, Repr

def ConfigurationError.message : ConfigurationError → String
  | mismatch m => m.message
  | settings e => e.message
  | gate e => e.message

namespace Configuration

/-- Equality of configurations. The order of the gates does not count. -/
def same (a b : Configuration) : Bool :=
  a.settings.same b.settings && a.gates.length == b.gates.length &&
    a.gates.all fun (name, gate) =>
      match b.gates.find? (·.1 == name) with
      | some (_, other) => gate.same other
      | none => false

/-- The gate of a name. -/
def gate? (configuration : Configuration) (name : Scalar) : Option Gate :=
  (configuration.gates.find? (·.1.same name)).map (·.2)

/-- The value under a key, or the empty map if there is none that holds. -/
def section? (entries : List (Scalar × Value)) (key : String) : Value :=
  match Value.find? entries (.text key) with
  | some v => if v.holds then v else .map []
  | none => .map []

/-- A configuration from its data. -/
def ofValue (data : Value) : Except ConfigurationError Configuration := do
  let entries ← (data.entries? "get").mapError .mismatch
  let settings ← (Settings.ofValue (section? entries "engine")).mapError .settings
  let gates ← ((section? entries "gates").entries? "items").mapError .mismatch
  let gates ← gates.mapM fun (name, gate) => do
    return (name, ← (Gate.ofValue (.scalar name) gate).mapError ConfigurationError.gate)
  return ⟨settings, gates⟩

/-- The data that gives this configuration. -/
def toValue (configuration : Configuration) : Value :=
  .map [(.text "engine", configuration.settings.toValue),
    (.text "gates", .map (configuration.gates.map fun (name, gate) => (name, gate.toValue)))]

/-- The expressions of a list that are not valid. -/
def invalidIn (m : Manager) : List String → Except Fault (List String) × Manager
  | [] => (.ok [], m)
  | e :: es =>
    match m.isValid (.text e) with
    | (.error fault, m) => (.error fault, m)
    | (.ok valid, m) =>
      let (rest, m) := invalidIn m es
      (rest.map fun rest => if valid then rest else e :: rest, m)

/-- The gates that have expressions that are not valid, with these expressions. -/
def invalidGates (m : Manager) :
    List (Scalar × Gate) → Except Fault (List (Scalar × List String)) × Manager
  | [] => (.ok [], m)
  | (name, gate) :: gates =>
    match invalidIn m gate.conditions with
    | (.error fault, m) => (.error fault, m)
    | (.ok bad, m) =>
      let (rest, m) := invalidGates m gates
      (rest.map fun rest => if bad.isEmpty then rest else (name, bad) :: rest, m)

/-- What is not valid in a configuration, gate by gate. -/
def invalidExpressions (configuration : Configuration) (m : Manager) :
    Except Fault (List (Scalar × List String)) × Manager :=
  invalidGates m configuration.gates

end Configuration

end Gatekeeper
