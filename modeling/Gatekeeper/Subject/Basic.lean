import Gatekeeper.Operator
import Gatekeeper.Value.Placement

/-!
# Subjects

What conditions are asked about: a subject that answers permission checks, and a resolver that finds
the value of an attribute token for a subject. Both belong to the host application and may fail. A
fixed subject holds a set of permissions and a table of attributes.
-/
namespace Gatekeeper

structure Subject where
  holds : String → Except Fault Bool
  /-- The table of attributes, for a subject that has one; null under an unknown token. -/
  attributes? : Option (Value → Except Mismatch Value)

/-- Finds the value of an attribute token for a subject; null stands for the empty text. -/
def Resolver : Type :=
  Subject → Value → Except Fault Value

/-- Resolve a token from the subject's own attributes. A token without a value stands for itself. -/
def Resolver.static : Resolver := fun subject token =>
  match subject.attributes? with
  | none => .ok token
  | some table => do
    match ← (table token).mapError Fault.mismatch with
    | .null => return token
    | v => return .text (← v.plain?)

structure FixedSubject where
  name : Value
  permissions : List Scalar
  attributes : List (Scalar × Value)

namespace FixedSubject

def holds (subject : FixedSubject) (node : Scalar) : Bool :=
  subject.permissions.any (·.same node)

def valueOf (subject : FixedSubject) (token : Scalar) : Value :=
  (Value.find? subject.attributes token).getD .null

def toSubject (subject : FixedSubject) : Subject where
  holds node := .ok (subject.holds (.text node))
  attributes? := some fun token => token.key?.map subject.valueOf

/-- The distinct members of a value, in the order of a set. -/
def permissionsOf (v : Value) : Except Mismatch (List Scalar) := do
  let keys ← (← v.members?).mapM Value.key?
  return Value.arrange (Placement.sizeOver 0) (keys.foldl Value.addKey [])

end FixedSubject

/-- Why no table can be read from a value. -/
inductive TableError where
  | mismatch (m : Mismatch)
  /-- An element with more or fewer members than a key and its value. -/
  | pairLength (index length : Nat)
  deriving DecidableEq, Repr

def TableError.message : TableError → String
  | mismatch m => m.message
  | pairLength index length =>
    s!"dictionary update sequence element #{index} has length {length}; 2 is required"

namespace FixedSubject

/-- A key and its value from an element of a list of pairs. -/
def pairOf (index : Nat) (element : Value) : Except TableError (Scalar × Value) :=
  match element.members? with
  | .error _ => .error (.mismatch (.notPair index))
  | .ok [key, v] => (key.key?.map (·, v)).mapError .mismatch
  | .ok members => .error (.pairLength index members.length)

/-- The pairs of a list whose first element has the place `index`. -/
def pairsFrom (index : Nat) : List Value → Except TableError (List (Scalar × Value))
  | [] => .ok []
  | element :: rest => do return (← pairOf index element) :: (← pairsFrom (index + 1) rest)

/-- A table from a map or from a list of pairs, the last one of each key. -/
def attributesOf (v : Value) : Except TableError (List (Scalar × Value)) :=
  match v.opened with
  | .map entries => .ok entries
  | _ => do
    let elements ← v.members?.mapError .mismatch
    return (← pairsFrom 0 elements).foldl (fun known pair => Value.insert known pair.1 pair.2) []

/-- A fixed subject from three values; permissions and attributes that do not hold are empty. -/
def ofValues (name permissions attributes : Value) : Except TableError FixedSubject := do
  let permissions ←
    if permissions.holds then (permissionsOf permissions).mapError .mismatch else pure []
  let attributes ← if attributes.holds then attributesOf attributes else pure []
  return { name, permissions, attributes }

/-- Whether a scalar has a place among numbers, or is not a number. -/
def isNumeric (s : Scalar) : Bool :=
  match s with
  | .float _ | .unordered _ => true
  | _ => s.rank?.isSome

/-- Order of permissions for display: by number or by text, and none between the two. What is not a
number comes before nothing. -/
def precedes (a b : Scalar) : Except Mismatch Bool :=
  match a, b with
  | .text s, .text t => .ok (Operator.textOrder s.toList t.toList == .lt)
  | _, _ =>
    if isNumeric a && isNumeric b then
      match a.rank?, b.rank? with
      | some (m, m'), some (n, n') => .ok (decide (m < n ∨ m = n ∧ m' < n'))
      | _, _ => .ok false
    else .error (.incomparable "<" a.kind b.kind)

/-- Put a permission behind all that do not come after it. -/
def place (key : Scalar) : List Scalar → Except Mismatch (List Scalar)
  | [] => .ok [key]
  | other :: rest => do
    if ← precedes key other then return key :: other :: rest
    else return other :: (← place key rest)

/-- The permissions in order. -/
def sorted (keys : List Scalar) : Except Mismatch (List Scalar) :=
  keys.foldlM (fun known key => place key known) []

/-- The text of a fixed subject. -/
def shown (subject : FixedSubject) : Except Mismatch String := do
  let permissions ← sorted subject.permissions
  return "StaticSubject(name=" ++ subject.name.shown ++ ", permissions=" ++
    (Value.list (permissions.map .scalar)).shown ++ ", attributes=" ++
    (Value.map subject.attributes).shown ++ ")"

end FixedSubject

end Gatekeeper
