import Gatekeeper.Operator

/-!
# Conditions

A condition asks for a permission or an attribute of a subject, or joins other conditions. Groups
and leaves are built by functions that refuse what no condition may hold: a node or token that is
empty, a node that could not be written in an expression, a group without members. A host application
may build leaves from any values; those of an expression are texts.
-/
namespace Gatekeeper

inductive Condition where
  /-- A value that holds turns the answer around. -/
  | perm (node : String) (negate : Value)
  | attr (token : Value) (operator : Option Operator) (expected : Option Value)
  | group (mode : Mode) (conditions : List Condition)
  | not (condition : Condition)
  deriving Repr, Inhabited

namespace Condition

/-- The characters that end a node in an expression. -/
def endsNode (c : Char) : Bool :=
  Text.isBlank c || c == '[' || c == ']' || c == ';'

def perm? (node : String) (negate : Value) : Except Defect Condition :=
  if node.isEmpty then .error .emptyNode
  else if node.toList.any endsNode then .error (.invalidNode node)
  else .ok (perm node negate)

def attr? (token : Value) (operator : Option Operator) (expected : Option Value) :
    Except Defect Condition :=
  if token.holds then .ok (attr token operator expected) else .error .emptyToken

def group? (mode : Mode) (conditions : List Condition) : Except Defect Condition :=
  if conditions.isEmpty then .error (.emptyGroup mode) else .ok (group mode conditions)

mutual

/-- A condition in words, for one whose values can be written. A comparison that lacks its operator or
its other side only asks whether the attribute is there. -/
def describe : Condition → String
  | perm node negate => (if negate.holds then "NOT " else "") ++ "permission: " ++ node
  | attr token (some op) (some expected) =>
    "attribute: " ++ token.plain ++ " " ++ op.symbol ++ " " ++ expected.plain
  | attr token _ _ => "attribute exists: " ++ token.plain
  | group mode conditions => mode.name ++ " [" ++ "; ".intercalate (describeEach conditions) ++ "]"
  | not c => "not " ++ describe c

def describeEach : List Condition → List String
  | [] => []
  | c :: cs => describe c :: describeEach cs

end

mutual

/-- Nesting height: one for a leaf, one more for each condition around it. -/
def height : Condition → Nat
  | perm .. | attr .. => 1
  | group _ conditions => 1 + heights conditions
  | not c => 1 + height c

/-- The greatest height in a list. -/
def heights : List Condition → Nat
  | [] => 0
  | c :: cs => max (height c) (heights cs)

end

mutual

/-- Equality of conditions. -/
def same : Condition → Condition → Bool
  | perm node negate, perm node' negate' => node == node' && negate == negate'
  | attr token op expected, attr token' op' expected' =>
    token == token' && op == op' && expected == expected'
  | group mode conditions, group mode' conditions' =>
    mode == mode' && sameEach conditions conditions'
  | not c, not c' => same c c'
  | _, _ => false

def sameEach : List Condition → List Condition → Bool
  | [], [] => true
  | c :: cs, c' :: cs' => same c c' && sameEach cs cs'
  | _, _ => false

end

mutual

theorem same_iff (c c' : Condition) : same c c' = true ↔ c = c' := by
  cases c <;> cases c' <;> simp [same, sameEach_iff, same_iff, and_assoc]

theorem sameEach_iff (cs cs' : List Condition) : sameEach cs cs' = true ↔ cs = cs' := by
  cases cs <;> cases cs' <;> simp [sameEach, same_iff, sameEach_iff]

end

instance : DecidableEq Condition := fun c c' =>
  decidable_of_iff (same c c' = true) (same_iff c c')

end Condition

end Gatekeeper
