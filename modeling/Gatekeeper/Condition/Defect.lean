import Gatekeeper.Text.Quoted

/-!
# Defects

What no condition may hold: a node or token that is empty, a node that could not be written in an
expression, a group without members, an operator that there is not.
-/
namespace Gatekeeper

/-- How the members of a group count: every one, or at least one. -/
inductive Mode where
  | all
  | any
  deriving DecidableEq, Repr

namespace Mode

def name : Mode → String
  | all => "all"
  | any => "any"

/-- The answer of one member that settles the group. -/
def decisive : Mode → Bool
  | all => false
  | any => true

end Mode

/-- Why no condition can be built. -/
inductive Defect where
  | emptyNode
  | invalidNode (node : String)
  | emptyToken
  | emptyGroup (mode : Mode)
  | unknownOperator (symbol : String)
  deriving DecidableEq, Repr

def Defect.message : Defect → String
  | emptyNode => "Permission node must not be empty"
  | invalidNode node => "Invalid permission node: " ++ Text.quoted node
  | emptyToken => "Attribute token must not be empty"
  | emptyGroup mode => mode.name ++ " requires at least one condition"
  | unknownOperator symbol => Text.quoted symbol ++ " is not a valid ComparisonOperator"

end Gatekeeper
