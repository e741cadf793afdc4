import Gatekeeper.Yaml.Scalar.Kind

/-!
# Nodes

What a YAML text describes is a graph: nodes by their numbers, which name their parts by number. An
alias makes a node part of several others, or of itself.
-/
namespace Gatekeeper.Yaml

inductive Content where
  | scalar (text : List Char)
  | sequence (items : List Nat)
  | mapping (entries : List (Nat × Nat))
  deriving DecidableEq, Repr, Inhabited

structure Node where
  kind : Kind
  content : Content
  deriving DecidableEq, Repr, Inhabited

abbrev Graph := Array Node

namespace Graph

def kindOf (graph : Graph) (number : Nat) : Kind :=
  (graph[number]?.map Node.kind).getD .unknown

def contentOf (graph : Graph) (number : Nat) : Content :=
  (graph[number]?.map Node.content).getD (.scalar [])

/-- The entries of a mapping; other nodes have none. -/
def entriesOf (graph : Graph) (number : Nat) : List (Nat × Nat) :=
  match graph.contentOf number with
  | .mapping entries => entries
  | _ => []

def isMapping (graph : Graph) (number : Nat) : Bool :=
  match graph.contentOf number with
  | .mapping _ => true
  | _ => false

def setContent (graph : Graph) (number : Nat) (content : Content) : Graph :=
  graph.modify number fun node => { node with content }

def setKind (graph : Graph) (number : Nat) (kind : Kind) : Graph :=
  graph.modify number fun node => { node with kind }

end Graph

end Gatekeeper.Yaml
