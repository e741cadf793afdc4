import Gatekeeper.Value.Placement
import Gatekeeper.Yaml.Node.Merge
import Gatekeeper.Yaml.Scalar.Literal

/-!
# What nodes mean

The meaning of a node is a scalar, or a container with its parts by their numbers. Nodes are visited
from the root on, first all parts of one container, then those of the next one. A scalar is converted
when it is visited; the parts of a container are visited when its turn comes. So of several nodes
without a meaning the first one in this order counts, and a container may be part of itself.
-/
namespace Gatekeeper.Yaml

inductive Meaning where
  | scalar (s : Scalar)
  | list (items : List Nat)
  | map (entries : List (Nat × Nat))
  | set (members : List Nat)
  | pairs (pairs : List (Nat × Nat))
  deriving Repr, Inhabited

/-- The state of a visit to the nodes of a graph. -/
structure Survey where
  graph : Graph
  /-- What the nodes visited so far mean; containers whose turn has not come are empty. -/
  meanings : Array (Option Meaning)
  /-- Whether a node has been visited more than once. -/
  repeated : Array Bool
  /-- Containers whose turn comes in the next round, the last one first. -/
  waiting : List Nat := []

namespace Survey

/-- The survey of a graph before its first visit. -/
def start (graph : Graph) : Survey where
  graph
  meanings := Array.replicate graph.size none
  repeated := Array.replicate graph.size false

def meaning? (survey : Survey) (number : Nat) : Option Meaning :=
  survey.meanings[number]?.join

/-- Note what a node means. -/
def know (survey : Survey) (number : Nat) (meaning : Meaning) : Survey :=
  { survey with meanings := survey.meanings.setIfInBounds number (some meaning) }

/-- Note a container whose turn comes later. -/
def enqueue (survey : Survey) (number : Nat) (empty : Meaning) : Survey :=
  { survey.know number empty with waiting := number :: survey.waiting }

/-- The text of a node where a scalar is needed: its own, or for a mapping that of its default. -/
def scalarText (graph : Graph) (fuel number : Nat) : Except Error (List Char) :=
  match fuel with
  | 0 => .error .tooDeep
  | fuel + 1 =>
    match graph.contentOf number with
    | .scalar text => .ok text
    | .sequence _ => .error .construction
    | .mapping entries =>
      match entries.find? fun (key, _) => graph.kindOf key = .default with
      | some (_, value) => scalarText graph fuel value
      | none => .error .construction

/-- The scalar that a node denotes as one of a kind. -/
def scalarOf (graph : Graph) (kind : Kind) (number : Nat) : Except Error Scalar := do
  match kind with
  | .merge | .default | .unknown => throw .construction
  | _ =>
    let text ← scalarText graph (graph.size + 1) number
    if kind = .moment && graph.isMapping number then throw .momentMap
    Literal.scalar kind text

/-- Visit a node. -/
def visit (survey : Survey) (number : Nat) : Except Error Survey :=
  match survey.meaning? number with
  | some _ => .ok { survey with repeated := survey.repeated.setIfInBounds number true }
  | none =>
    match survey.graph.kindOf number with
    | .list => .ok (survey.enqueue number (.list []))
    | .map => .ok (survey.enqueue number (.map []))
    | .set => .ok (survey.enqueue number (.set []))
    | .orderedMap | .pairs => .ok (survey.enqueue number (.pairs []))
    | kind => (scalarOf survey.graph kind number).map fun s => survey.know number (.scalar s)

/-- Visit the key of an entry, which must be a scalar, and its value. -/
def visitEntry (survey : Survey) (entry : Nat × Nat) : Except Error Survey := do
  let survey ← survey.visit entry.1
  match survey.meaning? entry.1 with
  | some (.scalar _) => survey.visit entry.2
  | _ => .error .construction

/-- Visit the entries of a mapping that has taken in others. -/
def visitMapping (merges : Nat) (survey : Survey) (number : Nat) :
    Except Error (Survey × List (Nat × Nat)) :=
  if survey.graph.isMapping number then do
    let survey := { survey with graph := ← survey.graph.takeIn merges number [] }
    let entries := survey.graph.entriesOf number
    return (← entries.foldlM visitEntry survey, entries)
  else .error .construction

/-- Visit the two parts of a mapping with one entry. -/
def visitPair (survey : Survey) (number : Nat) : Except Error (Survey × (Nat × Nat)) :=
  match survey.graph.contentOf number with
  | .mapping [(key, value)] => do return (← (← survey.visit key).visit value, (key, value))
  | _ => .error .construction

/-- Visit pairs one after the other. -/
def visitPairs (survey : Survey) : List Nat → Except Error (Survey × List (Nat × Nat))
  | [] => .ok (survey, [])
  | number :: rest => do
    let (survey, pair) ← survey.visitPair number
    let (survey, pairs) ← survey.visitPairs rest
    return (survey, pair :: pairs)

/-- Visit the parts of a container whose turn has come. -/
def visitParts (merges : Nat) (survey : Survey) (number : Nat) : Except Error Survey := do
  match survey.graph.kindOf number, survey.graph.contentOf number with
  | .map, _ =>
    let (survey, entries) ← survey.visitMapping merges number
    return survey.know number (.map entries)
  | .set, _ =>
    let (survey, entries) ← survey.visitMapping merges number
    return survey.know number (.set (entries.map (·.1)))
  | .list, .sequence items =>
    let survey ← items.foldlM visit survey
    return survey.know number (.list items)
  | .orderedMap, .sequence items | .pairs, .sequence items =>
    let (survey, pairs) ← survey.visitPairs items
    return survey.know number (.pairs pairs)
  | _, _ => throw .construction

/-- Visit containers in rounds until none waits. Every container waits once. -/
def finish (merges : Nat) : Nat → Survey → Except Error Survey
  | 0, survey => .ok survey
  | fuel + 1, survey =>
    if survey.waiting.isEmpty then .ok survey
    else do
      let round := survey.waiting.reverse
      finish merges fuel (← round.foldlM (visitParts merges) { survey with waiting := [] })

/-- The survey of all nodes that a root leads to. -/
def ofGraph (graph : Graph) (root : Nat) : Except Error Survey := do
  finish graph.mergeCount (graph.size + 1) (← (start graph).visit root)

/-- The scalar of a node, with its number if it is a moment that stands in several places. What is
computed as not a number is the node's own. -/
def scalarAt (survey : Survey) (number : Nat) : Scalar :=
  match survey.meaning? number with
  | some (.scalar (.moment m _)) =>
    .moment m (if survey.repeated[number]?.getD false then some number else none)
  | some (.scalar (.float .nan)) => .unordered (number + 1)
  | some (.scalar s) => s
  | _ => .null

/-- The values that are known, by the numbers of their nodes. -/
abbrev Values := Array (Option Value)

/-- A container under its number; scalars are known by themselves. -/
def share (number : Nat) (v : Value) : Value :=
  match v with
  | .scalar s => .scalar s
  | _ => .shared number v

mutual

/-- The value of a node within others, with the numbers of those among them to which it goes back. A
value that goes back to none is the same in all its places. -/
def valueAt (survey : Survey) (fuel : Nat) (around : List Nat) (number : Nat) :
    StateM Values (Value × List Nat) :=
  match fuel with
  | 0 => return (.again number, [number])
  | fuel + 1 => do
    if around.contains number then return (.again number, [number])
    if let some v := (← get)[number]?.join then return (v, [])
    let (v, back) ← valueOf survey fuel (number :: around) number
    let v := if survey.repeated[number]?.getD false then share number v else v
    let back := back.eraseDups.filter (· != number)
    if back.isEmpty then modify (·.setIfInBounds number (some v))
    return (v, back)

/-- The value of a node from those of its parts. -/
def valueOf (survey : Survey) (fuel : Nat) (around : List Nat) (number : Nat) :
    StateM Values (Value × List Nat) :=
  match fuel with
  | 0 => return (.again number, [number])
  | fuel + 1 => do
    match survey.meaning? number with
    | some (.list items) =>
      let parts ← items.mapM (valueAt survey fuel around)
      return (.list (parts.map (·.1)), parts.flatMap (·.2))
    | some (.map entries) =>
      let parts ← entries.mapM fun (_, value) => valueAt survey fuel around value
      let keys := entries.map fun (key, _) => survey.scalarAt key
      return (.ofEntries (keys.zip (parts.map (·.1))), parts.flatMap (·.2))
    | some (.pairs pairs) =>
      let parts ← pairs.mapM fun (first, second) => do
        let (v, back) ← valueAt survey fuel around first
        let (w, back') ← valueAt survey fuel around second
        return (Value.pair v w, back ++ back')
      return (.list (parts.map (·.1)), parts.flatMap (·.2))
    | some (.set members) => return (.ofKeys (members.map survey.scalarAt), [])
    | _ => return (.scalar (survey.scalarAt number), [])

end

/-- The value of the root of a graph. -/
def value (survey : Survey) (root : Nat) : Value :=
  let values : Values := Array.replicate survey.graph.size none
  ((survey.valueAt (2 * survey.graph.size + 2) [] root).run values).1.1

end Survey

/-- The value of the root of a graph, if all nodes have a meaning. -/
def Graph.value (graph : Graph) (root : Nat) : Except Error Value := do
  return (← Survey.ofGraph graph root).value root

end Gatekeeper.Yaml
