import Gatekeeper.Yaml.Error
import Gatekeeper.Yaml.Node.Basic

/-!
# Maps that take in others

A map can have a key under which it takes in the entries of another map, or of several, of which the
first ones count. Entries that are taken in come before a map's own, so that the own ones count. Each
map that is taken in takes in its own others first.
-/
namespace Gatekeeper.Yaml.Graph

/-- The first node under a key that takes in, and the entries without it. -/
def firstMerge? (graph : Graph) : List (Nat × Nat) → Option (Nat × List (Nat × Nat))
  | [] => none
  | (key, source) :: rest =>
    if graph.kindOf key = .merge then some (source, rest)
    else (graph.firstMerge? rest).map fun (other, entries) => (other, (key, source) :: entries)

/-- A key that stands for its map elsewhere is a text as a key. -/
def settleKeys (graph : Graph) (entries : List (Nat × Nat)) : Graph :=
  entries.foldl (fun graph (key, _) =>
    if graph.kindOf key = .default then graph.setKind key .text else graph) graph

/-- A map that has nothing more to take in than what is taken already. -/
def settle (graph : Graph) (number : Nat) (taken : List (Nat × Nat)) : Graph :=
  let entries := graph.entriesOf number
  (graph.settleKeys entries).setContent number (.mapping (taken ++ entries))

/-- Let a map take in others, when some entries are taken already. Every step down uses up one key
that takes in. -/
def takeIn (fuel : Nat) (graph : Graph) (number : Nat) (taken : List (Nat × Nat)) :
    Except Error Graph :=
  match fuel, graph.firstMerge? (graph.entriesOf number) with
  | fuel + 1, some (source, own) => do
    let graph := graph.setContent number (.mapping own)
    match graph.contentOf source with
    | .mapping _ => do
      let graph ← takeIn fuel graph source []
      takeIn fuel graph number (taken ++ graph.entriesOf source)
    | .sequence items => do
      let (graph, parts) ← items.foldlM (fun (graph, parts) item => do
        if !graph.isMapping item then throw .construction
        let graph ← takeIn fuel graph item []
        return (graph, graph.entriesOf item :: parts)) (graph, [])
      takeIn fuel graph number (taken ++ parts.flatten)
    | .scalar _ => .error .construction
  | _, _ => .ok (graph.settle number taken)

/-- The number of keys in a graph that take in. It never grows. -/
def mergeCount (graph : Graph) : Nat :=
  (graph.toList.map fun node =>
    match node.content with
    | .mapping entries => (entries.filter fun (key, _) => graph.kindOf key = .merge).length
    | _ => 0).foldl (· + ·) 0

end Gatekeeper.Yaml.Graph
