import Gatekeeper.Yaml.Node.Meaning
import Gatekeeper.Yaml.Node.Reader
import Gatekeeper.Yaml.Source

/-!
# Reading YAML

A source has at most one document. Its value is that of the node at its root, and nothing if there is
no document.
-/
namespace Gatekeeper.Yaml

/-- The value of the only document of a source. -/
def read (source : Source) : Except Error Value := do
  match ← Graph.ofText source.text source.stop? with
  | (graph, some root) => graph.value root
  | (_, none) => return .null

end Gatekeeper.Yaml
