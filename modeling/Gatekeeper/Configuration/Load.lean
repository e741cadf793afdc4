import Gatekeeper.Configuration.Basic
import Gatekeeper.File.Basic
import Gatekeeper.Json.Reader
import Gatekeeper.Json.Writer
import Gatekeeper.Text.Utf8
import Gatekeeper.Yaml.Printer
import Gatekeeper.Yaml.Reader

/-!
# Configurations in files

A configuration file is JSON or YAML by the ending of its name. YAML may be unavailable.
-/
namespace Gatekeeper

/-- Why a file gives no configuration. -/
inductive LoadError where
  | file (e : FileError)
  | unknownFormat (ending : String)
  | yamlUnavailable
  | encoding (e : Text.Utf8.Error)
  | json (e : Json.Error)
  | yaml (e : Yaml.Error)
  | configuration (e : ConfigurationError)
  deriving DecidableEq, Repr

def LoadError.message : LoadError → String
  | file e => e.message
  | unknownFormat ending =>
    "Unsupported file format: " ++ ending ++ ". Use .json, .yaml, or .yml"
  | yamlUnavailable => "PyYAML is required to load YAML files. Install with: pip install pyyaml"
  | encoding e => e.message
  | json e => e.message
  | yaml e => e.message
  | configuration e => e.message

/-- Why a configuration cannot be written as YAML. -/
inductive YamlObstacle where
  | unavailable
  /-- A whole number that is too long to be written. -/
  | unwritable
  deriving DecidableEq, Repr

def YamlObstacle.message : YamlObstacle → String
  | unavailable => "PyYAML is required to export to YAML. Install with: pip install pyyaml"
  | unwritable => Number.Whole.unwritableMessage

namespace Configuration

/-- The text of a file. -/
def textOf (content : List UInt8) : Except LoadError String :=
  match Text.Utf8.decode content with
  | .ok chars => .ok (String.ofList (Text.ofCharacters (Text.Utf8.withLineFeeds chars)))
  | .error e => .error (.encoding e)

/-- The data in a file with some ending. -/
def dataOf (yamlAvailable : Bool) (ending : String) (content : List UInt8) :
    Except LoadError Value := do
  if ending == ".json" then (Json.read (← textOf content)).mapError .json
  else if ending == ".yaml" || ending == ".yml" then
    if yamlAvailable then (Yaml.read (.ofBytes content)).mapError .yaml else .error .yamlUnavailable
  else .error (.unknownFormat ending)

/-- Load a configuration. Data that does not hold gives the default configuration. -/
def load (yamlAvailable : Bool) (files : Files) (path : String) :
    Except LoadError Configuration := do
  let path := Path.ofString path
  let content ← (files path).mapError .file
  let data ← dataOf yamlAvailable path.ending content
  (ofValue (if data.holds then data else .map [])).mapError .configuration

/-- A configuration as JSON text. -/
def toJson (configuration : Configuration) (indent : Json.Indent) :
    Except Json.Obstacle String :=
  match Json.obstacle? indent configuration.toValue with
  | some obstacle => .error obstacle
  | none => .ok (Json.write indent configuration.toValue)

/-- A configuration as YAML text. -/
def toYaml (yamlAvailable : Bool) (configuration : Configuration) : Except YamlObstacle String :=
  if !yamlAvailable then .error .unavailable
  else if !configuration.toValue.isWritable then .error .unwritable
  else .ok (Yaml.print configuration.toValue)

end Configuration

end Gatekeeper
