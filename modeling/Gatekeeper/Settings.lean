import Gatekeeper.Expression.Parser

/-!
# Settings

The three settings of the engine, as they were given: the depth limit, whether refused expressions
are remembered, and the delimiter of attribute tokens. Settings read from data are checked.
-/
namespace Gatekeeper

structure Settings where
  maxDepth : Value := .int DepthLimit.default
  cacheInvalid : Value := .bool true
  delimiter : Value := .text "%"
  deriving Repr

/-- Why data gives no settings. -/
inductive SettingsError where
  | limit (r : DepthLimit.Refusal)
  | mismatch (m : Mismatch)
  | longDelimiter (shown : String)
  /-- A delimiter that is too long, with a member that is too long to be written. -/
  | unwritable
  deriving DecidableEq, Repr

def SettingsError.message : SettingsError → String
  | limit r => r.message
  | mismatch m => m.message
  | unwritable => Number.Whole.unwritableMessage
  | longDelimiter shown => "attribute_delimiter must be a single character, got " ++ shown

namespace Settings

/-- Equality of settings, field by field. -/
def same (a b : Settings) : Bool :=
  a.maxDepth == b.maxDepth && a.cacheInvalid == b.cacheInvalid && a.delimiter == b.delimiter

/-- The settings themselves, if the limit is in range and the delimiter is no longer than one
character. -/
def check (settings : Settings) : Except SettingsError Settings := do
  let _ ← (DepthLimit.ofValue settings.maxDepth).mapError .limit
  let size ← settings.delimiter.size?.mapError .mismatch
  if size ≤ 1 then return settings
  else if settings.delimiter.isWritable then .error (.longDelimiter settings.delimiter.shown)
  else .error .unwritable

/-- The setting under a name, or the one that applies without it. -/
def entryOr (entries : List (Scalar × Value)) (name : String) (default : Value) : Value :=
  (Value.find? entries (.text name)).getD default

/-- Settings from data; what is not given keeps its default. -/
def ofValue (data : Value) : Except SettingsError Settings := do
  let entries ← (data.entries? "get").mapError .mismatch
  let default : Settings := {}
  check {
    maxDepth := entryOr entries "max_depth" default.maxDepth
    cacheInvalid := entryOr entries "cache_invalid_expressions" default.cacheInvalid
    delimiter := entryOr entries "attribute_delimiter" default.delimiter }

/-- The data that gives these settings. -/
def toValue (settings : Settings) : Value :=
  .map [(.text "max_depth", settings.maxDepth),
    (.text "cache_invalid_expressions", settings.cacheInvalid),
    (.text "attribute_delimiter", settings.delimiter)]

/-- The parser that settings call for. -/
def parser? (settings : Settings) : Except DepthLimit.Refusal Parser :=
  Parser.ofValues settings.maxDepth settings.delimiter

end Settings

end Gatekeeper
