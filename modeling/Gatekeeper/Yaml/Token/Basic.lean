/-!
# Tokens

The marks and scalars that a YAML text is made of. Besides the marks that are written, tokens open
and close the collections that only indentation shows.
-/
namespace Gatekeeper.Yaml

/-- A line in front of a document. -/
inductive Directive where
  | version (major : Nat)
  | handle (name start : String)
  | other
  deriving DecidableEq, Repr

inductive Token where
  | directive (d : Directive)
  | documentStart
  | documentEnd
  | streamEnd
  | blockSequenceStart
  | blockMappingStart
  | blockEnd
  | flowSequenceStart
  | flowSequenceEnd
  | flowMappingStart
  | flowMappingEnd
  | flowEntry
  | blockEntry
  | key
  | value
  | alias (name : String)
  | anchor (name : String)
  | tag (handle : Option String) (suffix : String)
  | scalar (text : List Char) (plain : Bool)
  deriving DecidableEq, Repr

end Gatekeeper.Yaml
