import Gatekeeper.Text.Quoted
import Gatekeeper.Text.Utf8

/-!
# What can be wrong with YAML

The errors that reading YAML ends with, by what has gone wrong. Those of the text, of its tokens and
of its nodes are told apart by their kind alone; the others have a message.
-/
namespace Gatekeeper.Yaml

inductive Error where
  /-- Bytes that are no text. -/
  | encoding (e : Text.Utf8.Error)
  /-- A character that may not occur. -/
  | character
  /-- No token can be made of the characters. -/
  | token
  /-- The text ends within a token. -/
  | unfinished
  /-- A token stands where it may not. -/
  | arrangement
  /-- An alias of nothing, an anchor given twice, or a second document. -/
  | reference
  /-- A node without a value of its kind. -/
  | construction
  /-- A collection within too many others. -/
  | tooDeep
  /-- A scalar that has the form of a value but denotes none. -/
  | literal (message : String)
  /-- An escape with a number that no machine word holds. -/
  | escape
  /-- A number without characters. -/
  | emptyNumber
  /-- A text that should be the name of a truth value. -/
  | truthValue (name : String)
  /-- A text that should be a moment. -/
  | moment
  /-- A map that should be a moment. -/
  | momentMap
  /-- A number with more groups of sixty than a double can weigh. -/
  | weight
  deriving DecidableEq, Repr

def Error.message : Error → String
  | encoding e => e.message
  | character | token | unfinished | arrangement | reference | construction => ""
  | tooDeep => "maximum recursion depth exceeded while calling a Python object"
  | literal message => message
  | escape => "Python int too large to convert to C int"
  | emptyNumber => "string index out of range"
  | truthValue name => Text.quoted name
  | moment => "'NoneType' object has no attribute 'groupdict'"
  | momentMap => "expected string or bytes-like object, got 'list'"
  | weight => "int too large to convert to float"

/-- Whether an error says that a value is wrong, and not the text or the machine. -/
def Error.isValueError : Error → Bool
  | encoding _ | literal _ => true
  | _ => false

end Gatekeeper.Yaml
