import Gatekeeper.Text.Blank
import Gatekeeper.Value.Mismatch
import Gatekeeper.Value.Text

/-!
# Assignments

An attribute table from texts of the form `TOKEN=VALUE`. The first equals sign divides a text, blanks
around token and value do not count, and of several values of one token the last one counts.
-/
namespace Gatekeeper.Assignment

inductive Error where
  | malformed (shown : String)
  | mismatch (m : Mismatch)
  deriving DecidableEq, Repr

def Error.message : Error → String
  | malformed shown => "Invalid attribute assignment: " ++ shown ++ ". Expected TOKEN=VALUE"
  | mismatch m => m.message

/-- The token and the value of a text, if it has an equals sign with a token before it. -/
def divide? (text : List Char) : Option (List Char × List Char) :=
  match text.dropWhile (· != '=') with
  | [] => none
  | _ :: value =>
    let token := Text.trim (text.takeWhile (· != '='))
    if token.isEmpty then none else some (token, Text.trim value)

/-- The token and the value that an item assigns. -/
def read : Value → Except Error (Scalar × Value)
  | .text s =>
    match divide? s.toList with
    | some (token, value) => .ok (.text (String.ofList token), .text (String.ofList value))
    | none => .error (.malformed (Text.quoted s))
  | v => .error (.mismatch (.noMember v.kind "partition"))

/-- The table that items assign, one after the other. -/
def table (items : List Value) : Except Error (List (Scalar × Value)) := do
  let pairs ← items.mapM read
  return pairs.foldl (fun known pair => Value.insert known pair.1 pair.2) []

end Gatekeeper.Assignment
