import Gatekeeper.Condition.Basic
import Gatekeeper.Expression.Delimiter

/-!
# Leaves

The texts of a permission and of an attribute. A permission is a node, with an exclamation mark in
front when it must not be held. An attribute is a token, alone or compared with a value by the
leftmost operator that does not lie inside a delimited token.
-/
namespace Gatekeeper

/-- Why a text is no leaf. -/
inductive LeafError where
  | defect (d : Defect)
  | mismatch (m : Mismatch)
  deriving DecidableEq, Repr

def LeafError.message : LeafError → String
  | defect d => d.message
  | mismatch m => m.message

namespace Condition

/-- The permission that a text asks for. -/
def readPermission (text : List Char) : Except Defect Condition :=
  match Text.trim text with
  | '!' :: node => perm? (String.ofList (Text.trim node)) (.bool true)
  | node => perm? (String.ofList node) (.bool false)

/-- The attribute that a text asks for. -/
def readAttribute (delimiter : Delimiter) (expression : List Char) : Except LeafError Condition := do
  let text := Text.normalize expression
  let (token, rest) ← (delimiter.cut text).mapError .mismatch
  match Operator.cut? rest with
  | none => (attr? (.text (String.ofList text)) none none).mapError .defect
  | some (before, op, after) =>
    let token := Value.text (String.ofList (Text.trim (token ++ before)))
    let expected := Value.text (String.ofList (Text.trim after))
    (attr? token (some op) (some expected)).mapError .defect

end Condition

end Gatekeeper
