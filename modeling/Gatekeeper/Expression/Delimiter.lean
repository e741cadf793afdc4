import Gatekeeper.Value.Mismatch

/-!
# Delimiters

The mark that encloses attribute tokens. A value that does not hold means that there is none; any
other value than a text cannot serve, which shows only when a text is held against it.
-/
namespace Gatekeeper

inductive Delimiter where
  | absent
  | mark (text : List Char)
  | unusable (kind : String)
  deriving DecidableEq, Repr

namespace Delimiter

def ofValue (v : Value) : Delimiter :=
  if v.holds then
    match v with
    | .text s => mark s.toList
    | _ => unusable v.kind
  else absent

/-- Whether a text starts with the delimiter. -/
def opens (delimiter : Delimiter) (text : List Char) : Except Mismatch Bool :=
  match delimiter with
  | absent => .ok false
  | mark d => .ok (d.isPrefixOf text)
  | unusable kind => .error (.notDelimiter kind)

/-- A text cut behind the first occurrence of a mark. -/
def cutAfter? (mark : List Char) : List Char → Option (List Char × List Char)
  | [] => if mark.isEmpty then some ([], []) else none
  | c :: rest =>
    if mark.isPrefixOf (c :: rest) then some (mark, (c :: rest).drop mark.length)
    else (cutAfter? mark rest).map fun (before, after) => (c :: before, after)

/-- A text cut behind its delimited token: at its start if it has no such token. -/
def cut (delimiter : Delimiter) (text : List Char) : Except Mismatch (List Char × List Char) :=
  match delimiter with
  | absent => .ok ([], text)
  | mark d =>
    if d.isPrefixOf text then
      match cutAfter? d (text.drop d.length) with
      | some (inside, rest) => .ok (d ++ inside, rest)
      | none => .ok ([], text)
    else .ok ([], text)
  | unusable kind => .error (.notDelimiter kind)

end Delimiter

end Gatekeeper
