import Gatekeeper.Number.Shortest
import Gatekeeper.Number.Whole
import Gatekeeper.Text.Quoted
import Gatekeeper.Value.Basic

/-!
# Values as text

A value has two texts: the plain one, where a text stands for itself, and the one messages show,
where texts are quoted. Members of containers are always shown. A container that contains itself is
shown there by dots between its brackets. Only values without overlong whole numbers have texts that
are used.
-/
namespace Gatekeeper

def Scalar.plain : Scalar → String
  | null => "None"
  | bool b => if b then "True" else "False"
  | int n => toString n
  | float x => x.text
  | unordered _ => Number.Double.nan.text
  | text s => s
  | moment m _ => m.plain
  | octets bytes => Text.quotedBytes bytes

/-- A scalar as messages show it. -/
def Scalar.shown : Scalar → String
  | text s => Text.quoted s
  | moment m _ => m.shown
  | s => s.plain

/-- Whether a scalar can be written as text. -/
def Scalar.isWritable : Scalar → Bool
  | int n => Number.Whole.isWritable n
  | _ => true

namespace Value

/-- What is shown of a container within itself. -/
def dots : Value → String
  | map _ => "\x7b...\x7d"
  | _ => "[...]"

mutual

/-- A value as messages show it, within shared containers of which each one has its number and its
dots. -/
def shownWithin (around : List (Nat × String)) : Value → String
  | scalar s => s.shown
  | list items => "[" ++ ", ".intercalate (shownItems around items) ++ "]"
  | map entries => "\x7b" ++ ", ".intercalate (shownEntries around entries) ++ "\x7d"
  | pair first second => "(" ++ shownWithin around first ++ ", " ++ shownWithin around second ++ ")"
  | set [] => "set()"
  | set members => "\x7b" ++ ", ".intercalate (members.map Scalar.shown) ++ "\x7d"
  | shared number v =>
    match around.lookup number with
    | some dots => dots
    | none => shownWithin ((number, v.dots) :: around) v
  | again number => (around.lookup number).getD "..."

def shownItems (around : List (Nat × String)) : List Value → List String
  | [] => []
  | v :: items => shownWithin around v :: shownItems around items

def shownEntries (around : List (Nat × String)) : List (Scalar × Value) → List String
  | [] => []
  | (k, v) :: entries => (k.shown ++ ": " ++ shownWithin around v) :: shownEntries around entries

end

/-- A value as messages show it. -/
def shown (v : Value) : String :=
  v.shownWithin []

/-- The plain text of a value. -/
def plain : Value → String
  | scalar s => s.plain
  | v => v.shown

mutual

/-- Whether a value can be written as text. -/
def isWritable : Value → Bool
  | scalar s => s.isWritable
  | list items => areWritable items
  | map entries => entriesAreWritable entries
  | pair first second => isWritable first && isWritable second
  | set members => members.all Scalar.isWritable
  | shared _ v => isWritable v
  | again _ => true

def areWritable : List Value → Bool
  | [] => true
  | v :: items => isWritable v && areWritable items

def entriesAreWritable : List (Scalar × Value) → Bool
  | [] => true
  | (k, v) :: entries => k.isWritable && isWritable v && entriesAreWritable entries

end

end Value

end Gatekeeper
