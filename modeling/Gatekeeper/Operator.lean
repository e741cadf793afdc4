import Gatekeeper.Fault
import Gatekeeper.Number.Numeral

/-!
# Comparison operators

The six symbols, where they stand in a text, and the comparison each makes: by number when both
sides are numerals, and by the text itself when one of them is not.
-/
namespace Gatekeeper

inductive Operator where
  | gt
  | ge
  | lt
  | le
  | eq
  | ne
  deriving DecidableEq, Repr

namespace Operator

def all : List Operator := [gt, ge, lt, le, eq, ne]

def symbol : Operator → String
  | gt => ">"
  | ge => ">="
  | lt => "<"
  | le => "<="
  | eq => "=="
  | ne => "!="

def ofSymbol? (symbol : String) : Option Operator :=
  all.find? (·.symbol == symbol)

/-- All symbols in the order in which they are tried at a place: a longer one before its start. -/
def symbols : List String :=
  (all.filter (·.symbol.length == 2) ++ all.filter (·.symbol.length == 1)).map symbol

/-- The longest symbol that starts a text, with what follows it. -/
def atStart? : List Char → Option (Operator × List Char)
  | '>' :: '=' :: rest => some (ge, rest)
  | '<' :: '=' :: rest => some (le, rest)
  | '=' :: '=' :: rest => some (eq, rest)
  | '!' :: '=' :: rest => some (ne, rest)
  | '>' :: rest => some (gt, rest)
  | '<' :: rest => some (lt, rest)
  | _ => none

/-- A text cut at its leftmost symbol. -/
def cut? : List Char → Option (List Char × Operator × List Char)
  | [] => none
  | c :: rest =>
    match atStart? (c :: rest) with
    | some (op, after) => some ([], op, after)
    | none => (cut? rest).map fun (before, op, after) => (c :: before, op, after)

/-- The symbols of a text from left to right, none inside another, with their places. The text
starts at `place`, and its first `skip` characters belong to a symbol already found. -/
def occurrencesFrom (place skip : Nat) : List Char → List (Nat × Operator)
  | [] => []
  | c :: rest =>
    match skip, atStart? (c :: rest) with
    | skip + 1, _ => occurrencesFrom (place + 1) skip rest
    | 0, some (op, _) => (place, op) :: occurrencesFrom (place + 1) (op.symbol.length - 1) rest
    | 0, none => occurrencesFrom (place + 1) 0 rest

/-- The symbols of a text with their places. -/
def occurrences (text : List Char) : List (Nat × Operator) :=
  occurrencesFrom 0 0 text

/-- Whether the comparison holds of two sides in some order, or of two without one. -/
def decides : Operator → Option Ordering → Bool
  | ne, none => true
  | _, none => false
  | gt, some order => order == .gt
  | ge, some order => order != .lt
  | lt, some order => order == .lt
  | le, some order => order != .gt
  | eq, some order => order == .eq
  | ne, some order => order != .eq

/-- The order of two lists of numbers by the first place where they differ. -/
def codeOrder : List Nat → List Nat → Ordering
  | [], [] => .eq
  | [], _ :: _ => .lt
  | _ :: _, [] => .gt
  | n :: ns, n' :: ns' => if n < n' then .lt else if n' < n then .gt else codeOrder ns ns'

/-- The order of two texts by their code points. -/
def textOrder (text text' : List Char) : Ordering :=
  codeOrder (Text.codes text) (Text.codes text')

/-- The order of two doubles; what is not a number has none. -/
def numberOrder (a b : Number.Double) : Option Ordering := do
  return compare (← a.position?) (← b.position?)

/-- The number a value stands for, if its plain text is a numeral. -/
def number? : Value → Except Fault (Option Number.Double)
  | .null => .ok none
  | v => do (Number.number? (← v.plain?)).mapError .unreadable

/-- Compare two values. It fails of a value that cannot be written and of a numeral that cannot be
converted, the left side's first. -/
def compare (op : Operator) (left right : Value) : Except Fault Bool := do
  let leftNumber ← number? left
  let rightNumber ← number? right
  match leftNumber, rightNumber with
  | some a, some b => return op.decides (numberOrder a b)
  | _, _ => return op.decides (some (textOrder left.plain.toList right.plain.toList))

end Operator

end Gatekeeper
