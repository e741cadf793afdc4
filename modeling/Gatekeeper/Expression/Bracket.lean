import Gatekeeper.Text.Blank
import Gatekeeper.Value.Mismatch

/-!
# Brackets

Finding the bracket that closes another one, and cutting the content of a list at the semicolons
that stand outside all inner brackets. Both count how many brackets are open.
-/
namespace Gatekeeper.Bracket

/-- How many characters come before the closing bracket that brings the count of open brackets from
`opened` to zero. -/
def closingFrom (opened : Int) : List Char → Option Nat
  | [] => none
  | c :: rest =>
    if c = '[' then (closingFrom (opened + 1) rest).map (· + 1)
    else if c = ']' then
      if opened - 1 = 0 then some 0 else (closingFrom (opened - 1) rest).map (· + 1)
    else (closingFrom opened rest).map (· + 1)

/-- The place of the bracket that closes the one at `start`. -/
def closing? (text : List Char) (start : Nat) : Option Nat :=
  (closingFrom 0 (text.drop start)).map (start + ·)

/-- The same for a place that counts from the end of the text if it is negative. From such a place the
text goes on with its start again. -/
def closingAt? (text : List Char) (start : Int) : Except Mismatch (Option Int) :=
  if 0 ≤ start then .ok ((closing? text start.toNat).map Int.ofNat)
  else if text.length < start.natAbs then .error .outOfRange
  else
    let before := text.length - start.natAbs
    .ok ((closingFrom 0 (text.drop before ++ text)).map (start + ·))

/-- Why brackets do not balance. -/
inductive Imbalance where
  | unmatchedOpening
  | unmatchedClosing
  deriving DecidableEq, Repr

/-- Put a character in front of the first piece. -/
def prepend (c : Char) : List (List Char) → List (List Char)
  | [] => [[c]]
  | piece :: pieces => (c :: piece) :: pieces

/-- The pieces of a content between the semicolons at depth zero, when `opened` brackets are open
before it. -/
def piecesFrom : Nat → List Char → Except Imbalance (List (List Char))
  | 0, [] => .ok [[]]
  | _ + 1, [] => .error .unmatchedOpening
  | opened, c :: rest =>
    if c = '[' then (piecesFrom (opened + 1) rest).map (prepend c)
    else if c = ']' then
      match opened with
      | 0 => .error .unmatchedClosing
      | opened + 1 => (piecesFrom opened rest).map (prepend c)
    else if c = ';' ∧ opened = 0 then (piecesFrom 0 rest).map ([] :: ·)
    else (piecesFrom opened rest).map (prepend c)

/-- The pieces of a content, trimmed, without those that are blank. -/
def split (content : List Char) : Except Imbalance (List (List Char)) :=
  (piecesFrom 0 content).map fun pieces => (pieces.map Text.trim).filter (!·.isEmpty)

end Gatekeeper.Bracket
