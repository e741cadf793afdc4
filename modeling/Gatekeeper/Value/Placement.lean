import Gatekeeper.Value.Basic

/-!
# The order of sets

A set shows its members in the order of a table, not in the order in which they came. A number has a
place in the table by its remainder. When that is taken it goes to one of the next places, and when
those are taken on to another part of the table. A table grows before it gets crowded. Only numbers and
what is empty have places of their own: a set with any other member shows its members as they came.
-/
namespace Gatekeeper

/-- The prime by which numbers are reduced. -/
def Scalar.modulus : Nat := Nat.pow 2 61 - 1

/-- The number of sixty-four bits that places a scalar. Units of numbers are `2 ^ -1074`, which is
`2 ^ 24` for the modulus. -/
def Scalar.placing? (s : Scalar) : Option Nat :=
  let range := Nat.pow 2 64
  let signed (negative : Bool) (n : Nat) : Nat := if negative then (range - n) % range else n
  match s.rank? with
  | some (0, units) =>
    let reduced := units.natAbs * Nat.pow 2 24 % modulus
    some (signed (units < 0) (if units < 0 ∧ reduced = 1 then 2 else reduced))
  | some (side, _) => some (signed (side < 0) 314159)
  | none => if s = .text "" ∨ s = .octets [] then some 0 else none

/-- Members in their places, each with the number that places it. -/
abbrev Placement := Array (Option (Nat × Scalar))

namespace Placement

def empty (size : Nat) : Placement :=
  Array.replicate size none

/-- How many places behind a place are tried before another part of the table is. -/
def reach : Nat := 9

/-- The first free one of some places. -/
def free? (table : Placement) (place count : Nat) : Option Nat :=
  ((List.range count).map (place + ·)).find? fun place => table[place]?.any Option.isNone

/-- The free place that is found from a place on. Every step brings in five more bits of the number
that is left. -/
def seek (table : Placement) (rest place : Nat) : Nat → Nat
  | 0 => place
  | fuel + 1 =>
    match table.free? place (if place + reach < table.size then reach + 1 else 1) with
    | some found => found
    | none =>
      let rest := rest / 32
      table.seek rest ((place * 5 + 1 + rest) % table.size) fuel

/-- Put a member into its place. -/
def put (table : Placement) (member : Nat × Scalar) : Placement :=
  let place := table.seek member.1 (member.1 % table.size) (table.size + 13)
  table.setIfInBounds place (some member)

/-- The members in the order of their places. -/
def members (table : Placement) : List (Nat × Scalar) :=
  table.toList.filterMap id

/-- The size of a table for more than `n` members. -/
def sizeOver (n : Nat) : Nat :=
  if n < 8 then 8 else Nat.pow 2 (n.log2 + 1)

/-- Put a member into its place and make room for more when three of five places are taken. -/
def add (table : Placement) (member : Nat × Scalar) : Placement :=
  let table := table.put member
  let members := table.members
  if members.length * 5 < (table.size - 1) * 3 then table
  else members.foldl put (empty (sizeOver (members.length * 4)))

end Placement

namespace Value

/-- Different keys in the order in which a set shows them that starts with a table of some size. -/
def arrange (size : Nat) (keys : List Scalar) : List Scalar :=
  match keys.mapM Scalar.placing? with
  | some numbers =>
    ((numbers.zip keys).foldl Placement.add (.empty size)).members.map Prod.snd
  | none => keys

/-- The set of the keys of a map, the first one of those that are the same. -/
def ofKeys (keys : List Scalar) : Value :=
  let keys := keys.foldl addKey []
  set (arrange (Placement.sizeOver (if keys.length ≤ 4 then 0 else keys.length * 2)) keys)

end Value

end Gatekeeper
