import Gatekeeper.Value.Basic

/-!
# Outlines

What of a value is written where. A container or a moment that stands in several places is written in
the first one, with an anchor, and the others name its anchor. Anchors are numbered from one in the
order in which their nodes are met for the second time.
-/
namespace Gatekeeper.Yaml

inductive Leaf where
  /-- The node of an anchor. -/
  | alias (anchor : Nat)
  | scalar (anchor? : Option Nat) (s : Scalar)
  deriving DecidableEq, Repr

inductive Outline where
  | leaf (l : Leaf)
  | list (anchor? : Option Nat) (tag : String) (items : List Outline)
  | map (anchor? : Option Nat) (tag : String) (entries : List (Leaf × Outline))
  deriving Repr, Inhabited

/-- The numbers of the nodes that have been met, and of those met again in order. -/
structure Meetings where
  met : List Nat := []
  metAgain : List Nat := []
  deriving DecidableEq, Repr

namespace Meetings

def meet (m : Meetings) (number : Nat) : Meetings :=
  if !m.met.contains number then { m with met := number :: m.met }
  else if m.metAgain.contains number then m
  else { m with metAgain := m.metAgain ++ [number] }

def meetScalar (m : Meetings) : Scalar → Meetings
  | .moment _ (some number) => m.meet number
  | _ => m

mutual

/-- Meet a value and, for the first time, its parts. -/
def meetValue (m : Meetings) : Value → Meetings
  | .scalar s => m.meetScalar s
  | .list items => meetItems m items
  | .map entries => meetEntries m entries
  | .pair first second => meetValue (meetValue m first) second
  | .set members => members.foldl meetScalar m
  | .shared number v =>
    if m.met.contains number then m.meet number else meetValue (m.meet number) v
  | .again number => m.meet number

def meetItems (m : Meetings) : List Value → Meetings
  | [] => m
  | v :: items => meetItems (meetValue m v) items

def meetEntries (m : Meetings) : List (Scalar × Value) → Meetings
  | [] => m
  | (k, v) :: entries => meetEntries (meetValue (m.meetScalar k) v) entries

end

end Meetings

/-- The anchor of a node, if it has one. -/
def anchorOf? (metAgain : List Nat) (number : Nat) : Option Nat :=
  (metAgain.idxOf? number).map (· + 1)

namespace Outline

/-- A scalar where the anchors of `met` stand before it, with the anchors that stand before what
follows. -/
def ofScalar (metAgain met : List Nat) (s : Scalar) : Leaf × List Nat :=
  let number? :=
    match s with
    | .moment _ number? => number?
    | _ => none
  match number?.bind (anchorOf? metAgain) with
  | some anchor =>
    if met.contains anchor then (.alias anchor, met) else (.scalar anchor s, anchor :: met)
  | none => (.scalar none s, met)

/-- The members of a set are keys without values. -/
def ofMembers (metAgain met : List Nat) : List Scalar → List (Leaf × Outline) × List Nat
  | [] => ([], met)
  | k :: members =>
    let (key, met) := ofScalar metAgain met k
    let (entries, met) := ofMembers metAgain met members
    ((key, .leaf (.scalar none .null)) :: entries, met)

mutual

/-- The outline of a value with an anchor of its own. -/
def ofValue (metAgain met : List Nat) (anchor? : Option Nat) : Value → Outline × List Nat
  | .scalar s =>
    let (l, met) := ofScalar metAgain met s
    (.leaf l, met)
  | .list items =>
    let (items, met) := ofItems metAgain met items
    (.list anchor? "" items, met)
  | .map entries =>
    let (entries, met) := ofEntries metAgain met entries
    (.map anchor? "" entries, met)
  | .pair first second =>
    let (first, met) := ofValue metAgain met none first
    let (second, met) := ofValue metAgain met none second
    (.list anchor? "!!python/tuple" [first, second], met)
  | .set members =>
    let (entries, met) := ofMembers metAgain met members
    (.map anchor? "!!set" entries, met)
  | .shared number v =>
    match anchorOf? metAgain number with
    | some anchor =>
      if met.contains anchor then (.leaf (.alias anchor), met)
      else ofValue metAgain (anchor :: met) (some anchor) v
    | none => ofValue metAgain met none v
  | .again number => (.leaf (.alias ((anchorOf? metAgain number).getD 0)), met)

def ofItems (metAgain met : List Nat) : List Value → List Outline × List Nat
  | [] => ([], met)
  | v :: items =>
    let (o, met) := ofValue metAgain met none v
    let (rest, met) := ofItems metAgain met items
    (o :: rest, met)

def ofEntries (metAgain met : List Nat) :
    List (Scalar × Value) → List (Leaf × Outline) × List Nat
  | [] => ([], met)
  | (k, v) :: entries =>
    let (key, met) := ofScalar metAgain met k
    let (o, met) := ofValue metAgain met none v
    let (rest, met) := ofEntries metAgain met entries
    ((key, o) :: rest, met)

end

/-- The outline of a value. -/
def ofRoot (v : Value) : Outline :=
  (ofValue (Meetings.meetValue {} v).metAgain [] none v).1

end Outline

end Gatekeeper.Yaml
