import Gatekeeper.Number.Double
import Gatekeeper.Value.Moment

/-!
# Values

The data that configuration files and host applications hand over: scalars, lists, and maps whose
keys are scalars. A map keeps its entries in the order in which their keys first came. A document may
use one container in several places, even within itself. Such a container has a number, under which it
is known in all its places; within itself it is named by its number alone.
-/
namespace Gatekeeper

open Number

inductive Scalar where
  | null
  | bool (b : Bool)
  | int (n : Int)
  | float (x : Double)
  /-- What a document gives as not a number, under its own number. -/
  | unordered (number : Nat)
  | text (s : String)
  /-- A moment, with its number if it stands in several places of a document. -/
  | moment (m : Moment) (number? : Option Nat)
  | octets (bytes : List UInt8)
  deriving DecidableEq, Repr, Inhabited

inductive Value where
  | scalar (s : Scalar)
  | list (items : List Value)
  | map (entries : List (Scalar × Value))
  | pair (first second : Value)
  | set (members : List Scalar)
  /-- A container that stands in several places. -/
  | shared (number : Nat) (v : Value)
  /-- The shared container of that number, within itself. -/
  | again (number : Nat)
  deriving Repr, Inhabited

namespace Scalar

/-- A number by its position on the line of doubles; a truth value counts as zero or one. -/
def position? : Scalar → Option Int
  | bool b => some (if b then Double.one else 0)
  | int n => some (n * Double.one)
  | float x => x.position?
  | _ => none

/-- The rank of a number among all numbers: an infinite one lies beyond every place on the line. -/
def rank? : Scalar → Option (Int × Int)
  | float (.infinity negative) => some (if negative then (-1, 0) else (1, 0))
  | s => s.position?.map (0, ·)

/-- Whether two scalars are the same key: numbers by their value, moments as moments are, all else by
kind and content. What is not a number is the same as itself only, wherever it stands. -/
def same (a b : Scalar) : Bool :=
  match a, b with
  | moment m _, moment m' _ => m.same m'
  | _, _ =>
    match a.rank?, b.rank? with
    | some m, some n => m == n
    | none, none => a == b
    | _, _ => false

/-- Nothing, zero, the empty text and falsehood do not hold; every other scalar does. -/
def holds : Scalar → Bool
  | null => false
  | bool b => b
  | int n => n != 0
  | float x => !x.isZero
  | unordered _ => true
  | text s => !s.isEmpty
  | moment .. => true
  | octets bytes => !bytes.isEmpty

/-- The name of a scalar's kind in messages. -/
def kind : Scalar → String
  | null => "NoneType"
  | bool _ => "bool"
  | int _ => "int"
  | float _ | unordered _ => "float"
  | text _ => "str"
  | moment m _ => m.kind
  | octets _ => "bytes"

end Scalar

namespace Value

@[match_pattern] abbrev null : Value := scalar .null
@[match_pattern] abbrev bool (b : Bool) : Value := scalar (.bool b)
@[match_pattern] abbrev int (n : Int) : Value := scalar (.int n)
@[match_pattern] abbrev float (x : Double) : Value := scalar (.float x)
@[match_pattern] abbrev text (s : String) : Value := scalar (.text s)

/-- A scalar holds by its own rule, a container when it has members. -/
def holds : Value → Bool
  | scalar s => s.holds
  | list items => !items.isEmpty
  | map entries => !entries.isEmpty
  | set members => !members.isEmpty
  | pair .. | again _ => true
  | shared _ v => v.holds

/-- The name of a value's kind in messages. A place within a container has the kind of the container,
which is not known there. -/
def kind : Value → String
  | scalar s => s.kind
  | list _ => "list"
  | map _ => "dict"
  | pair .. => "tuple"
  | set _ => "set"
  | shared _ v => v.kind
  | again _ => "object"

mutual

/-- A value in which each place of a number holds the container of that number. -/
def fill (number : Nat) (whole : Value) : Value → Value
  | scalar s => scalar s
  | list items => list (fillItems number whole items)
  | map entries => map (fillEntries number whole entries)
  | pair first second => pair (fill number whole first) (fill number whole second)
  | set members => set members
  | shared other v => shared other (if other = number then v else fill number whole v)
  | again other => if other = number then whole else again other

def fillItems (number : Nat) (whole : Value) : List Value → List Value
  | [] => []
  | v :: items => fill number whole v :: fillItems number whole items

def fillEntries (number : Nat) (whole : Value) : List (Scalar × Value) → List (Scalar × Value)
  | [] => []
  | (k, v) :: entries => (k, fill number whole v) :: fillEntries number whole entries

end

/-- A value that shows its members: a shared container without its number, whose places within itself
hold it again. -/
def opened : Value → Value
  | shared number v => fill number (shared number v) v
  | v => v

mutual

/-- Equality of values, member by member and in order. -/
def same : Value → Value → Bool
  | scalar s, scalar t => s == t
  | list items, list items' => sameItems items items'
  | map entries, map entries' => sameEntries entries entries'
  | pair first second, pair first' second' => same first first' && same second second'
  | set members, set members' => members == members'
  | shared number v, shared number' v' => number == number' && same v v'
  | again number, again number' => number == number'
  | _, _ => false

def sameItems : List Value → List Value → Bool
  | [], [] => true
  | v :: items, v' :: items' => same v v' && sameItems items items'
  | _, _ => false

def sameEntries : List (Scalar × Value) → List (Scalar × Value) → Bool
  | [], [] => true
  | (k, v) :: entries, (k', v') :: entries' => k == k' && same v v' && sameEntries entries entries'
  | _, _ => false

end

instance : BEq Value := ⟨same⟩

mutual

theorem same_iff (v v' : Value) : same v v' = true ↔ v = v' := by
  cases v <;> cases v' <;> simp [same, same_iff, sameItems_iff, sameEntries_iff]

theorem sameItems_iff (items items' : List Value) : sameItems items items' = true ↔ items = items' := by
  cases items <;> cases items' <;> simp [sameItems, same_iff, sameItems_iff]

theorem sameEntries_iff (entries entries' : List (Scalar × Value)) :
    sameEntries entries entries' = true ↔ entries = entries' := by
  match entries, entries' with
  | [], [] => simp [sameEntries]
  | [], _ :: _ | _ :: _, [] => simp [sameEntries]
  | (k, v) :: entries, (k', v') :: entries' =>
    simp [sameEntries, same_iff v v', sameEntries_iff entries entries', and_assoc]

end

instance : LawfulBEq Value where
  rfl := (same_iff _ _).2 rfl
  eq_of_beq h := (same_iff _ _).1 h

instance : DecidableEq Value := fun v v' =>
  decidable_of_iff (same v v' = true) (same_iff v v')

/-- The value under a key. -/
def find? (entries : List (Scalar × Value)) (key : Scalar) : Option Value :=
  (entries.find? fun entry => entry.1.same key).map (·.2)

/-- Put a value under a key: in the place of the key if it is there, else at the end. -/
def insert (entries : List (Scalar × Value)) (key : Scalar) (v : Value) : List (Scalar × Value) :=
  match entries with
  | [] => [(key, v)]
  | entry :: rest => if entry.1.same key then (entry.1, v) :: rest else entry :: insert rest key v

/-- A map from a list of entries, the last one of each key. -/
def ofEntries (entries : List (Scalar × Value)) : Value :=
  map (entries.foldl (fun known entry => insert known entry.1 entry.2) [])

/-- A list of keys without those that are the same as one before them. -/
def addKey (keys : List Scalar) (key : Scalar) : List Scalar :=
  if keys.any (·.same key) then keys else keys ++ [key]

end Value

end Gatekeeper
