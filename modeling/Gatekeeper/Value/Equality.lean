import Gatekeeper.Value.Basic

/-!
# Equality of data

Two values are equal as data when they say the same: numbers by their value, lists member by member,
maps and sets whatever the order of their keys. What is not a number equals nothing, but as a member
it is the same as itself.
-/
namespace Gatekeeper

namespace Scalar

def isNan : Scalar → Bool
  | float .nan | unordered _ => true
  | _ => false

/-- Whether two scalars are equal as data. -/
def equals (a b : Scalar) : Bool :=
  !a.isNan && a.same b

theorem same_text_eq (key : Scalar) (s : String) :
    key.same (.text s) = (key.rank?.isNone && key == .text s) := by
  cases key with
  | float x => cases x <;> rfl
  | _ => rfl

/-- A text is the same key as itself only. -/
theorem same_text_iff (key : Scalar) (s : String) : key.same (.text s) = true ↔ key = .text s := by
  rw [same_text_eq, Bool.and_eq_true, beq_iff_eq]
  refine and_iff_right_of_imp ?_
  rintro rfl
  rfl

end Scalar

namespace Value

/-- A value without the number under which it is shared. -/
def bare : Value → Value
  | shared _ v => bare v
  | v => v

/-- Whether two lists without repetitions have the same keys. -/
def sameKeys (keys keys' : List Scalar) : Bool :=
  keys.length == keys'.length && keys.all fun key => keys'.any (·.same key)

mutual

/-- Whether two members of containers say the same. -/
def sameMember (v w : Value) : Bool :=
  match v, w.bare with
  | shared _ v, w => sameMember v w
  | scalar s, scalar t => s.same t
  | list items, list items' => sameMembers items items'
  | map entries, map entries' => entries.length == entries'.length && within entries' entries
  | pair first second, pair first' second' => sameMember first first' && sameMember second second'
  | set keys, set keys' => sameKeys keys keys'
  | again number, again number' => number == number'
  | _, _ => false

def sameMembers (items items' : List Value) : Bool :=
  match items, items' with
  | [], [] => true
  | v :: items, v' :: items' => sameMember v v' && sameMembers items items'
  | _, _ => false

/-- Whether a table has entries that say the same as those of a list. -/
def within (table entries : List (Scalar × Value)) : Bool :=
  match entries with
  | [] => true
  | (key, v) :: entries => (find? table key).any (sameMember v) && within table entries

end

/-- Whether two values are equal as data. -/
def equals (v w : Value) : Bool :=
  match v, w with
  | scalar s, scalar t => s.equals t
  | _, _ => sameMember v w

theorem equals_text (s t : String) : equals (text s) (text t) = (s == t) := by
  rw [Bool.eq_iff_iff]
  simp [equals, Scalar.equals, Scalar.isNan, Scalar.same, Scalar.rank?, Scalar.position?]

end Value

end Gatekeeper
