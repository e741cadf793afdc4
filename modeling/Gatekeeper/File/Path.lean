import Gatekeeper.Text.Lowercase

/-!
# Paths

A path is read as its parts between slashes. Empty parts and single dots do not count.
-/
namespace Gatekeeper

structure Path where
  /-- The slashes in front: none, one, or two. -/
  root : String
  parts : List String
  deriving DecidableEq, Repr

namespace Path

def ofString (path : String) : Path :=
  let chars := path.toList
  let slashes := (chars.takeWhile (· == '/')).length
  let root := if slashes = 0 then "" else if slashes = 2 then "//" else "/"
  let parts := (chars.splitOn '/').map String.ofList
  ⟨root, parts.filter fun part => part != "" && part != "."⟩

def toString (path : Path) : String :=
  let text := path.root ++ "/".intercalate path.parts
  if text.isEmpty then "." else text

/-- The ending of the last part from its last dot on, in lower case. A dot at either end of the part
begins no ending. -/
def ending (path : Path) : String :=
  let name := (path.parts.getLastD "").toList
  let ending := (name.reverse.takeWhile (· != '.')).reverse
  if ending.isEmpty || name.length ≤ ending.length + 1 then ""
  else String.ofList (Text.lower ('.' :: ending))

end Path

end Gatekeeper
