import Gatekeeper.File.Name
import Gatekeeper.File.Path

/-!
# Files

Files by their paths, and what can go wrong when one is opened. A directory holds files by their
relative names; the directories in it are those that these names mention. It is itself a nameless
directory among those for temporary files. Of all else only the directories and a few files are known
that every system has.
-/
namespace Gatekeeper

inductive FileError where
  | notFound (path : String)
  | isDirectory (path : String)
  | notDirectory (path : String)
  | denied (path : String)
  /-- A path or a part of it is longer than a system allows. -/
  | tooLong (path : String)
  | unencodable (u : Text.Utf8.Unencodable)
  | zeroByte
  deriving DecidableEq, Repr

def FileError.message : FileError → String
  | notFound path => "[Errno 2] No such file or directory: " ++ Text.quoted path
  | isDirectory path => "[Errno 21] Is a directory: " ++ Text.quoted path
  | notDirectory path => "[Errno 20] Not a directory: " ++ Text.quoted path
  | denied path => "[Errno 13] Permission denied: " ++ Text.quoted path
  | tooLong path => "[Errno 36] File name too long: " ++ Text.quoted path
  | unencodable u => u.message
  | zeroByte => "embedded null byte"

/-- The content of the file at a path. -/
abbrev Files := Path → Except FileError (List UInt8)

/-- A place in a file system: the bytes of the names on the way to it. -/
abbrev Place := List (List UInt8)

structure File where
  place : Place
  content : List UInt8
  deriving Repr

abbrev Directory := List File

namespace Directory

/-- The least number of bytes that no path has. -/
def pathLimit : Nat := 4096

/-- The greatest number of bytes in a name. -/
def nameLimit : Nat := 255

/-- The place that names lead to from the root. -/
def placeOf (names : List String) : Place :=
  names.map fun name => (Name.bytes name).toOption.getD []

/-- The place of the directory itself. -/
def base : Place := placeOf ["tmp", ""]

/-- The directories that every system has. -/
def systemDirectories : List Place :=
  placeOf ["bin", "boot", "dev", "etc", "home", "lib", "media", "mnt", "opt", "proc", "root", "run",
    "sbin", "srv", "sys", "tmp", "usr", "var"] |>.map ([·])

/-- Files that every system has; their names have no endings. -/
def systemFiles : List File :=
  [["dev", "null"], ["etc", "passwd"], ["etc", "group"], ["etc", "hosts"]].map fun names =>
    ⟨placeOf names, []⟩

/-- A file of a directory. -/
def file (name : String) (content : List UInt8) : File :=
  ⟨base ++ placeOf (Path.ofString name).parts, content⟩

def isDirectory (directory : Directory) (place : Place) : Bool :=
  place.isEmpty || place == base || systemDirectories.contains place ||
    directory.any fun f => place.length < f.place.length && place.isPrefixOf f.place

/-- The file at the end of some names behind the place of a directory. -/
def walk (directory : Directory) (path : String) (place : Place) :
    List (List UInt8) → Except FileError File
  | [] => .error (.isDirectory path)
  | name :: rest =>
    if name == ['.'.toUInt8, '.'.toUInt8] then walk directory path place.dropLast rest
    else if nameLimit < name.length then .error (.tooLong path)
    else
      let place := place ++ [name]
      match directory.find? (·.place == place) with
      | some f => if rest.isEmpty then .ok f else .error (.notDirectory path)
      | none =>
        if directory.isDirectory place then walk directory path place rest else .error (.notFound path)

/-- The files of a directory. -/
def files (directory : Directory) : Files := fun path =>
  let shown := path.toString
  match Name.bytes shown with
  | .error u => .error (.unencodable u)
  | .ok bytes =>
    if bytes.contains 0 then .error .zeroByte
    else if pathLimit ≤ bytes.length then .error (.tooLong shown)
    else
      let start := if path.root.isEmpty then base else []
      (walk (directory ++ systemFiles) shown start (placeOf path.parts)).map File.content

end Directory

end Gatekeeper
