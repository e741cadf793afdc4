import Gatekeeper.Cli.Run

/-! The command line program: it looks up the one file that a run may read, runs, and writes the two
outputs. -/
namespace Gatekeeper.Cli

/-- A text as it is held, from one of the system. -/
def ofSystem (text : String) : String :=
  String.ofList (Text.ofCharacters text.toList)

/-- A text for the system, in which halves of surrogate pairs are written by their numbers. -/
def toSystem (text : String) : String :=
  String.ofList <| (Text.codes text.toList).flatMap fun n =>
    if Text.isSurrogate n then '\\' :: 'u' :: Text.hex 4 n else [Char.ofNat n]

/-- The content of a file, or why it cannot be read. -/
def readContent (path : String) : IO (Except FileError (List UInt8)) := do
  let shown := (Path.ofString path).toString
  match Name.bytes shown with
  | .error u => return .error (.unencodable u)
  | .ok bytes =>
    if bytes.contains 0 then return .error .zeroByte
    try
      return .ok (← IO.FS.readBinFile (toSystem shown)).toList
    catch
      | .permissionDenied .. => return .error (.denied shown)
      | .inappropriateType .. => return .error (.isDirectory shown)
      | .invalidArgument .. => return .error (.tooLong shown)
      | _ => return .error (.notFound shown)

/-- The files that a command line can reach. -/
def filesFor (args : List String) : IO Files := do
  match Invocation.ofTexts args with
  | .ok { task := .check path, .. } =>
    let content ← readContent path
    return fun _ => content
  | _ => return fun path => .error (.notFound path.toString)

end Gatekeeper.Cli

open Gatekeeper.Cli in
def main (args : List String) : IO UInt32 := do
  let args := args.map ofSystem
  let (outcome, console) := run (← filesFor args) args
  IO.print (toSystem (textOfLines console.results))
  IO.eprint (toSystem (textOfLines console.messages))
  match outcome with
  | .ok code => return code.toUInt32
  | .error e =>
    IO.eprintln (toSystem e.message)
    return 1
