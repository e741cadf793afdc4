import Gatekeeper.Manager.Basic

/-!
# Consoles

The two outputs of a program, line by line: results, and messages with the log records that are
shown. A line may itself hold line feeds.
-/
namespace Gatekeeper

def Fault.kind : Fault → String
  | host kind _ | mute kind _ => kind
  | mismatch _ => "TypeError"
  | unreadable _ | unwritable | defect _ => "ValueError"

/-- The kind of a fault and its message, or that there is none. -/
def Fault.report (fault : Fault) : String :=
  fault.kind ++ ": " ++ match fault.message? with
    | .ok message => message
    | .error _ => "<exception str() failed>"

namespace Cli

structure Console where
  /-- Whether records of all levels are shown, and not only warnings and errors. -/
  verbose : Bool
  results : List String := []
  messages : List String := []
  deriving DecidableEq, Repr

/-- The lines of a record. -/
def recordLines (r : Record) : List String :=
  (r.level.name ++ " rotalabs_conditions." ++ r.source.name ++ ": " ++ r.message) ::
    (r.fault?.map Fault.report).toList

namespace Console

def print (console : Console) (line : String) : Console :=
  { console with results := console.results ++ [line] }

def warn (console : Console) (line : String) : Console :=
  { console with messages := console.messages ++ [line] }

/-- Whether records of a level are shown. -/
def showsLevel (console : Console) : Level → Bool
  | .debug | .info => console.verbose
  | .warning | .error => true

/-- Show records. -/
def record (console : Console) (records : List Record) : Console :=
  let shown := records.filter fun r => console.showsLevel r.level
  { console with messages := console.messages ++ shown.flatMap recordLines }

/-- Show what a manager has written since it was last heard. -/
def hear (console : Console) (m : Manager) : Console × Manager :=
  (console.record m.journal.log, { m with journal := {} })

end Console

/-- Lines as one text. -/
def textOfLines (lines : List String) : String :=
  String.join (lines.map (· ++ "\n"))

end Cli

end Gatekeeper
