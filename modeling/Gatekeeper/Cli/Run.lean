import Gatekeeper.Cli.Console
import Gatekeeper.Cli.Invocation
import Gatekeeper.Configuration.Load
import Gatekeeper.Subject.Assignment

/-!
# Running a command line

A run writes to a console and ends with an exit code. A failure of a command becomes a message and
the code 2 if it says what is wrong with a value or a file. Data of the wrong shape, malformed YAML,
and nesting that is too deep end the run without a code.
-/
namespace Gatekeeper

/-! ### Data of the wrong shape -/

def DepthLimit.Refusal.isMismatch : DepthLimit.Refusal → Bool
  | .mismatch _ => true
  | _ => false

def SettingsError.isMismatch : SettingsError → Bool
  | .mismatch _ => true
  | .limit r => r.isMismatch
  | _ => false

def GateError.isMismatch : GateError → Bool
  | .mismatch _ => true
  | _ => false

def ConfigurationError.isMismatch : ConfigurationError → Bool
  | .mismatch _ => true
  | .settings e => e.isMismatch
  | .gate e => e.isMismatch

namespace Cli

/-- What ends a command before its work is done. -/
inductive Failure where
  | load (e : LoadError)
  | limit (r : DepthLimit.Refusal)
  | assignment (e : Assignment.Error)
  | subject (e : TableError)
  | expression (fault : Fault)
  /-- The name of a gate is a number that is too long to be written. -/
  | unwritable
  deriving DecidableEq, Repr

namespace Failure

def message : Failure → String
  | load e => e.message
  | limit r => r.message
  | assignment e => e.message
  | subject e => e.message
  | expression fault =>
    match fault.message? with
    | .ok message => message
    | .error _ => ""
  | unwritable => Number.Whole.unwritableMessage

/-- Whether a failure becomes a message. -/
def isReported : Failure → Bool
  | load (.yaml e) => e.isValueError
  | load (.json (.tooDeep _)) => false
  | load (.configuration e) => !e.isMismatch
  | load _ => true
  | limit r => !r.isMismatch
  | assignment (.mismatch _) => false
  | assignment _ => true
  | subject (.mismatch _) => false
  | subject _ => true
  | expression (.unreadable _) | expression .unwritable | expression (.defect _) => true
  | expression _ => false
  | unwritable => true

end Failure

/-- The subject of a profile. -/
def Profile.subject (profile : Profile) : Except Failure Subject := do
  let attributes ← (Assignment.table profile.assignments).mapError .assignment
  let subject ← (FixedSubject.ofValues profile.name (.list profile.permissions)
    (.map attributes)).mapError .subject
  return subject.toSubject

/-- The manager that works for a profile. -/
def Profile.manager (profile : Profile) (settings : Settings) : Except Failure Manager :=
  let resolver := if profile.noAttributes then none else some Resolver.static
  (Manager.create resolver settings none).mapError .limit

/-- The settings of a command line, for commands that read none from a file. -/
def Options.settings (options : Options) : Settings :=
  { maxDepth := options.maxDepth }

/-- How a command ends: with an exit code or a failure, and with what it has written by then. -/
abbrev Ending := Except Failure Nat × Console

/-- Say of each expression whether it is valid. -/
def validateEach (m : Manager) (console : Console) (allValid : Bool) : List String → Ending
  | [] => (.ok (if allValid then 0 else 1), console)
  | e :: es =>
    let (valid, m) := m.isValid (.text e)
    let (console, m) := console.hear m
    match valid with
    | .error fault => (.error (.expression fault), console)
    | .ok valid =>
      let console := console.print ((if valid then "valid: " else "invalid: ") ++ e)
      validateEach m console (allValid && valid) es

def validate (options : Options) (expressions : List String) (console : Console) : Ending :=
  match options.profile.manager options.settings with
  | .error e => (.error e, console)
  | .ok m =>
    let (console, m) := console.hear m
    validateEach m console true expressions

/-- Print the condition of an expression. -/
def describe (options : Options) (expression : String) (console : Console) : Ending :=
  match options.settings.parser? with
  | .error r => (.error (.limit r), console)
  | .ok parser =>
    match parser.parse expression with
    | .error (.refused e) => (.ok 1, console.warn ("Error: " ++ e.message))
    | .error (.raised fault) => (.error (.expression fault), console)
    | .ok c => (.ok 0, (console.record [.parsed]).print c.describe)

/-- Decide one expression. -/
def test (options : Options) (expression : String) (console : Console) : Ending :=
  match options.profile.manager options.settings with
  | .error e => (.error e, console)
  | .ok m =>
    let (valid, m) := m.isValid (.text expression)
    let (console, m) := console.hear m
    match valid, options.profile.subject with
    | .error fault, _ => (.error (.expression fault), console)
    | .ok false, _ => (.ok 1, console.warn ("Error: invalid expression: " ++ expression))
    | .ok true, .error e => (.error e, console)
    | .ok true, .ok subject =>
      let (answer, m) := m.evaluate subject (.text expression)
      let (console, _) := console.hear m
      match answer with
      | .error fault => (.error (.expression fault), console)
      | .ok answer => (.ok 0, console.print (if answer then "true" else "false"))

/-- Say of each gate whether the subject passes it. -/
def judgeGates (subject : Subject) (code : Nat) (m : Manager) (console : Console) :
    List (Scalar × Gate) → Ending
  | [] => (.ok code, console)
  | (name, gate) :: gates =>
    let (answer, m) := gate.evaluate m subject
    let (console, m) := console.hear m
    match answer with
    | .error fault => (.error (.expression fault), console)
    | .ok answer =>
      if name.isWritable then
        let console := console.print (name.plain ++ ": " ++ if answer then "pass" else "fail")
        judgeGates subject code m console gates
      else (.error .unwritable, console)

/-- Warn about expressions that are not valid, up to a gate whose name cannot be written. -/
def warnEach (console : Console) : List (Scalar × List String) → Except Failure Unit × Console
  | [] => (.ok (), console)
  | (name, expressions) :: rest =>
    if name.isWritable then
      let lines := expressions.map fun e =>
        "warning: gate " ++ name.plain ++ ": invalid expression: " ++ e
      warnEach (lines.foldl Console.warn console) rest
    else (.error .unwritable, console)

/-- Warn about what is not valid in gates, then judge them. -/
def checkGates (subject : Subject) (m : Manager) (console : Console) (configuration : Configuration) :
    Ending :=
  let (invalid, m) := configuration.invalidExpressions m
  let (console, m) := console.hear m
  match invalid with
  | .error fault => (.error (.expression fault), console)
  | .ok invalid =>
    match warnEach console invalid with
    | (.error e, console) => (.error e, console)
    | (.ok (), console) =>
      judgeGates subject (if invalid.isEmpty then 0 else 1) m console configuration.gates

/-- The gates that an option leaves of a configuration, or none if the option names no gate there. -/
def gatesFor? (gate : Value) (configuration : Configuration) : Option (List (Scalar × Gate)) :=
  match gate with
  | .text name =>
    if name.isEmpty then some configuration.gates
    else (configuration.gate? (.text name)).map fun gate => [(.text name, gate)]
  | _ => some configuration.gates

/-- Judge the gates of a configuration file. -/
def check (files : Files) (options : Options) (path : String) (console : Console) : Ending :=
  match Configuration.load true files path with
  | .error e => (.error (.load e), console)
  | .ok configuration =>
    match options.profile.manager configuration.settings with
    | .error e => (.error e, console)
    | .ok m =>
      let (console, m) := console.hear m
      match options.profile.subject, gatesFor? options.gate configuration with
      | .error e, _ => (.error e, console)
      | .ok _, none => (.ok 1, console.warn ("Error: unknown gate: " ++ options.gate.plain))
      | .ok subject, some gates =>
        checkGates subject m console { configuration with gates }

/-- Do a task. -/
def Invocation.perform (files : Files) (invocation : Invocation) (console : Console) : Ending :=
  let options := invocation.options
  match invocation.task with
  | .overview => (.ok 0, Page.overview.help.foldl Console.print console)
  | .validate expressions => validate options expressions console
  | .describe expression => describe options expression console
  | .test expression => test options expression console
  | .check path => check files options path console

/-- Report the failure that a command ended with. -/
def report : Ending → Ending
  | (.error e, console) =>
    if e.isReported then (.ok 2, console.warn ("Error: " ++ e.message)) else (.error e, console)
  | ending => ending

/-- Run a command line. -/
def run (files : Files) (texts : List String) : Ending :=
  match Invocation.ofTexts texts with
  | .error (.help page) => (.ok 0, page.help.foldl Console.print { verbose := false })
  | .error (.misuse page m) =>
    let lines := page.usage ++ [page.title ++ ": error: " ++ m.message]
    (.ok 2, lines.foldl Console.warn { verbose := false })
  | .ok invocation =>
    report (invocation.perform files { verbose := invocation.options.verbose })

end Cli

end Gatekeeper
