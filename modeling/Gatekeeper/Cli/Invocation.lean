import Gatekeeper.Cli.Page
import Gatekeeper.Expression.Parser
import Gatekeeper.Number.Whole

/-!
# Invocations

What a command line asks for: a task with its options, the help text of a page, or nothing that can
be done.
-/
namespace Gatekeeper.Cli

/-- The subject that a command line describes. -/
structure Profile where
  name : Value := .text "subject"
  permissions : List Value := []
  assignments : List Value := []
  noAttributes : Bool := false
  deriving Repr

structure Options where
  verbose : Bool := false
  maxDepth : Value := .int DepthLimit.default
  /-- The only gate to evaluate, if it holds. -/
  gate : Value := .null
  profile : Profile := {}
  deriving Repr

inductive Task where
  | overview
  | validate (expressions : List String)
  | describe (expression : String)
  | test (expression : String)
  | check (path : String)
  deriving Repr

structure Invocation where
  options : Options
  task : Task
  deriving Repr

/-- Why a command line asks for no task. -/
inductive Halt where
  | help (page : Page)
  | misuse (page : Page) (m : Misuse)
  deriving DecidableEq, Repr

/-- Put a switch into force. -/
def Options.apply (page : Page) (options : Options) (use : Use) : Except Halt Options :=
  let profile := options.profile
  match use.switch with
  | .help => .error (.help page)
  | .verbose => .ok { options with verbose := true }
  | .maxDepth =>
    match use.argument with
    | .text text =>
      match Number.whole? text.toList with
      | some n => .ok { options with maxDepth := .int n }
      | none => .error (.misuse page (.notWhole .maxDepth text))
    | v => .ok { options with maxDepth := v }
  | .permission =>
    .ok { options with
      profile := { profile with permissions := profile.permissions ++ [use.argument] } }
  | .assignment =>
    .ok { options with
      profile := { profile with assignments := profile.assignments ++ [use.argument] } }
  | .noAttributes => .ok { options with profile := { profile with noAttributes := true } }
  | .name => .ok { options with profile := { profile with name := use.argument } }
  | .gate => .ok { options with gate := use.argument }

/-- Read words by the rules of a page: the options, the operands, and what is left over. -/
def Page.read (page : Page) (options : Options) (texts : List String) :
    Except Halt (Options × List String × List String) := do
  let r := Reading.ofTexts page.switches page.extent texts
  let options ← r.uses.foldlM (Options.apply page) options
  match r.misuse?, page.operand?, r.operands with
  | some m, _, _ => .error (.misuse page m)
  | none, some name, [] => .error (.misuse page (.missingOperand name))
  | none, _, operands => return (options, operands, r.leftovers)

/-- The task of a page with its operands. -/
def Page.task (operands : List String) : Page → Task
  | overview => .overview
  | validate => .validate operands
  | describe => .describe (operands.headD "")
  | test => .test (operands.headD "")
  | check => .check (operands.headD "")

/-- An invocation that leaves no words over. -/
def Invocation.build (options : Options) (task : Task) (leftovers : List String) :
    Except Halt Invocation :=
  if leftovers.isEmpty then .ok ⟨options, task⟩
  else .error (.misuse .overview (.leftovers leftovers))

/-- Read a command line. The words from the first operand on belong to the command it names. -/
def Invocation.ofTexts (texts : List String) : Except Halt Invocation := do
  let (options, operands, leftovers) ← Page.overview.read {} texts
  match operands with
  | [] => build options .overview leftovers
  | name :: texts =>
    match commands.lookup name with
    | none => .error (.misuse .overview (.unknownCommand name (commands.map (·.1))))
    | some page =>
      let (options, operands, more) ← page.read options texts
      build options (page.task operands) (leftovers ++ more)

end Gatekeeper.Cli
