import Gatekeeper.Cli.Reading
import Gatekeeper.Text.Quoted

/-!
# Help pages

A page for the whole program and one for each command: the name to type, the switches and operands
it takes, how it is used, and the help text.
-/
namespace Gatekeeper.Cli

inductive Page where
  | overview
  | validate
  | describe
  | test
  | check
  deriving DecidableEq, Repr

/-- The commands by their names. -/
def commands : List (String × Page) :=
  [("validate", .validate), ("describe", .describe), ("test", .test), ("check", .check)]

namespace Page

def program : String := "rotalabs-conditions"

def title : Page → String
  | overview => program
  | validate => program ++ " validate"
  | describe => program ++ " describe"
  | test => program ++ " test"
  | check => program ++ " check"

def switches : Page → List Switch
  | overview => [.help, .verbose, .maxDepth]
  | validate | describe => [.help]
  | test => [.help, .permission, .assignment, .noAttributes, .name]
  | check => [.help, .gate, .permission, .assignment, .noAttributes, .name]

def extent : Page → Extent
  | overview => .command
  | validate => .many
  | _ => .one

/-- The name of the operand that must be there. -/
def operand? : Page → Option String
  | overview => none
  | validate => some "expressions"
  | describe | test => some "expression"
  | check => some "config"

/-- The lines that say how a command is used. -/
def usage : Page → List String
  | overview => [
      "usage: rotalabs-conditions [-h] [-v] [--max-depth MAX_DEPTH]",
      "                           \x7bvalidate,describe,test,check\x7d ..."]
  | validate => ["usage: rotalabs-conditions validate [-h] expressions [expressions ...]"]
  | describe => ["usage: rotalabs-conditions describe [-h] expression"]
  | test => [
      "usage: rotalabs-conditions test [-h] [-p PERMISSIONS] [-a ATTRIBUTES]",
      "                                [--no-attributes] [--name NAME]",
      "                                expression"]
  | check => [
      "usage: rotalabs-conditions check [-h] [--gate GATE] [-p PERMISSIONS]",
      "                                 [-a ATTRIBUTES] [--no-attributes]",
      "                                 [--name NAME]",
      "                                 config"]

/-- The lines on the switches that describe a subject. -/
def subjectLines : List String := [
  "  -p PERMISSIONS, --permission PERMISSIONS",
  "                        Permission node held by the subject (repeatable)",
  "  -a ATTRIBUTES, --attribute ATTRIBUTES",
  "                        Attribute value as TOKEN=VALUE (repeatable)",
  "  --no-attributes       Evaluate as if attribute resolution were unavailable",
  "  --name NAME           Subject name"]

/-- The lines of the help text behind the usage. -/
def details : Page → List String
  | overview => [
      "",
      "Validate and evaluate condition expressions",
      "",
      "positional arguments:",
      "  \x7bvalidate,describe,test,check\x7d",
      "                        Available commands",
      "    validate            Check that expressions parse",
      "    describe            Print the parsed condition tree",
      "    test                Evaluate an expression",
      "    check               Evaluate every gate in a config file",
      "",
      "options:",
      "  -h, --help            show this help message and exit",
      "  -v, --verbose         Enable debug logging",
      "  --max-depth MAX_DEPTH",
      "                        Maximum nesting depth"]
  | validate => [
      "",
      "positional arguments:",
      "  expressions  Expressions to validate",
      "",
      "options:",
      "  -h, --help   show this help message and exit"]
  | describe => [
      "",
      "positional arguments:",
      "  expression  Expression to describe",
      "",
      "options:",
      "  -h, --help  show this help message and exit"]
  | test => [
      "",
      "positional arguments:",
      "  expression            Expression to evaluate",
      "",
      "options:",
      "  -h, --help            show this help message and exit"] ++ subjectLines
  | check => [
      "",
      "positional arguments:",
      "  config                Path to a .json/.yaml gate configuration",
      "",
      "options:",
      "  -h, --help            show this help message and exit",
      "  --gate GATE           Only evaluate this gate"] ++ subjectLines

def help (page : Page) : List String :=
  page.usage ++ page.details

end Page

def Misuse.message : Misuse → String
  | ambiguous word meant =>
    "ambiguous option: " ++ word ++ " could match " ++ ", ".intercalate meant
  | missingArgument s => s!"argument {s.title}: expected one argument"
  | ignoredArgument s argument =>
    s!"argument {s.title}: ignored explicit argument " ++ Text.quoted argument
  | notWhole s argument => s!"argument {s.title}: invalid int value: " ++ Text.quoted argument
  | missingOperand name => s!"the following arguments are required: {name}"
  | unknownCommand name known =>
    "argument command: invalid choice: " ++ Text.quoted name ++ " (choose from " ++
      ", ".intercalate (known.map Text.quoted) ++ ")"
  | leftovers words => "unrecognized arguments: " ++ " ".intercalate words

end Gatekeeper.Cli
