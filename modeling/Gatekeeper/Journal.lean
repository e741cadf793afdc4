import Gatekeeper.Condition.Evaluation
import Gatekeeper.Expression.Parser

/-!
# Journals

What work leaves behind besides its result: the questions put to the host application and the log
records, each in order.
-/
namespace Gatekeeper

inductive Level where
  | debug
  | info
  | warning
  | error
  deriving DecidableEq, Repr

def Level.name : Level → String
  | debug => "DEBUG"
  | info => "INFO"
  | warning => "WARNING"
  | error => "ERROR"

/-- The part of the engine that writes a record. -/
inductive Source where
  | parser
  | manager
  deriving DecidableEq, Repr

def Source.name : Source → String
  | parser => "parsing.parser"
  | manager => "evaluation.manager"

structure Record where
  level : Level
  source : Source
  message : String
  /-- The fault that a record reports. -/
  fault? : Option Fault := none
  deriving DecidableEq, Repr

/-- The record of an expression that has been read. -/
def Record.parsed : Record := ⟨.debug, .parser, "Parsed condition", none⟩

structure Journal where
  asked : List Question := []
  log : List Record := []
  deriving DecidableEq, Repr

namespace Journal

def write (journal : Journal) (records : List Record) : Journal :=
  { journal with log := journal.log ++ records }

def ask (journal : Journal) (questions : List Question) : Journal :=
  { journal with asked := journal.asked ++ questions }

end Journal

namespace Parser

/-- The condition of an expression, or `none` for one that is refused, with the record of it. The stack
is taken to be large enough for every expression: that one which nests too deep for it is refused as
well has no counterpart here. -/
def attempt (parser : Parser) (expression : Value) :
    Except Fault (Option Condition) × List Record :=
  match parser.parseValue expression with
  | .ok c => (.ok (some c), [.parsed])
  | .error (.refused e) =>
    let message := "Failed to parse condition: " ++ expression.shown ++ " - " ++ e.cause.message
    (.ok none, [⟨.warning, .parser, message, none⟩])
  | .error (.raised fault) => (.error fault, [])

/-- The conditions of several expressions without those that are refused. -/
def attemptEach (parser : Parser) :
    List Value → Except Fault (List Condition) × List Record
  | [] => (.ok [], [])
  | e :: es =>
    match parser.attempt e with
    | (.error fault, log) => (.error fault, log)
    | (.ok c?, log) =>
      let (cs, log') := attemptEach parser es
      (cs.map (c?.toList ++ ·), log ++ log')

end Parser

end Gatekeeper
