import Gatekeeper.Journal
import Gatekeeper.Settings

/-!
# Managers

A manager reads each expression once and remembers the outcome. Its state is a value: every
operation takes a manager and gives its result with the manager after it. Looking an expression up
is a read of the cache, and on a miss a parse whose outcome goes into the cache.
-/
namespace Gatekeeper

/-- What is known of expressions: a condition, or that there is none. -/
abbrev Cache := List (String × Option Condition)

structure Statistics where
  hits : Nat := 0
  misses : Nat := 0
  parseFailures : Nat := 0
  evaluationErrors : Nat := 0
  deriving DecidableEq, Repr

structure Manager where
  settings : Settings
  parser : Parser
  resolver : Option Resolver
  cache : Cache := []
  statistics : Statistics := {}
  journal : Journal := {}

namespace Manager

/-- A record of the manager itself. -/
def note (level : Level) (message : String) : Record := ⟨level, .manager, message, none⟩

def write (m : Manager) (records : List Record) : Manager :=
  { m with journal := m.journal.write records }

/-- A manager with an empty cache; without a parser of its own the settings give one. -/
def create (resolver : Option Resolver) (settings : Settings) (parser? : Option Parser) :
    Except DepthLimit.Refusal Manager := do
  let parser ← match parser? with
    | some parser => pure parser
    | none => settings.parser?
  let journal : Journal := { log := [note .info "Initialized ConditionManager"] }
  return { settings, parser, resolver, journal }

/-- What the cache holds of an expression; only texts are remembered. -/
def cached? (m : Manager) : Value → Option (Option Condition)
  | .text expression => m.cache.lookup expression
  | _ => none

def countHit (m : Manager) : Manager :=
  { m with statistics.hits := m.statistics.hits + 1 }

def countMiss (m : Manager) : Manager :=
  { m with statistics.misses := m.statistics.misses + 1 }

def countParseFailure (m : Manager) : Manager :=
  { m with statistics.parseFailures := m.statistics.parseFailures + 1 }

def countEvaluationError (m : Manager) : Manager :=
  { m with statistics.evaluationErrors := m.statistics.evaluationErrors + 1 }

/-- Remember the outcome of an expression. -/
def remember (m : Manager) (expression : Value) (outcome : Option Condition) : Manager :=
  match expression with
  | .text s => { m with cache := m.cache ++ [(s, outcome)] }
  | _ => m

/-- Keep the outcome of a parse; a refused expression is remembered only if the settings say so. -/
def keep (m : Manager) (expression : Value) : Option Condition → Manager
  | some c => (m.remember expression (some c)).write [note .debug "Cached condition"]
  | none =>
    let m := m.countParseFailure
    if m.settings.cacheInvalid.holds then m.remember expression none else m

/-- Parse an expression that the cache does not hold. -/
def learn (m : Manager) (expression : Value) : Except Fault (Option Condition) × Manager :=
  let m := m.countMiss
  match m.parser.attempt expression with
  | (.error fault, log) => (.error fault, m.write log)
  | (.ok outcome, log) => (.ok outcome, (m.write log).keep expression outcome)

/-- The condition of an expression, or `none` if it is refused. -/
def lookup (m : Manager) (expression : Value) : Except Fault (Option Condition) × Manager :=
  match m.cached? expression with
  | some outcome => (.ok outcome, m.countHit)
  | none => m.learn expression

/-- Decide a condition. A fault is counted and decides against the subject; its message goes to the log,
and if it has none, the fault of asking for one goes on. -/
def judge (m : Manager) (subject : Subject) (expression : Value) (c : Condition) :
    Except Fault Bool × Manager :=
  let e := c.evaluate subject m.resolver
  let m := { m with journal := m.journal.ask e.asked }
  match e.outcome with
  | .ok answer => (.ok answer, m)
  | .error fault =>
    let m := m.countEvaluationError
    match fault.message? with
    | .error asking => (.error asking, m)
    | .ok _ =>
      let message := "Error evaluating condition: " ++ expression.shown
      (.ok false, m.write [⟨.error, .manager, message, some fault⟩])

/-- Decide an expression; one that is refused decides against the subject. -/
def evaluate (m : Manager) (subject : Subject) (expression : Value) :
    Except Fault Bool × Manager :=
  match m.lookup expression with
  | (.error fault, m) => (.error fault, m)
  | (.ok none, m) => (.ok false, m)
  | (.ok (some c), m) => m.judge subject expression c

def isValid (m : Manager) (expression : Value) : Except Fault Bool × Manager :=
  let (outcome, m) := m.lookup expression
  (outcome.map (·.isSome), m)

def describe (m : Manager) (expression : Value) : Except Fault (Option String) × Manager :=
  let (outcome, m) := m.lookup expression
  (outcome.map (·.map Condition.describe), m)

/-- Ask the same of expressions in turn, up to the first answer that is decisive for the mode. -/
def askEach (ask : Manager → Value → Except Fault Bool × Manager) (mode : Mode) (m : Manager) :
    List Value → Except Fault Bool × Manager
  | [] => (.ok (!mode.decisive), m)
  | e :: es =>
    match ask m e with
    | (.error fault, m) => (.error fault, m)
    | (.ok answer, m) => if answer = mode.decisive then (.ok answer, m) else askEach ask mode m es

/-- Decide a list of expressions, every one or at least one. -/
def evaluateEach (m : Manager) (subject : Subject) (mode : Mode) (expressions : List Value) :
    Except Fault Bool × Manager :=
  askEach (evaluate · subject ·) mode m expressions

/-- Whether every expression is valid. -/
def areValid (m : Manager) (expressions : List Value) : Except Fault Bool × Manager :=
  askEach isValid .all m expressions

/-- The conditions of several expressions without those that are refused. -/
def conditions (m : Manager) : List Value → Except Fault (List Condition) × Manager
  | [] => (.ok [], m)
  | e :: es =>
    match m.lookup e with
    | (.error fault, m) => (.error fault, m)
    | (.ok c?, m) =>
      let (cs, m) := conditions m es
      (cs.map (c?.toList ++ ·), m)

def clearCache (m : Manager) : Manager :=
  { m with cache := [] }.write [note .info "Condition cache cleared"]

/-- Install a resolver, or take the installed one away. -/
def setResolver (m : Manager) (resolver : Option Resolver) : Manager :=
  { m with resolver }.write
    [note .info ("Attribute resolution " ++ if resolver.isSome then "enabled" else "disabled")]

/-- Take new settings, with the parser they call for and an empty cache. Settings whose limit is out
of range are in force already when that shows, and parser and cache stay as they were. -/
def updateSettings (m : Manager) (settings : Settings) : Except DepthLimit.Refusal Unit × Manager :=
  let m := { m.write [note .info "Updating engine configuration"] with settings }
  match settings.parser? with
  | .ok parser => (.ok (), { m with parser, cache := [] })
  | .error r => (.error r, m)

end Manager

end Gatekeeper
