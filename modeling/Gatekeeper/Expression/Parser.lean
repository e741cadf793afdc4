import Gatekeeper.Expression.Bracket
import Gatekeeper.Expression.Leaf
import Gatekeeper.Text.Caseless

/-!
# Expressions

Reading a condition from its expression:

    expression  := ("any" | "or") "[" list "]" | ("all" | "and") "[" list "]"
                 | "not" expression | leaf
    list        := expression (";" expression)*
    leaf        := ("permission" | "perm") ["!"] node | "!" node | node
                 | ["placeholder" | "papi"] token [operator value]

Keywords may be in any letter case, and blanks around brackets and semicolons do not count. A bare
token starts with the delimiter. The reader goes down one level of nesting for each keyword with an
operand, and a parser sets how many levels there are.
-/
namespace Gatekeeper

/-- How deep expressions may nest: the number of levels, and the limit as it was written. -/
structure DepthLimit where
  levels : Nat
  written : String
  deriving DecidableEq, Repr

namespace DepthLimit

def default : Int := 32

/-- The greatest limit there may be. -/
def greatest : Int := 128

/-- Why a value sets no limit. -/
inductive Refusal where
  | outOfRange (written : String)
  /-- The limit is out of range, and too long to be written. -/
  | unwritable
  | mismatch (m : Mismatch)
  deriving DecidableEq, Repr

def Refusal.message : Refusal → String
  | outOfRange written => s!"max_depth must be between 1 and {greatest}, got {written}"
  | unwritable => Number.Whole.unwritableMessage
  | mismatch m => m.message

/-- The refusal of a scalar that is out of range. -/
def Refusal.ofScalar (s : Scalar) : Refusal :=
  if s.isWritable then outOfRange s.plain else unwritable

/-- The limit that a value sets: a number between one and the greatest limit, of which the whole
part counts. -/
def ofValue : Value → Except Refusal DepthLimit
  | .scalar s =>
    match s.position?, s with
    | some n, _ =>
      let one : Int := Number.Double.one
      if one ≤ n ∧ n ≤ greatest * one then .ok ⟨(n / one).toNat, s.plain⟩
      else .error (.ofScalar s)
    | none, .float _ | none, .unordered _ => .error (.ofScalar s)
    | none, _ => .error (.mismatch (.incomparable "<=" "int" s.kind))
  | v => .error (.mismatch (.incomparable "<=" "int" v.kind))

end DepthLimit

structure Parser where
  limit : DepthLimit
  delimiter : Delimiter
  deriving DecidableEq, Repr

/-- Why an expression is refused. -/
inductive ParseCause where
  | notText
  | tooDeep (limit : String)
  | empty
  | unmatchedOpening
  | unmatchedClosing
  | textAfterClosing
  | emptyList
  | missingOperand
  | strayed
  | unknownFormat
  | leaf (defect : Defect)
  deriving DecidableEq, Repr

def ParseCause.message : ParseCause → String
  | notText => "Expression must be a string"
  | tooDeep limit => s!"Nesting deeper than {limit} levels"
  | empty => "Empty expression"
  | unmatchedOpening => "Unmatched '['"
  | unmatchedClosing => "Unmatched ']'"
  | textAfterClosing => "Unexpected text after ']'"
  | emptyList => "Empty condition list"
  | missingOperand => "Missing operand after keyword"
  | strayed => "Unexpected ';' outside a condition list"
  | unknownFormat => "Unknown condition format"
  | leaf defect => defect.message

/-- A refused expression: the fragment that cannot be read, and why. -/
structure ParseError where
  fragment : String
  cause : ParseCause
  deriving DecidableEq, Repr

def ParseError.message (e : ParseError) : String :=
  e.cause.message ++ ": " ++ Text.quoted e.fragment

/-- Why parsing ends without a condition: the expression is refused, or a fault is raised on the way. -/
inductive ParseFailure where
  | refused (e : ParseError)
  | raised (fault : Fault)
  deriving DecidableEq, Repr

namespace ParseCause

def ofImbalance : Bracket.Imbalance → ParseCause
  | .unmatchedOpening => unmatchedOpening
  | .unmatchedClosing => unmatchedClosing

end ParseCause

namespace Parser

def refuse {α : Type} (fragment : List Char) (cause : ParseCause) : Except ParseFailure α :=
  .error (.refused ⟨String.ofList fragment, cause⟩)

/-- The words that mean something only with an operand. -/
def keywords : List String :=
  ["any", "or", "all", "and", "not", "permission", "perm", "placeholder", "papi"]

def isKeyword (text : List Char) : Bool :=
  keywords.contains (String.ofList (text.map Char.toLower))

/-- What follows a keyword of a group and its opening bracket. -/
def afterGroup? (text : List Char) : Option (Mode × List Char) :=
  match Text.afterAnyWord? ["any", "or", "all", "and"] text with
  | none => none
  | some (word, rest) =>
    match Text.trimStart rest with
    | '[' :: inside => some (if word = "all" ∨ word = "and" then .all else .any, inside)
    | _ => none

/-- What follows one of some words and at least one blank. -/
def afterKeyword? (words : List String) (text : List Char) : Option (List Char) :=
  match Text.afterAnyWord? words text with
  | some (_, c :: rest) => if Text.isBlank c then some (Text.trimStart rest) else none
  | _ => none

/-- The pieces of a list whose opening bracket stands in front of `inside`, which goes on to the end
of the whole `text`. -/
def listPieces (text inside : List Char) : Except ParseFailure (List (List Char)) :=
  match Bracket.closingFrom 1 inside with
  | none => refuse text .unmatchedOpening
  | some n =>
    if n + 1 ≠ inside.length then refuse text .textAfterClosing
    else
      match Bracket.split (inside.take n) with
      | .error imbalance => refuse (inside.take n) (.ofImbalance imbalance)
      | .ok [] => refuse text .emptyList
      | .ok pieces => .ok pieces

/-- A defect of a leaf refuses the whole text of the leaf. -/
def asLeaf (text : List Char) : Except LeafError Condition → Except ParseFailure Condition
  | .ok c => .ok c
  | .error (.defect d) => refuse text (.leaf d)
  | .error (.mismatch m) => .error (.raised (.mismatch m))

/-- What a parser builds itself. No refusal is made of a defect here. -/
def built (result : Except Defect Condition) : Except ParseFailure Condition :=
  result.mapError fun d => .raised (.defect d)

def parsePermission (text body : List Char) : Except ParseFailure Condition :=
  asLeaf text ((Condition.readPermission body).mapError .defect)

def parseAttribute (delimiter : Delimiter) (text body : List Char) :
    Except ParseFailure Condition :=
  if body.contains ';' then refuse text .strayed
  else asLeaf text (Condition.readAttribute delimiter body)

/-- A leaf without a keyword. -/
def parseBare (delimiter : Delimiter) (text : List Char) : Except ParseFailure Condition :=
  match delimiter.opens text with
  | .error m => .error (.raised (.mismatch m))
  | .ok true => parseAttribute delimiter text text
  | .ok false =>
    if text.isEmpty || text.any Condition.endsNode then refuse text .unknownFormat
    else built (Condition.perm? (String.ofList text) (.bool false))

def parseLeaf (delimiter : Delimiter) (text : List Char) : Except ParseFailure Condition :=
  if text.contains '[' || text.contains ']' then refuse text .unknownFormat
  else if isKeyword text then refuse text .missingOperand
  else
    match afterKeyword? ["permission", "perm"] text with
    | some body => parsePermission text body
    | none =>
      match afterKeyword? ["placeholder", "papi"] text with
      | some body => parseAttribute delimiter text body
      | none =>
        if text.head? = some '!' then parsePermission text text else parseBare delimiter text

/-- Read an expression when `levels` levels of nesting are left. -/
def parseWithin (parser : Parser) (levels : Nat) (expression : List Char) :
    Except ParseFailure Condition :=
  match levels with
  | 0 => refuse expression (.tooDeep parser.limit.written)
  | levels + 1 =>
    let text := Text.normalize expression
    if text.isEmpty then refuse expression .empty
    else
      match afterGroup? text with
      | some (mode, inside) => do
        let pieces ← listPieces text inside
        built (Condition.group? mode (← pieces.mapM (parseWithin parser levels)))
      | none =>
        match afterKeyword? ["not"] text with
        | some operand => return .not (← parseWithin parser levels operand)
        | none => parseLeaf parser.delimiter text

/-- Read an expression. -/
def parse (parser : Parser) (expression : String) : Except ParseFailure Condition :=
  parser.parseWithin parser.limit.levels expression.toList

/-- Read the expression that a value should be. The refusal of any other value than a text shows the
value, so it takes one that can be written. -/
def parseValue (parser : Parser) : Value → Except ParseFailure Condition
  | .text expression => parser.parse expression
  | v => do
    let shown ← v.shown?.mapError .raised
    .error (.refused ⟨shown, .notText⟩)

/-- A parser from two values, of which the limit is checked. -/
def ofValues (limit delimiter : Value) : Except DepthLimit.Refusal Parser := do
  return ⟨← DepthLimit.ofValue limit, .ofValue delimiter⟩

end Parser

end Gatekeeper
