import Gatekeeper.Text.Quoted
import Gatekeeper.Value.Mismatch
import Gatekeeper.Value.Text

/-!
# Writing JSON

JSON text in ASCII characters only, on one line or with one member a line. Values that JSON has no
form for are written as lists and texts; an obstacle says what of a value has no form.
-/
namespace Gatekeeper.Json

/-- The text before each level of a layout with one member a line, or `none` for one line. -/
abbrev Indent := Option String

/-- An indent from a value: a number of blanks, or the text of one level. -/
def Indent.ofValue : Value → Except Mismatch Indent
  | .null => .ok none
  | .text s => .ok (some s)
  | .int n =>
    let bound : Int := Nat.pow 2 63
    if -bound ≤ n ∧ n < bound then .ok (some (String.ofList (List.replicate n.toNat ' ')))
    else .error .unindexable
  | .bool b => .ok (some (if b then " " else ""))
  | v => .error (.notRepeatable v.kind)

/-- Why a value has no JSON form. -/
inductive Obstacle where
  /-- A value of a kind that has none. -/
  | value (kind : String)
  | key (kind : String)
  /-- A container that contains itself. -/
  | cycle
  /-- A whole number that is too long to be written. -/
  | unwritable
  deriving DecidableEq, Repr

def Obstacle.message : Obstacle → String
  | value kind => "Object of type " ++ kind ++ " is not JSON serializable"
  | key kind => "keys must be str, int, float, bool or None, not " ++ kind
  | cycle => "Circular reference detected"
  | unwritable => Number.Whole.unwritableMessage

/-- The short name of a scalar's kind. -/
def kindOf : Scalar → String
  | .moment m _ => m.shortKind
  | s => s.kind

def scalarObstacle? : Scalar → Option Obstacle
  | .int n => if Number.Whole.isWritable n then none else some .unwritable
  | .moment m _ => some (.value m.shortKind)
  | .octets bytes => some (.value (Scalar.octets bytes).kind)
  | _ => none

/-- What is in the way of a key. On one line the whole name of its kind is given. -/
def keyObstacle? (indent : Indent) (k : Scalar) : Option Obstacle :=
  (scalarObstacle? k).map fun
    | .value _ => .key (if indent.isNone then k.kind else kindOf k)
    | obstacle => obstacle

mutual

/-- The first obstacle within a value. -/
def obstacle? (indent : Indent) : Value → Option Obstacle
  | .scalar s => scalarObstacle? s
  | .list items => itemsObstacle? indent items
  | .map entries => entriesObstacle? indent entries
  | .pair first second => obstacle? indent first <|> obstacle? indent second
  | .set members => some (.value (Value.set members).kind)
  | .shared _ v => obstacle? indent v
  | .again _ => some .cycle

def itemsObstacle? (indent : Indent) : List Value → Option Obstacle
  | [] => none
  | v :: items => obstacle? indent v <|> itemsObstacle? indent items

def entriesObstacle? (indent : Indent) : List (Scalar × Value) → Option Obstacle
  | [] => none
  | (k, v) :: entries =>
    keyObstacle? indent k <|> obstacle? indent v <|> entriesObstacle? indent entries

end

/-- One code unit of sixteen bits. -/
def writeUnit (n : Nat) : List Char :=
  '\\' :: 'u' :: Text.hex 4 n

/-- The characters that have a letter of their own behind a backslash. -/
def shortEscapes : List (Char × Char) :=
  [('"', '"'), ('\\', '\\'), ('\n', 'n'), ('\r', 'r'), ('\t', 't'), ('\x0C', 'f'), ('\x08', 'b')]

/-- One code point between quotes; one that is no unit of its own takes two. -/
def writeCode (n : Nat) : List Char :=
  match shortEscapes.find? fun (c, _) => c.toNat = n with
  | some (_, letter) => ['\\', letter]
  | none =>
    if 0x20 ≤ n ∧ n < 0x7F then Text.ofCode n
    else if n < 0x10000 then writeUnit n
    else writeUnit (0xD800 + (n - 0x10000) / 0x400) ++ writeUnit (0xDC00 + (n - 0x10000) % 0x400)

def writeText (s : String) : String :=
  String.ofList ('"' :: ((Text.codes s.toList).flatMap writeCode ++ ['"']))

/-- A number that is not finite is written by its name. -/
def writeDouble : Number.Double → String
  | .nan => "NaN"
  | .infinity negative => if negative then "-Infinity" else "Infinity"
  | x => x.text

def writeScalar : Scalar → String
  | .null => "null"
  | .bool b => if b then "true" else "false"
  | .int n => toString n
  | .float x => writeDouble x
  | .unordered _ => writeDouble .nan
  | .text s => writeText s
  | s => writeText s.plain

/-- A key is always a text. -/
def writeKey : Scalar → String
  | .text s => writeText s
  | s => writeText (writeScalar s)

/-- The start of a line at some level. -/
def newline (indent : String) (level : Nat) : String :=
  "\n" ++ String.join (List.replicate level indent)

/-- Written members between two brackets. -/
def enclose (indent : Indent) (level : Nat) (opening closing : String) (members : List String) :
    String :=
  if members.isEmpty then opening ++ closing
  else
    match indent with
    | none => opening ++ ", ".intercalate members ++ closing
    | some unit =>
      opening ++ newline unit (level + 1) ++
        ("," ++ newline unit (level + 1)).intercalate members ++ newline unit level ++ closing

mutual

/-- A value at some level of a layout. -/
def writeAt (indent : Indent) (level : Nat) : Value → String
  | .scalar s => writeScalar s
  | .list items => enclose indent level "[" "]" (writeItems indent (level + 1) items)
  | .map entries => enclose indent level "\x7b" "\x7d" (writeEntries indent (level + 1) entries)
  | .pair first second =>
    enclose indent level "[" "]"
      [writeAt indent (level + 1) first, writeAt indent (level + 1) second]
  | .set members => enclose indent level "[" "]" (members.map writeScalar)
  | .shared _ v => writeAt indent level v
  | .again _ => writeScalar .null

def writeItems (indent : Indent) (level : Nat) : List Value → List String
  | [] => []
  | v :: items => writeAt indent level v :: writeItems indent level items

def writeEntries (indent : Indent) (level : Nat) : List (Scalar × Value) → List String
  | [] => []
  | (k, v) :: entries =>
    (writeKey k ++ ": " ++ writeAt indent level v) :: writeEntries indent level entries

end

/-- Write a value as JSON text. -/
def write (indent : Indent) (v : Value) : String :=
  writeAt indent 0 v

end Gatekeeper.Json
