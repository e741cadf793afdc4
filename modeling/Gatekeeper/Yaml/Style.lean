import Gatekeeper.Text.Base64
import Gatekeeper.Value.Text
import Gatekeeper.Yaml.Scalar.Kind

/-!
# Styles of scalars

The characters of a scalar and how they are marked as such. A text stands without quotes when it would
be read back as itself, else between single quotes, and between double quotes when it has characters
outside printable ASCII or blanks at a line break. Bytes stand in lines of their own.
-/
namespace Gatekeeper.Yaml

inductive Style where
  | plain
  | single
  | double
  | literal
  deriving DecidableEq, Repr

/-- Characters that end a line of text. -/
def isFeed (c : Char) : Bool :=
  ['\n', '\u0085', '\u2028', '\u2029'].contains c

def isPrintableAscii (c : Char) : Bool :=
  ' ' ≤ c && c ≤ '~'

/-- Whether nothing follows, or a blank. -/
def startsWithBlank (rest : List Char) : Bool :=
  rest.head?.all (· == ' ')

/-- Whether the first character of a text, with what follows it, begins some other form. -/
def beginsForm (c : Char) (rest : List Char) : Bool :=
  "#,[]\x7b\x7d&*!|>'\"%@\x60".toList.contains c ||
    ("?:-".toList.contains c && startsWithBlank rest)

/-- Whether a colon in front of a blank, or a hash behind one, stands within a text. -/
def hasInnerMark : Char → List Char → Bool
  | _, [] => false
  | before, c :: rest =>
    (c == ':' && startsWithBlank rest) || (c == '#' && before == ' ') || hasInnerMark c rest

/-- Whether a text in a block is taken for one scalar without quotes. -/
def isOneScalar : List Char → Bool
  | [] => false
  | c :: rest =>
    let text := c :: rest
    text.all isPrintableAscii && c != ' ' && text.getLast? != some ' ' &&
      !("---".toList.isPrefixOf text || "...".toList.isPrefixOf text) && !beginsForm c rest &&
      !hasInnerMark c rest

/-- Whether a text has no blank in front of a line feed or behind one. -/
def hasCleanBreaks : List Char → Bool
  | c :: d :: rest =>
    !(c == ' ' && d == '\n') && !(c == '\n' && d == ' ') && hasCleanBreaks (d :: rest)
  | _ => true

def Style.ofText (text : List Char) : Style :=
  if Kind.ofText text = .text && isOneScalar text then plain
  else if text.all (fun c => isPrintableAscii c || c == '\n') && hasCleanBreaks text then single
  else double

def Style.ofScalar : Scalar → Style
  | .text s => .ofText s.toList
  | .octets bytes => if bytes.isEmpty then double else literal
  | _ => plain

def Kind.ofScalar : Scalar → Kind
  | .null => null
  | .bool _ => bool
  | .int _ => int
  | .float _ | .unordered _ => float
  | .text _ => Kind.text
  | .moment .. => moment
  | .octets _ => binary

/-- The mark that names a kind. -/
def Kind.tag (kind : Kind) : String :=
  "!!" ++ (names.lookup kind).getD ""

/-- A number with a point: one that has only an exponent gets a point as well. -/
def doubleText : Number.Double → List Char
  | .nan => ".nan".toList
  | .infinity negative => (if negative then "-.inf" else ".inf").toList
  | x =>
    let text := x.text.toList
    if text.contains '.' then text
    else
      match text.span (· != 'e') with
      | (digits, []) => digits
      | (digits, exponent) => digits ++ ".0".toList ++ exponent

/-- The characters of a scalar, before they are marked. -/
def textOf : Scalar → List Char
  | .null => "null".toList
  | .bool b => (if b then "true" else "false").toList
  | .int n => (toString n).toList
  | .float x => doubleText x
  | .unordered _ => doubleText .nan
  | .text s => s.toList
  | .moment m _ => m.plain.toList
  | .octets bytes => Text.Base64.encode bytes

/-- A code point that double quotes cannot hold as it is, in its escaped form. -/
def escape? (code : Nat) : Option (List Char) :=
  let short := [('\x00', '0'), ('\x07', 'a'), ('\x08', 'b'), ('\t', 't'), ('\n', 'n'), ('\x0B', 'v'),
    ('\x0C', 'f'), ('\r', 'r'), ('\x1B', 'e'), ('"', '"'), ('\\', '\\'), ('\u0085', 'N'),
    ('\u00A0', '_'), ('\u2028', 'L'), ('\u2029', 'P')]
  match short.find? fun (c, _) => c.toNat = code with
  | some (_, letter) => some ['\\', letter]
  | none =>
    let upper (width : Nat) := (Text.hex width code).map Char.toUpper
    if isPrintableAscii (Char.ofNat code) then none
    else if code ≤ 0xFF then some ('\\' :: 'x' :: upper 2)
    else if code ≤ 0xFFFF then some ('\\' :: 'u' :: upper 4)
    else some ('\\' :: 'U' :: upper 8)

end Gatekeeper.Yaml
