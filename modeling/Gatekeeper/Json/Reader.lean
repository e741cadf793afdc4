import Gatekeeper.Number.Whole
import Gatekeeper.Text.CodePoint
import Gatekeeper.Value.Basic

/-!
# Reading JSON

Values from JSON text. Beyond the standard, the names of infinity and of the number that is none are
numbers. Of several entries with one key the last one counts, in the place of the first. A problem is
reported with its line, its column, and its place in the text.
-/
namespace Gatekeeper.Json

open Number

inductive Problem where
  | expectingValue
  | expectingName
  | expectingColon
  | expectingComma
  | extraData
  | byteOrderMark
  | unterminatedText
  | invalidEscape
  | invalidCodePoint
  | controlCharacter
  deriving DecidableEq, Repr

def Problem.message : Problem → String
  | expectingValue => "Expecting value"
  | expectingName => "Expecting property name enclosed in double quotes"
  | expectingColon => "Expecting ':' delimiter"
  | expectingComma => "Expecting ',' delimiter"
  | extraData => "Extra data"
  | byteOrderMark => "Unexpected UTF-8 BOM (decode using utf-8-sig)"
  | unterminatedText => "Unterminated string starting at"
  | invalidEscape => "Invalid \\escape"
  | invalidCodePoint => "Invalid \\uXXXX escape"
  | controlCharacter => "Invalid control character at"

inductive Error where
  /-- The text breaks the grammar at a place. -/
  | malformed (problem : Problem) (line column place : Nat)
  /-- A whole number has more digits than are read. -/
  | tooManyDigits (digits : Nat)
  /-- A container stands within too many others. -/
  | tooDeep (container : String)
  deriving DecidableEq, Repr

/-- The greatest number of containers around a value. -/
def depthLimit : Nat := 989

def Error.message : Error → String
  | malformed problem line column place =>
    s!"{problem.message}: line {line} column {column} (char {place})"
  | tooManyDigits digits => Whole.tooLongMessage digits
  | tooDeep container =>
    s!"maximum recursion depth exceeded while decoding a JSON {container} from a unicode string"

/-- Why reading stops: a problem with that many characters left, a number that is too long, or a
container that stands too deep. -/
inductive Stop where
  | problem (p : Problem) (left : Nat)
  | tooManyDigits (digits : Nat)
  | tooDeep (container : String)

def isSpace (c : Char) : Bool :=
  c == ' ' || c == '\t' || c == '\n' || c == '\r'

def skipSpace (text : List Char) : List Char :=
  text.dropWhile isSpace

def hexValue? (c : Char) : Option Nat :=
  if '0' ≤ c ∧ c ≤ '9' then some (c.toNat - 48)
  else if 'a' ≤ c ∧ c ≤ 'f' then some (c.toNat - 87)
  else if 'A' ≤ c ∧ c ≤ 'F' then some (c.toNat - 55)
  else none

/-- The number that the first four characters write in hexadecimal, when a fifth one follows. -/
def codeUnit? : List Char → Option Nat
  | a :: b :: c :: d :: _ :: _ => do
    return (((← hexValue? a) * 16 + (← hexValue? b)) * 16 + (← hexValue? c)) * 16 + (← hexValue? d)
  | _ => none

/-- The characters that hold what an escape stands for, and the length of the escape behind its
backslash. The escapes of the two halves of a surrogate pair stand for one code point. -/
def escape (opening : Nat) : List Char → Except Stop (List Char × Nat)
  | [] => .error (.problem .unterminatedText opening)
  | 'u' :: rest =>
    match codeUnit? rest with
    | none => .error (.problem .invalidCodePoint (rest.length + 1))
    | some unit =>
      if 0xD800 ≤ unit ∧ unit < 0xDC00 then
        match rest.drop 4 with
        | '\\' :: 'u' :: more =>
          if Text.isShorter 5 more then .ok (Text.ofCode unit, 5)
          else
            match codeUnit? more with
            | none => .error (.problem .invalidCodePoint (more.length + 1))
            | some low =>
              if 0xDC00 ≤ low ∧ low < 0xE000 then
                .ok (Text.ofCode (0x10000 + (unit - 0xD800) * 0x400 + (low - 0xDC00)), 11)
              else .ok (Text.ofCode unit, 5)
        | _ => .ok (Text.ofCode unit, 5)
      else .ok (Text.ofCode unit, 5)
  | c :: rest =>
    match c with
    | '"' | '\\' | '/' => .ok ([c], 1)
    | 'b' => .ok (['\x08'], 1)
    | 'f' => .ok (['\x0C'], 1)
    | 'n' => .ok (['\n'], 1)
    | 'r' => .ok (['\r'], 1)
    | 't' => .ok (['\t'], 1)
    | _ => .error (.problem .invalidEscape (rest.length + 2))

/-- The characters up to the closing quote, and the rest. The first `skip` characters belong to an
escape already read; `opening` characters were left at the opening quote. -/
def readChars (opening skip : Nat) : List Char → Except Stop (List Char × List Char)
  | [] => .error (.problem .unterminatedText opening)
  | c :: rest =>
    match skip with
    | skip + 1 => readChars opening skip rest
    | 0 =>
      if c = '"' then .ok ([], rest)
      else if c = '\\' then do
        let (meant, length) ← escape opening rest
        let (chars, after) ← readChars opening length rest
        return (meant ++ chars, after)
      else if c.toNat < 0x20 then .error (.problem .controlCharacter (rest.length + 1))
      else do
        let (chars, after) ← readChars opening 0 rest
        return (c :: chars, after)

/-- The text behind an opening quote. -/
def readText (rest : List Char) : Except Stop (String × List Char) := do
  let (chars, after) ← readChars (rest.length + 1) 0 rest
  return (String.ofList chars, after)

def decimalValue (digits : List Char) : Nat :=
  digits.foldl (fun n c => 10 * n + (c.toNat - 48)) 0

/-- The fraction that starts a text, when a digit follows the point. -/
def takeFraction (text : List Char) : List Char × List Char :=
  match text with
  | '.' :: rest =>
    let digits := rest.takeWhile Char.isDigit
    if digits.isEmpty then ([], text) else (digits, rest.dropWhile Char.isDigit)
  | _ => ([], text)

/-- The exponent that starts a text, when it has a digit. -/
def takeExponent? (text : List Char) : Option (Int × List Char) :=
  match text with
  | c :: rest =>
    if c = 'e' ∨ c = 'E' then
      let (negative, digits) :=
        match rest with
        | '-' :: more => (true, more)
        | '+' :: more => (false, more)
        | _ => (false, rest)
      let exponent := digits.takeWhile Char.isDigit
      if exponent.isEmpty then none
      else some (Double.signed negative (decimalValue exponent), digits.dropWhile Char.isDigit)
    else none
  | [] => none

/-- The number that starts a text, or `none` if no digit does. -/
def readNumber (text : List Char) : Except Stop (Option (Scalar × List Char)) :=
  let (negative, unsigned) :=
    match text with
    | '-' :: rest => (true, rest)
    | _ => (false, text)
  let (whole, afterWhole) :=
    match unsigned with
    | '0' :: rest => (['0'], rest)
    | _ => (unsigned.takeWhile Char.isDigit, unsigned.dropWhile Char.isDigit)
  if whole.isEmpty then .ok none
  else
    let (fraction, afterFraction) := takeFraction afterWhole
    match fraction, takeExponent? afterFraction with
    | [], none =>
      if digitLimit < whole.length then .error (.tooManyDigits whole.length)
      else .ok (some (.int (Double.signed negative (decimalValue whole)), afterFraction))
    | _, none =>
      let x := Double.ofDecimal negative (decimalValue (whole ++ fraction)) (-fraction.length)
      .ok (some (.float x, afterFraction))
    | _, some (exponent, rest) =>
      let x := Double.ofDecimal negative (decimalValue (whole ++ fraction))
        (exponent - fraction.length)
      .ok (some (.float x, rest))

/-- The scalars that are written as names. -/
def names : List (String × Scalar) :=
  [("null", .null), ("true", .bool true), ("false", .bool false), ("NaN", .float .nan),
    ("Infinity", .float (.infinity false)), ("-Infinity", .float (.infinity true))]

/-- The scalar that starts a text and is not quoted. -/
def readScalar (text : List Char) : Except Stop (Scalar × List Char) :=
  match names.find? fun name => name.1.toList.isPrefixOf text with
  | some (name, s) => .ok (s, text.drop name.length)
  | none => do
    match ← readNumber text with
    | some read => return read
    | none => .error (.problem .expectingValue text.length)

mutual

/-- The value that starts a text, when containers may stand in it `levels` deep. Each step down takes
one from the budget. -/
def readValue (budget levels : Nat) (text : List Char) : Except Stop (Value × List Char) :=
  match budget with
  | 0 => .error (.problem .expectingValue text.length)
  | budget + 1 =>
    match text with
    | '"' :: rest => do
      let (s, after) ← readText rest
      return (.text s, after)
    | '[' :: rest =>
      match levels, skipSpace rest with
      | 0, _ => .error (.tooDeep "array")
      | _, ']' :: after => .ok (.list [], after)
      | levels + 1, first => do
        let (items, after) ← readItems budget levels first
        return (.list items, after)
    | '\x7b' :: rest =>
      match levels, skipSpace rest with
      | 0, _ => .error (.tooDeep "object")
      | _, '\x7d' :: after => .ok (.map [], after)
      | levels + 1, first => do
        let (entries, after) ← readEntries budget levels first
        return (.ofEntries entries, after)
    | _ => do
      let (s, after) ← readScalar text
      return (.scalar s, after)

/-- The items of a list from one of them on. -/
def readItems (budget levels : Nat) (text : List Char) : Except Stop (List Value × List Char) :=
  match budget with
  | 0 => .error (.problem .expectingValue text.length)
  | budget + 1 => do
    let (item, after) ← readValue budget levels text
    match skipSpace after with
    | ']' :: rest => return ([item], rest)
    | ',' :: rest =>
      let (items, rest) ← readItems budget levels (skipSpace rest)
      return (item :: items, rest)
    | rest => .error (.problem .expectingComma rest.length)

/-- The entries of a map from one of them on. -/
def readEntries (budget levels : Nat) (text : List Char) :
    Except Stop (List (Scalar × Value) × List Char) :=
  match budget with
  | 0 => .error (.problem .expectingName text.length)
  | budget + 1 =>
    match text with
    | '"' :: rest => do
      let (name, after) ← readText rest
      match skipSpace after with
      | ':' :: rest =>
        let (v, after) ← readValue budget levels (skipSpace rest)
        match skipSpace after with
        | '\x7d' :: rest => return ([(.text name, v)], rest)
        | ',' :: rest =>
          let (entries, rest) ← readEntries budget levels (skipSpace rest)
          return ((.text name, v) :: entries, rest)
        | rest => .error (.problem .expectingComma rest.length)
      | rest => .error (.problem .expectingColon rest.length)
    | _ => .error (.problem .expectingName text.length)

end

/-- The error at the place of a text where reading stopped. Places count code points. -/
def Error.ofStop (text : List Char) : Stop → Error
  | .problem p left =>
    let before := Text.heads (text.take (text.length - left))
    let line := before.count '\n' + 1
    let column := (before.reverse.takeWhile (· != '\n')).length + 1
    malformed p line column before.length
  | .tooManyDigits digits => tooManyDigits digits
  | .tooDeep container => tooDeep container

/-- The value that a whole text writes. -/
def readAll (text : List Char) : Except Stop Value :=
  match text with
  | '\uFEFF' :: _ => .error (.problem .byteOrderMark text.length)
  | _ => do
    let (v, after) ← readValue (2 * text.length + 2) depthLimit (skipSpace text)
    let rest := skipSpace after
    if rest.isEmpty then return v else .error (.problem .extraData rest.length)

/-- Read a value from JSON text. -/
def read (text : String) : Except Error Value :=
  (readAll text.toList).mapError (.ofStop text.toList)

end Gatekeeper.Json
